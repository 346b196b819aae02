import Macniri.Layout.Config
import Macniri.Lib.HashMap
import Macniri.Lib.Run

/-! The wlr-output-management protocol: the objects of its clients, their requests and the changes of
the output state. -/
namespace Macniri.OutputManagement

open Layout (LayoutPart OutputName Transform)

/-! The state of the outputs, as the IPC reports it. -/

structure Mode where
  width : ℕ
  height : ℕ
  refreshRate : ℕ
  isPreferred : Bool
  deriving DecidableEq, Repr

structure LogicalOutput where
  x : ℤ
  y : ℤ
  width : ℕ
  height : ℕ
  scale : ℚ
  transform : Transform
  deriving DecidableEq, Repr

structure Output where
  name : String
  make : String
  model : String
  serial : Option String
  physicalSize : Option (ℕ × ℕ)
  modes : List Mode
  currentMode : Option ℕ
  vrrEnabled : Bool
  logical : Option LogicalOutput
  deriving DecidableEq, Repr

/-- `OutputName::from_ipc_output`. -/
def Output.outputName (o : Output) : OutputName where
  connector := o.name
  make := if o.make ≠ "Unknown" then some o.make else none
  model := if o.model ≠ "Unknown" then some o.model else none
  serial := o.serial

/-! The configured outputs. -/

structure ConfiguredMode where
  width : ℕ
  height : ℕ
  refresh : Option ℚ
  deriving DecidableEq, Repr

structure ConfigMode where
  custom : Bool
  mode : ConfiguredMode
  deriving DecidableEq, Repr

structure Modeline where
  clock : ℚ
  hdisplay : ℕ
  hsyncStart : ℕ
  hsyncEnd : ℕ
  htotal : ℕ
  vdisplay : ℕ
  vsyncStart : ℕ
  vsyncEnd : ℕ
  vtotal : ℕ
  hsyncPositive : Bool
  vsyncPositive : Bool
  deriving DecidableEq, Repr

structure Position where
  x : ℤ
  y : ℤ
  deriving DecidableEq, Repr

structure Vrr where
  onDemand : Bool
  deriving DecidableEq, Repr

structure Color where
  r : ℚ
  g : ℚ
  b : ℚ
  a : ℚ
  deriving DecidableEq, Repr

structure HotCorners where
  off : Bool
  topLeft : Bool
  topRight : Bool
  bottomLeft : Bool
  bottomRight : Bool
  deriving DecidableEq, Repr

/-- An `output` section of the config. -/
structure OutputConfig where
  off : Bool
  name : String
  scale : Option ℚ
  transform : Transform
  position : Option Position
  mode : Option ConfigMode
  modeline : Option Modeline
  variableRefreshRate : Option Vrr
  focusAtStartup : Bool
  backgroundColor : Option Color
  backdropColor : Option Color
  hotCorners : Option HotCorners
  layout : Option LayoutPart
  deriving DecidableEq

def OutputConfig.default : OutputConfig where
  off := false
  name := ""
  scale := none
  transform := .normal
  position := none
  mode := none
  modeline := none
  variableRefreshRate := none
  focusAtStartup := false
  backgroundColor := none
  backdropColor := none
  hotCorners := none
  layout := none

/-- `Outputs::find`. -/
def find (outputs : List OutputConfig) (name : OutputName) : Option OutputConfig :=
  outputs.find? (name.matches ·.name)

/-! The objects of the protocol; within a client they are told apart by their ids. -/

structure Manager where
  id : ℕ
  version : ℕ
  deriving DecidableEq, Repr

structure Head where
  id : ℕ
  version : ℕ
  deriving DecidableEq, Repr

def evtMakeSince : ℕ := 2

def evtModelSince : ℕ := 2

def evtSerialNumberSince : ℕ := 2

def evtAdaptiveSyncSince : ℕ := 4

inductive ErrorCode where
  | alreadyUsed
  | alreadyConfiguredHead
  | invalidMode
  | invalidTransform
  | invalidScale
  | invalidAdaptiveSyncState
  deriving DecidableEq, Repr

inductive Event where
  | head (manager head : ℕ)
  | name (head : ℕ) (name : String)
  | description (head : ℕ) (description : String)
  | physicalSize (head width height : ℕ)
  | mode (head mode : ℕ)
  | size (mode width height : ℕ)
  | refresh (mode refresh : ℕ)
  | preferred (mode : ℕ)
  | modeFinished (mode : ℕ)
  | currentMode (head mode : ℕ)
  | position (head : ℕ) (x y : ℤ)
  | transform (head : ℕ) (transform : Transform)
  | scale (head : ℕ) (scale : ℚ)
  | enabled (head : ℕ) (enabled : Bool)
  | make (head : ℕ) (make : String)
  | model (head : ℕ) (model : String)
  | serialNumber (head : ℕ) (serial : String)
  | adaptiveSync (head : ℕ) (enabled : Bool)
  | headFinished (head : ℕ)
  | done (manager serial : ℕ)
  | managerFinished (manager : ℕ)
  | succeeded (conf : ℕ)
  | failed (conf : ℕ)
  | cancelled (conf : ℕ)
  | error (object : ℕ) (code : ErrorCode) (message : String)
  deriving DecidableEq, Repr

inductive OutputConfigurationState where
  | ongoing (config : HashMap ℕ OutputConfig)
  | finished

/-- What a configuration head object refers to: an output and a configuration object. -/
inductive OutputConfigurationHeadState where
  | cancelled
  | ok (output conf : ℕ)
  deriving DecidableEq, Repr

structure ClientData where
  heads : HashMap ℕ (Head × List ℕ)
  confs : HashMap ℕ OutputConfigurationState
  manager : Manager

/-- What the compositor does for a client: it sends an event, or applies a configuration. -/
inductive Effect where
  | event (event : Event)
  | applyOutputConfig (conf : ℕ) (config : List OutputConfig)
  deriving DecidableEq

/-- A client: its entry in the `clients` of the manager state, and its objects with the user data
attached to them. `log` and the flag of a manager, whether it was asked to stop, only observe. -/
structure Client where
  connected : Bool
  data : Option ClientData
  managers : HashMap ℕ Bool
  heads : HashMap ℕ ℕ
  confs : HashMap ℕ ℕ
  confHeads : HashMap ℕ OutputConfigurationHeadState
  nextObject : ℕ
  log : List Effect

def Client.initial : Client where
  connected := true
  data := none
  managers := ∅
  heads := ∅
  confs := ∅
  confHeads := ∅
  nextObject := 1
  log := []

/-- Each client has at most one entry, and the loops over the clients send events to each on its own,
so the clients are a function of their ids. -/
structure OutputManagementManagerState where
  serial : ℕ
  clients : ℕ → Client
  currentState : HashMap ℕ Output
  currentConfig : List OutputConfig

def OutputManagementManagerState.new (config : List OutputConfig) : OutputManagementManagerState where
  serial := 0
  clients := fun _ => .initial
  currentState := ∅
  currentConfig := config

namespace Client

def send (c : Client) (events : List Event) : Client :=
  { c with log := c.log ++ events.map .event }

/-- Note that a configuration is applied. -/
def applied (c : Client) (conf : ℕ) (config : List OutputConfig) : Client :=
  { c with log := c.log ++ [.applyOutputConfig conf config] }

/-- The head of an output and its modes. -/
def head (c : Client) (output : ℕ) : Option (Head × List ℕ) := c.data.bind (·.heads.get output)

/-- Set the modes of the head of an output. -/
def setModes (c : Client) (output : ℕ) (head : Head) (modes : List ℕ) : Client :=
  { c with data := c.data.map fun d => { d with heads := d.heads.insert output (head, modes) } }

/-- A protocol error disconnects the client, which destroys all its objects. -/
def disconnect (c : Client) : Client :=
  { c with
    connected := false
    data := none
    managers := ∅
    heads := ∅
    confs := ∅
    confHeads := ∅ }

def postError (c : Client) (object : ℕ) (code : ErrorCode) (message : String) : Client :=
  (c.send [.error object code message]).disconnect

end Client

/-! A new head. -/

/-- A value that does not fit in an `i32` is not sent. -/
def refreshEvents (id : ℕ) (mode : Mode) : List Event :=
  if mode.refreshRate < 2 ^ 31 then [.refresh id mode.refreshRate] else []

def newModeEvents (head : ℕ) (currentMode : Option ℕ) (index id : ℕ) (mode : Mode) : List Event :=
  [.mode head id, .size id mode.width mode.height] ++
  (if mode.isPreferred then [.preferred id] else []) ++ refreshEvents id mode ++
  (if some index = currentMode then [.currentMode head id] else [])

/-- The events for a list of new modes, with their first index and their ids. -/
def newModesEvents (head : ℕ) (currentMode : Option ℕ) : ℕ → List ℕ → List Mode → List Event
  | index, id :: ids, mode :: modes =>
    newModeEvents head currentMode index id mode ++
      newModesEvents head currentMode (index + 1) ids modes
  | _, _, _ => []

def physicalSizeEvents (head : ℕ) (conf : Output) : List Event :=
  match conf.physicalSize with
  | some (width, height) =>
    if width < 2 ^ 31 ∧ height < 2 ^ 31 then [.physicalSize head width height] else []
  | none => []

def logicalEvents (head : ℕ) (logical : LogicalOutput) : List Event :=
  [.position head logical.x logical.y, .transform head logical.transform, .scale head logical.scale]

def vendorEvents (head : Head) (conf : Output) : List Event :=
  (if evtMakeSince ≤ head.version then [.make head.id conf.make] else []) ++
  (if evtModelSince ≤ head.version then [.model head.id conf.model] else []) ++
  (if evtSerialNumberSince ≤ head.version then conf.serial.toList.map (.serialNumber head.id) else [])

def vrrEvents (head : Head) (conf : Output) : List Event :=
  if evtAdaptiveSyncSince ≤ head.version then [.adaptiveSync head.id conf.vrrEnabled] else []

def headStateEvents (head : Head) (conf : Output) : List Event :=
  conf.logical.toList.flatMap (logicalEvents head.id) ++
    [.enabled head.id conf.currentMode.isSome] ++ vendorEvents head conf ++ vrrEvents head conf

def newHeadEvents (manager : Manager) (head : Head) (modes : List ℕ) (conf : Output) : List Event :=
  [.head manager.id head.id, .name head.id conf.name,
    -- Format matches what Output::new() does internally.
    .description head.id (conf.make ++ " - " ++ conf.model ++ " - " ++ conf.name)] ++
  physicalSizeEvents head.id conf ++
  newModesEvents head.id conf.currentMode 0 modes conf.modes ++ headStateEvents head conf

/-- Create the head of an output and its modes, for the given entry of a client. -/
def sendNewHead (c : Client) (d : ClientData) (output : ℕ) (conf : Output) : Client × ClientData :=
  let head : Head := ⟨c.nextObject, d.manager.version⟩
  let modes := List.range' (c.nextObject + 1) conf.modes.length
  let c := { c with
    heads := c.heads.insert head.id output
    nextObject := c.nextObject + 1 + conf.modes.length }
  (c.send (newHeadEvents d.manager head modes conf),
    { d with heads := d.heads.insert output (head, modes) })

namespace Client

def notifyNewHead (c : Client) (output : ℕ) (conf : Output) : Client :=
  match c.data with
  | none => c
  | some d =>
    let (c, d) := sendNewHead c d output conf
    { c with data := some d }

def notifyRemovedHead (c : Client) (output : ℕ) : Client :=
  match c.head output with
  | none => c
  | some (head, modes) =>
    send
      { c with data := c.data.map fun d => { d with heads := d.heads.remove output } }
      (modes.map .modeFinished ++ [.headFinished head.id])

/-! A change of an output. -/

def notifyVrr (c : Client) (output : ℕ) (conf : Output) : Client :=
  match c.head output with
  | none => c
  | some (head, _) => c.send (vrrEvents head conf)

/-- The events that make existing modes the first ones of a list. -/
def reusedModesEvents (modes : List ℕ) (newModes : List Mode) : List Event :=
  (modes.zip newModes).flatMap fun (id, mode) =>
    .size id mode.width mode.height :: refreshEvents id mode

def addedModesEvents (head : ℕ) (ids : List ℕ) (modes : List Mode) : List Event :=
  (ids.zip modes).flatMap fun (id, mode) =>
    [.mode head id, .size id mode.width mode.height] ++ refreshEvents id mode

def notifyModes (c : Client) (output : ℕ) (conf : Output) : Client :=
  match c.head output with
  | none => c
  | some (head, modes) =>
    let leastModesLen := min modes.length conf.modes.length
    let reused := reusedModesEvents modes conf.modes
    if leastModesLen < conf.modes.length then
      -- One or more modes were added.
      let added := conf.modes.drop leastModesLen
      let ids := List.range' c.nextObject added.length
      setModes
        (send { c with nextObject := c.nextObject + added.length }
          (reused ++ addedModesEvents head.id ids added))
        output head (modes ++ ids)
    else if leastModesLen < modes.length then
      -- One or more modes were removed.
      (c.send (reused ++ (modes.drop leastModesLen).map .modeFinished)).setModes output head
        (modes.take leastModesLen)
    else c.send reused

/-- The mode at an index becomes the current one; an index that the client does not have is an
internal error. -/
def currentModeEvents (head : Head) (modes : List ℕ) (index : ℕ) : List Event :=
  modes[index]?.toList.map (.currentMode head.id)

def notifyCurrentMode (c : Client) (output : ℕ) (old conf : Output) : Client :=
  match c.head output with
  | none => c
  | some (head, modes) =>
    match old.currentMode, conf.currentMode with
    | some oldIndex, some newIndex =>
      if old.modes.length = conf.modes.length ∧ (old.modes ≠ conf.modes ∨ oldIndex ≠ newIndex) then
        c.send (currentModeEvents head modes newIndex)
      else c
    | some _, none => c.send [.enabled head.id false]
    | none, some newIndex =>
      if old.modes.length = conf.modes.length then
        c.send (.enabled head.id true :: currentModeEvents head modes newIndex)
      else c
    | none, none => c

/-- The events that bring a position, a scale and a transform up to date. -/
def movedEvents (head : ℕ) (oldLogical newLogical : LogicalOutput) : List Event :=
  (if oldLogical.x ≠ newLogical.x ∨ oldLogical.y ≠ newLogical.y then
    [.position head newLogical.x newLogical.y] else []) ++
  (if oldLogical.scale ≠ newLogical.scale then [.scale head newLogical.scale] else []) ++
  (if oldLogical.transform ≠ newLogical.transform then [.transform head newLogical.transform] else [])

def notifyLogical (c : Client) (output : ℕ) (old conf : Output) : Client :=
  match c.head output with
  | none => c
  | some (head, _) =>
    match old.logical, conf.logical with
    | some oldLogical, some newLogical => c.send (movedEvents head.id oldLogical newLogical)
    -- The head is enabled in the mode diff check.
    | none, some newLogical => c.send (logicalEvents head.id newLogical)
    -- Heads are disabled in the mode diff check.
    | some _, none | none, none => c

def notifyOutput (c : Client) (output : ℕ) (old conf : Output) : Client :=
  let c := if old.vrrEnabled ≠ conf.vrrEnabled then c.notifyVrr output conf else c
  let c := if old.modes ≠ conf.modes then c.notifyModes output conf else c
  (c.notifyCurrentMode output old conf).notifyLogical output old conf

/-- The part of `notify_changes` about an output of the new state. -/
def notifyEntry (currentState : HashMap ℕ Output) (c : Client) (output : ℕ) (conf : Output) :
    Client :=
  match currentState.get output with
  | some old => c.notifyOutput output old conf
  | none => c.notifyNewHead output conf

/-- The part of `notify_changes` about an output of the old state. -/
def notifyGone (newState : HashMap ℕ Output) (c : Client) (output : ℕ) : Client :=
  if (newState.get output).isNone then c.notifyRemovedHead output else c

/-- Tell a client that the changes are complete; its configurations are outdated. -/
def notifyDone (ord : IterOrder) (c : Client) (serial : ℕ) : Client :=
  match c.data with
  | none => c
  | some d => c.send (.done d.manager.id serial :: (ord.iter d.confs).map fun e => .cancelled e.1)

end Client

/-- Whether `notify_changes` finds a difference between the old and the new state of an output. -/
def outputChanged (old conf : Output) : Bool :=
  old.vrrEnabled != conf.vrrEnabled || old.modes != conf.modes ||
  (match old.currentMode, conf.currentMode with
    | some oldIndex, some newIndex =>
      old.modes.length == conf.modes.length && (old.modes != conf.modes || oldIndex != newIndex)
    | some _, none => true
    | none, some _ => old.modes.length == conf.modes.length
    | none, none => false) ||
  (match old.logical, conf.logical with
    | some oldLogical, some newLogical => oldLogical != newLogical
    | none, some _ => true
    | _, none => false)

def stateChanged (ord : IterOrder) (currentState newState : HashMap ℕ Output) : Bool :=
  ((ord.iter newState).any fun e => (currentState.get e.1).all (outputChanged · e.2)) ||
  ((ord.iter currentState).any fun e => (newState.get e.1).isNone)

/-! The requests. -/

inductive ConfigurationRequest where
  | enableHead (head : ℕ)
  | disableHead (head : ℕ)
  | apply
  | test
  | destroy
  deriving DecidableEq, Repr

/-- An empty option is a value that the protocol does not know. -/
inductive ConfigurationHeadRequest where
  | setMode (mode : ℕ)
  | setCustomMode (width height refresh : ℤ)
  | setPosition (x y : ℤ)
  | setTransform (transform : Option Transform)
  | setScale (scale : ℚ)
  | setAdaptiveSync (state : Option Bool)
  deriving DecidableEq, Repr

inductive Action where
  | notifyChanges (newState : HashMap ℕ Output)
  | configChanged (config : List OutputConfig)
  | bind (client version : ℕ)
  | createConfiguration (client manager serial : ℕ)
  | stop (client manager : ℕ)
  | managerDestroyed (client manager : ℕ)
  | headDestroyed (client head : ℕ)
  | configuration (client conf : ℕ) (request : ConfigurationRequest)
  | configurationHead (client confHead : ℕ) (request : ConfigurationHeadRequest)
  | disconnected (client : ℕ)

/-- The entry that a head of a configuration starts from. -/
def configFor (currentConfig : List OutputConfig) (output : Output) (off : Bool) : OutputConfig :=
  let name := output.outputName
  let config := (find currentConfig name).getD
    { OutputConfig.default with name := name.formatMakeModelSerialOrConnector }
  { config with off := off }

@[simp] theorem configFor_off {currentConfig : List OutputConfig} {output : Output} {off : Bool} :
    (configFor currentConfig output off).off = off := rfl

/-- Set a mode; a modeline would take precedence over it. -/
def OutputConfig.setMode (config : OutputConfig) (custom : Bool) (width height refreshRate : ℕ) :
    OutputConfig :=
  { config with
    mode := some ⟨custom, width, height, some (refreshRate / 1000)⟩
    modeline := none }

/-- The outcome of a request for a property of a head: a new entry, or the old one if the request is
ignored, or an error. -/
def setProperty (modes : Option (List ℕ)) (output : Option Output) (config : OutputConfig) :
    ConfigurationHeadRequest → Except (ErrorCode × String) OutputConfig
  | .setMode mode =>
    match modes.bind (·.findIdx? (· == mode)) with
    | none => .error (.invalidMode, "failed to find requested mode")
    | some index =>
      match output.bind (·.modes[index]?) with
      | none => .ok config
      | some mode => .ok (config.setMode false mode.width mode.height mode.refreshRate)
  | .setCustomMode width height refresh =>
    if 0 ≤ width ∧ width < 2 ^ 16 ∧ 0 ≤ height ∧ height < 2 ^ 16 ∧ 0 < refresh then
      .ok (config.setMode true width.toNat height.toNat refresh.toNat)
    else .ok config
  | .setPosition x y => .ok { config with position := some ⟨x, y⟩ }
  | .setTransform none => .error (.invalidTransform, "unknown transform value")
  | .setTransform (some transform) => .ok { config with transform := transform }
  | .setScale scale =>
    if scale ≤ 0 then .error (.invalidScale, "scale is negative or zero")
    else .ok { config with scale := some scale }
  | .setAdaptiveSync none => .error (.invalidAdaptiveSyncState, "unknown adaptive sync value")
  | .setAdaptiveSync (some enabled) =>
    .ok { config with variableRefreshRate := if enabled then some ⟨false⟩ else none }

namespace Client

/-- The state of a configuration object, if its client is known. -/
def conf (c : Client) (conf : ℕ) : Option OutputConfigurationState :=
  c.data.bind (·.confs.get conf)

def setConf (c : Client) (conf : ℕ) (state : OutputConfigurationState) : Client :=
  { c with data := c.data.map fun d => { d with confs := d.confs.insert conf state } }

/-- Create the configuration head object that an `enable_head` request asks for. -/
def initConfHead (c : Client) (state : OutputConfigurationHeadState) : Client :=
  { c with
    confHeads := c.confHeads.insert c.nextObject state
    nextObject := c.nextObject + 1 }

end Client

/-- The outcome of a request that adds an output to a configuration. -/
inductive HeadOutcome where
  | ignored
  | error (code : ErrorCode) (message : String)
  | added (config : HashMap ℕ OutputConfig)

namespace OutputManagementManagerState

variable (st : OutputManagementManagerState)

def setClient (client : ℕ) (c : Client) :
    OutputManagementManagerState :=
  { st with clients := Function.update st.clients client c }

/-- The loops over the clients of `notify_changes`; outputs come in the order of the maps. -/
def notifyClient (ord : IterOrder) (st : OutputManagementManagerState) (newState : HashMap ℕ Output)
    (c : Client) : Client :=
  let c := (ord.iter newState).foldl (fun c e => c.notifyEntry st.currentState e.1 e.2) c
  (ord.iter st.currentState).foldl (fun c e => c.notifyGone newState e.1) c

/-- The serial is a `u32`; builds check it for overflow. -/
def notifyChanges (ord : IterOrder) (st : OutputManagementManagerState)
    (newState : HashMap ℕ Output) : Option OutputManagementManagerState :=
  let clients := fun client => st.notifyClient ord newState (st.clients client)
  if stateChanged ord st.currentState newState then
    if st.serial + 1 < 2 ^ 32 then
      some { st with
        clients := fun client => (clients client).notifyDone ord (st.serial + 1)
        currentState := newState
        serial := st.serial + 1 }
    else none
  else some { st with clients := clients }

def bind (ord : IterOrder) (st : OutputManagementManagerState) (client version : ℕ) :
    Option OutputManagementManagerState :=
  let c := st.clients client
  if c.connected then
    let manager : Manager := ⟨c.nextObject, version⟩
    let c := { c with
      managers := c.managers.insert manager.id false
      nextObject := c.nextObject + 1 }
    let (c, d) := (ord.iter st.currentState).foldl
      (fun (c, d) e => sendNewHead c d e.1 e.2) (c, ClientData.mk ∅ ∅ manager)
    some (st.setClient client
      ({ c with data := some d }.send [.done manager.id st.serial]))
  else none

def createConfiguration (client manager serial : ℕ) :
    Option OutputManagementManagerState := do
  let c := st.clients client
  let _ ← c.managers.get manager
  let conf := c.nextObject
  let c := { c with
    confs := c.confs.insert conf serial
    nextObject := c.nextObject + 1 }
  return st.setClient client <|
    match c.data with
    | none => c
    | some _ =>
      let c := if serial ≠ st.serial then c.send [.cancelled conf] else c
      c.setConf conf (.ongoing ∅)

def stop (client manager : ℕ) :
    Option OutputManagementManagerState := do
  let c := st.clients client
  let _ ← c.managers.get manager
  let c := { c with managers := c.managers.insert manager true }
  return st.setClient client <|
    match c.data with
    | none => c
    | some d => { c with data := none }.send [.managerFinished d.manager.id]

def managerDestroyed (client manager : ℕ) :
    Option OutputManagementManagerState := do
  let c := st.clients client
  let _ ← c.managers.get manager
  return st.setClient client { c with
    managers := c.managers.remove manager
    data := none }

def headDestroyed (client head : ℕ) :
    Option OutputManagementManagerState := do
  let c := st.clients client
  let output ← c.heads.get head
  return st.setClient client { c with
    heads := c.heads.remove head
    data := c.data.map fun d => { d with heads := d.heads.remove output } }

/-- What becomes of a request that adds an output to a configuration. -/
def configureHead (c : Client) (conf : ℕ) (outdated : Bool)
    (output : ℕ) (off : Bool) : HeadOutcome :=
  if outdated then .ignored
  else
    match c.conf conf with
    | none => .ignored
    | some .finished => .error .alreadyUsed "configuration had already been used"
    | some (.ongoing config) =>
      match st.currentState.get output with
      | none => .ignored
      | some current =>
        match config.get output with
        | some _ => .error .alreadyConfiguredHead "head has been already configured"
        | none => .added (config.insert output (configFor st.currentConfig current off))

def enableHead (c : Client) (conf output : ℕ) : HeadOutcome → Client
  | .ignored => c.initConfHead .cancelled
  | .error code message => (c.initConfHead .cancelled).postError conf code message
  | .added config => (c.setConf conf (.ongoing config)).initConfHead (.ok output conf)

def disableHead (c : Client) (conf : ℕ) : HeadOutcome → Client
  | .ignored => c
  | .error code message => c.postError conf code message
  | .added config => c.setConf conf (.ongoing config)

/-- `apply` and `test` finish a configuration alike; the result is the config to apply. -/
def finishConfiguration (ord : IterOrder) (c : Client) (conf : ℕ) (outdated : Bool) :
    Client × Option (List OutputConfig) :=
  if outdated then (c.send [.cancelled conf], none)
  else
    match c.conf conf with
    | none => (c, none)
    | some .finished => (c.postError conf .alreadyUsed "configuration had already been used", none)
    | some (.ongoing config) =>
      let c := c.setConf conf .finished
      let config := (ord.iter config).map Sigma.snd
      if config.any (!·.off) then (c, some config) else (c.send [.failed conf], none)

def configuration (ord : IterOrder) (st : OutputManagementManagerState) (client conf : ℕ)
    (request : ConfigurationRequest) : Option OutputManagementManagerState := do
  let c := st.clients client
  let serial ← c.confs.get conf
  let outdated := serial != st.serial
  match request with
  | .enableHead head =>
    let output ← c.heads.get head
    return st.setClient client
      (enableHead c conf output (st.configureHead c conf outdated output false))
  | .disableHead head =>
    let output ← c.heads.get head
    return st.setClient client (disableHead c conf (st.configureHead c conf outdated output true))
  | .apply =>
    match finishConfiguration ord c conf outdated with
    | (c, none) => return st.setClient client c
    | (c, some config) =>
      -- `apply_output_config` replaces the configured outputs, and reloading them sets
      -- `current_config` to the new list.
      return { st with currentConfig := config }.setClient client
        ((c.applied conf config).send [.succeeded conf])
  | .test =>
    match finishConfiguration ord c conf outdated with
    | (c, none) => return st.setClient client c
    | (c, some _) => return st.setClient client (c.send [.succeeded conf])
  | .destroy =>
    return st.setClient client { c with
      confs := c.confs.remove conf
      data := c.data.map fun d => { d with confs := d.confs.remove conf } }

/-- Change the entry of an output in a configuration. -/
def configureProperty (c : Client) (confHead output conf : ℕ)
    (request : ConfigurationHeadRequest) : Client :=
  -- The serial is that of the object, whether it is still alive or not; one that is not is not in
  -- the map either.
  if (c.confs.get conf).any (· = st.serial) then
    match c.conf conf with
    | none => c
    | some .finished => c.postError conf .alreadyUsed "configuration had already been used"
    | some (.ongoing config) =>
      match config.get output with
      | none => c
      | some entry =>
        match setProperty ((c.head output).map Prod.snd) (st.currentState.get output) entry request with
        | .error (code, message) => c.postError confHead code message
        | .ok entry => c.setConf conf (.ongoing (config.insert output entry))
  else c

def configurationHead (client confHead : ℕ)
    (request : ConfigurationHeadRequest) : Option OutputManagementManagerState := do
  let c := st.clients client
  match ← c.confHeads.get confHead with
  | .cancelled => some st
  | .ok output conf => return st.setClient client (st.configureProperty c confHead output conf request)

def disconnected (client : ℕ) :
    Option OutputManagementManagerState :=
  if (st.clients client).connected then some (st.setClient client (st.clients client).disconnect)
  else none

/-- One event of the compositor, with the order that the maps are iterated in; `none` if it cannot
happen, or is a panic. -/
def step :
    IterOrder × Action → Option OutputManagementManagerState
  | (ord, .notifyChanges newState) => st.notifyChanges ord newState
  | (_, .configChanged config) => some { st with currentConfig := config }
  | (ord, .bind client version) => st.bind ord client version
  | (_, .createConfiguration client manager serial) => st.createConfiguration client manager serial
  | (_, .stop client manager) => st.stop client manager
  | (_, .managerDestroyed client manager) => st.managerDestroyed client manager
  | (_, .headDestroyed client head) => st.headDestroyed client head
  | (ord, .configuration client conf request) => st.configuration ord client conf request
  | (_, .configurationHead client confHead request) => st.configurationHead client confHead request
  | (_, .disconnected client) => st.disconnected client

end OutputManagementManagerState

end Macniri.OutputManagement
