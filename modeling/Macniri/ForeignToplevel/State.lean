import Macniri.Lib.HashMap
import Macniri.Lib.Run

/-! The wlr-foreign-toplevel protocol: windows as they are shown to the managers. -/
namespace Macniri.ForeignToplevel

/-- `zwlr_foreign_toplevel_handle_v1::State`. -/
inductive ToplevelState
  | maximized
  | activated
  | fullscreen
  deriving DecidableEq, Repr

/-- A mapped window: its surface, the attributes of its role, its current states and its output. -/
structure Window where
  surface : ℕ
  title : Option String
  appId : Option String
  maximized : Bool
  fullscreen : Bool
  output : Option ℕ

/-- What a refresh looks at: the windows of the layout, and the surface with the keyboard focus. -/
structure Snapshot where
  windows : List Window
  keyboardFocus : Option ℕ
  nodup : (windows.map Window.surface).Nodup

structure Manager where
  id : ℕ
  client : ℕ
  deriving DecidableEq, Repr

/-- An object of a manager. -/
structure Handle where
  manager : Manager
  object : ℕ
  deriving DecidableEq, Repr

structure WlOutput where
  id : ℕ
  client : ℕ
  output : ℕ

/-- What is sent; the objects are numbers, and none of them is used twice. -/
inductive Event
  | toplevel (handle : ℕ)
  | title (handle : ℕ) (title : String)
  | appId (handle : ℕ) (appId : String)
  | state (handle : ℕ) (states : List ToplevelState)
  | outputEnter (handle output : ℕ)
  | outputLeave (handle output : ℕ)
  | done (handle : ℕ)
  | closed (handle : ℕ)
  | finished
  deriving DecidableEq, Repr

structure ToplevelData where
  title : Option String
  appId : Option String
  states : List ToplevelState
  output : Option ℕ
  /-- The `wl_output`s that each of the handles has entered. -/
  instances : HashMap Handle (List ℕ)

structure State where
  instances : List Manager
  toplevels : HashMap ℕ ToplevelData
  /-- The `wl_output`s that are bound. -/
  wlOutputs : List WlOutput
  /-- The next object. -/
  next : ℕ
  /-- The events that were sent, with the manager that each was sent to. -/
  sent : List (ℕ × Event)

def toStateVec (maximized fullscreen hasFocus : Bool) : List ToplevelState :=
  (if maximized then [.maximized] else []) ++ (if fullscreen then [.fullscreen] else []) ++
    -- Clients treat the activated state as keyboard focus.
    if hasFocus then [.activated] else []

def clientOutputs (wlOutputs : List WlOutput) (output : Option ℕ) (client : ℕ) : List ℕ :=
  (wlOutputs.filter fun wl => some wl.output = output ∧ wl.client = client).map WlOutput.id

/-- Send events about the handles of a toplevel, in whatever order they come. -/
def sendEach (ord : IterOrder) (instances : HashMap Handle (List ℕ))
    (events : Handle → List ℕ → List Event) : List (ℕ × Event) :=
  (ord.iter instances).flatMap fun e => (events e.1 e.2).map (e.1.manager.id, ·)

/-- What is sent about a new handle, by `add_instance`. -/
def ToplevelData.announce (data : ToplevelData) (handle : ℕ) (outputs : List ℕ) : List Event :=
  .toplevel handle :: data.title.toList.map (.title handle) ++ data.appId.toList.map (.appId handle) ++
    .state handle data.states :: outputs.map (.outputEnter handle) ++ [.done handle]

/-- What changed about a toplevel. -/
structure Changes where
  newTitle : Option String
  newAppId : Option String
  statesChanged : Bool
  outputChanged : Bool

namespace Changes

def of (data new : ToplevelData) : Changes where
  newTitle := if data.title ≠ new.title then new.title else none
  newAppId := if data.appId ≠ new.appId then new.appId else none
  statesChanged := decide (data.states ≠ new.states)
  outputChanged := decide (data.output ≠ new.output)

def somethingChanged (changes : Changes) : Bool :=
  changes.newTitle.isSome || changes.newAppId.isSome || changes.statesChanged || changes.outputChanged

/-- The events about what changed. -/
def events (changes : Changes) (states : List ToplevelState) (handle : ℕ) (left entered : List ℕ) :
    List Event :=
  changes.newTitle.toList.map (.title handle) ++ changes.newAppId.toList.map (.appId handle) ++
    (if changes.statesChanged then [.state handle states] else []) ++
    (if changes.outputChanged then
      left.map (.outputLeave handle) ++ entered.map (.outputEnter handle) else []) ++ [.done handle]

end Changes

namespace State

def send (s : State) (events : List (ℕ × Event)) : State := { s with sent := s.sent ++ events }

/-- The `wl_output`s of the client of a handle that stand for the output. -/
def entered (s : State) (output : Option ℕ) (handle : Handle) : List ℕ :=
  clientOutputs s.wlOutputs output handle.manager.client

def isAlive (s : State) (wlOutput : ℕ) : Bool := s.wlOutputs.any fun wl => wl.id = wlOutput

def addInstance (r : State × ToplevelData) (manager : Manager) : State × ToplevelData :=
  let handle : Handle := ⟨manager, r.1.next⟩
  let outputs := r.1.entered r.2.output handle
  ({ r.1 with next := r.1.next + 1 }.send
      ((r.2.announce handle.object outputs).map (manager.id, ·)),
    { r.2 with instances := r.2.instances.insert handle outputs })

/-- The data of a window that has no handles yet. -/
def newData (window : Window) (hasFocus : Bool) : ToplevelData :=
  ⟨window.title, window.appId, toStateVec window.maximized window.fullscreen hasFocus,
    window.output, ∅⟩

/-- Existing window, check if anything changed. -/
def refreshExisting (ord : IterOrder) (s : State) (surface : ℕ) (data new : ToplevelData) : State :=
  let changes := Changes.of data new
  let events := if changes.somethingChanged then
      sendEach ord data.instances fun handle outputs =>
        changes.events new.states handle.object outputs (s.entered new.output handle)
    else []
  let instances := data.instances.mapEntries fun handle outputs =>
    (if changes.outputChanged then s.entered new.output handle else outputs).filter s.isAlive
  { s with toplevels := s.toplevels.insert surface { new with instances } }.send events

def refreshToplevel (ord : IterOrder) (hasFocus : Bool) (s : State) (window : Window) : State :=
  match s.toplevels.get window.surface with
  | some data => s.refreshExisting ord window.surface data (newData window hasFocus)
  | none =>
    -- New window, start tracking it.
    let r := s.instances.foldl addInstance (s, newData window hasFocus)
    { r.1 with toplevels := r.1.toplevels.insert window.surface r.2 }

def closeToplevel (ord : IterOrder) (s : State) (surface : ℕ) : State :=
  match s.toplevels.get surface with
  | some data =>
    { s with toplevels := s.toplevels.remove surface }.send
      (sendEach ord data.instances fun handle _ => [.closed handle.object])
  | none => s

def refresh (ord : IterOrder) (s : State) (snapshot : Snapshot) : State :=
  -- Handle closed windows.
  let gone := ((ord.iter s.toplevels).map Sigma.fst).filter (· ∉ snapshot.windows.map Window.surface)
  let s := gone.foldl (closeToplevel ord) s
  -- Save the focused window for last, so that the previous window is deactivated first.
  let isFocused (window : Window) : Bool := snapshot.keyboardFocus = some window.surface
  let s := (snapshot.windows.filter (!isFocused ·)).foldl (refreshToplevel ord false) s
  (snapshot.windows.filter isFocused).getLast?.elim s (s.refreshToplevel ord true)

/-- Send an existing toplevel to a new manager. -/
def bindToplevel (manager : Manager) (s : State) (surface : ℕ) : State :=
  match s.toplevels.get surface with
  | some data =>
    let r := addInstance (s, data) manager
    { r.1 with toplevels := r.1.toplevels.insert surface r.2 }
  | none => s

def bind (ord : IterOrder) (s : State) (client : ℕ) : State :=
  let manager : Manager := ⟨s.next, client⟩
  let surfaces := (ord.iter s.toplevels).map Sigma.fst
  let s := surfaces.foldl (bindToplevel manager) { s with next := s.next + 1 }
  { s with instances := s.instances ++ [manager] }

def stop (s : State) (manager : Manager) : State :=
  { s.send [(manager.id, .finished)] with instances := s.instances.filter (· ≠ manager) }

/-- The handles of the client enter the new `wl_output` if the toplevel is on its output. -/
def outputBoundToplevel (ord : IterOrder) (wl : WlOutput) (s : State) (surface : ℕ) : State :=
  match s.toplevels.get surface with
  | some data =>
    if data.output = some wl.output then
      let instances := data.instances.mapEntries fun handle outputs =>
        if handle.manager.client = wl.client then outputs ++ [wl.id] else outputs
      { s with toplevels := s.toplevels.insert surface { data with instances } }.send
        (sendEach ord data.instances fun handle _ =>
          if handle.manager.client = wl.client then
            [.outputEnter handle.object wl.id, .done handle.object]
          else [])
    else s
  | none => s

def onOutputBound (ord : IterOrder) (s : State) (wl : WlOutput) : State :=
  ((ord.iter s.toplevels).map Sigma.fst).foldl (outputBoundToplevel ord wl) s

def bindOutput (ord : IterOrder) (s : State) (client output : ℕ) : State :=
  let wl : WlOutput := ⟨s.next, client, output⟩
  { s with wlOutputs := s.wlOutputs ++ [wl], next := s.next + 1 }.onOutputBound ord wl

end State

/-- A refresh, managers that come and go, and `wl_output`s that are bound. -/
inductive Step
  | refresh (ord : IterOrder) (snapshot : Snapshot)
  | bind (ord : IterOrder) (client : ℕ)
  | stop (manager : Manager)
  | bindOutput (ord : IterOrder) (client output : ℕ)

namespace State

def init : State := ⟨[], ∅, [], 0, []⟩

def step (s : State) : Step → Option State
  | .refresh ord snapshot => some (s.refresh ord snapshot)
  | .bind ord client => some (s.bind ord client)
  | .stop manager => if manager ∈ s.instances then some (s.stop manager) else none
  | .bindOutput ord client output => some (s.bindOutput ord client output)

end State

end Macniri.ForeignToplevel
