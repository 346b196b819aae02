import Macniri.Layout.Monitor
import Macniri.Lib.HashMap

/-! The layout: the connected monitors or, without any, the workspaces alone. -/
namespace Macniri

namespace Layout

inductive MonitorSet where
  | normal (monitors : List Monitor) (primaryIdx activeMonitorIdx : ℕ)
  | noOutputs (workspaces : List Workspace)
  deriving DecidableEq

/-- A window that is being moved is not in the layout. -/
structure InteractiveMoveData where
  tile : Tile
  output : Output
  width : ColumnWidth
  isFullWidth : Bool
  isFloating : Bool
  outputConfig : Option LayoutPart
  workspaceConfig : Option (ℕ × LayoutPart)
  deriving DecidableEq

inductive InteractiveMoveState where
  | starting (windowId : ℕ) (pointerDelta : Point)
  | moving (data : InteractiveMoveData)
  deriving DecidableEq

def InteractiveMoveState.moving? : InteractiveMoveState → Option InteractiveMoveData
  | starting _ _ => none
  | moving data => some data

def InteractiveMoveState.updateOutput (output : Output) : InteractiveMoveState → InteractiveMoveState
  | starting window delta => starting window delta
  | moving data => moving (if data.output.same output then { data with output := output } else data)

inductive DndHoldTarget where
  | window (id : ℕ)
  | workspace (id : ℕ)
  deriving DecidableEq, Repr

structure DndHold where
  startTime : ℚ
  target : DndHoldTarget
  deriving DecidableEq, Repr

structure DndData where
  output : Output
  hold : Option DndHold
  deriving DecidableEq, Repr

structure OverviewGesture where
  tracker : SwipeTracker
  start : ℚ
  value : ℚ
  deriving DecidableEq, Repr

inductive OverviewProgress where
  | animation (anim : Animation)
  | gesture (gesture : OverviewGesture)
  deriving DecidableEq, Repr

def OverviewProgress.value : OverviewProgress → ℚ
  | animation anim => anim.value
  | gesture g => g.value

inductive AddWindowTarget where
  | auto
  | output (output : Output)
  | workspace (id : ℕ)
  | nextTo (window : ℕ)
  deriving DecidableEq, Repr

inductive WorkspaceReference where
  | id (id : ℕ)
  | index (index : ℕ)
  | name (name : String)
  deriving DecidableEq, Repr

end Layout

open Layout in
/-- `nextId` is the counter that new workspace ids come from. -/
structure Layout where
  monitorSet : MonitorSet
  lastActiveWorkspaceId : HashMap String ℕ
  interactiveMove : Option InteractiveMoveState
  dnd : Option DndData
  clock : ℚ
  overviewOpen : Bool
  overviewProgress : Option OverviewProgress
  options : Options
  nextId : ℕ

namespace Layout

namespace Monitor

/-- Apply an operation to every workspace. -/
def forWorkspaces (m : Monitor) (f : Workspace → Option Workspace) : Option Monitor :=
  (m.workspaces.mapM f).map fun workspaces => { m with workspaces := workspaces }

/-- Apply an operation to the first workspace of a kind. -/
def onFirst (m : Monitor) (p : Workspace → Bool) (f : Workspace → Option Workspace) :
    Option Monitor := do
  let idx ← m.workspaces.findIdx? p
  m.onWorkspace idx f

def cleanUpIf (m : Monitor) (condition : Bool) : Option Monitor :=
  if condition then m.cleanUpWorkspaces else some m

/-! The workspaces of an output that is added. -/

/-- Take a workspace out for the output it belongs to. -/
def removeForOutput (m : Monitor) (idx : ℕ) : Monitor :=
  { m with
    workspaces := m.workspaces.eraseIdx idx
    workspaceSwitch := none
    -- Fall back to the workspace above, but not to the empty one above the first.
    activeWorkspaceIdx :=
      if idx ≤ m.activeWorkspaceIdx ∧ ¬(m.emptyAboveFirst ∧ m.activeWorkspaceIdx = 1)
      then m.activeWorkspaceIdx - 1 else m.activeWorkspaceIdx }

/-- Take out the workspaces of an output, from the given index up to the first one. Empty ones are
dropped, since the new monitor gets an empty one of its own. -/
def takeForOutput (m : Monitor) (output : Output) : ℕ → Monitor × List Workspace
  | 0 => (m, [])
  | idx + 1 =>
    let found := m.workspaces[idx]?.filter (·.originalOutput.matches output)
    if found.isSome then
      let (rest, taken) := (m.removeForOutput idx).takeForOutput output idx
      (rest, taken ++ found.toList.filter (·.hasWindowsOrName))
    else m.takeForOutput output idx

/-- The primary monitor when another output is added, and the workspaces that go there. -/
def releaseFor (m : Monitor) (output : Output) : Option (Monitor × List Workspace) := do
  let (rest, taken) := m.takeForOutput output m.workspaces.length
  let stoppedSwitch := m.workspaceSwitch.isSome && rest.workspaceSwitch.isNone
  let rest ← rest.cleanUpIf (stoppedSwitch || (rest.emptyAboveFirst && rest.workspaces.length == 2))
  return (rest, taken)

end Monitor

variable (l : Layout)

def withOptions (clock : ℚ) (options : Options) : Layout where
  monitorSet := .noOutputs []
  lastActiveWorkspaceId := ∅
  interactiveMove := none
  dnd := none
  clock := clock
  overviewOpen := false
  overviewProgress := none
  options := options
  nextId := 1

/-- The workspaces of the config, with consecutive ids. -/
def configWorkspaces (clock : ℚ) (options : Options) : ℕ → List WorkspaceConfig → List Workspace
  | _, [] => []
  | id, config :: configs =>
    Workspace.newWithConfigNoOutputs id (some config) clock options ::
      configWorkspaces clock options (id + 1) configs

def new (clock : ℚ) (config : Config) : Layout :=
  { withOptions clock config.options with
    monitorSet := .noOutputs (configWorkspaces clock config.options 1 config.workspaces)
    nextId := 1 + config.workspaces.length }

/-! Looking things up. -/

def monitors : List Monitor :=
  match l.monitorSet with
  | .normal monitors _ _ => monitors
  | .noOutputs _ => []

def workspaces : List Workspace :=
  match l.monitorSet with
  | .normal monitors _ _ => monitors.flatMap (·.workspaces)
  | .noOutputs workspaces => workspaces

def activeMonitorIdx : Option ℕ :=
  match l.monitorSet with
  | .normal _ _ activeMonitorIdx => some activeMonitorIdx
  | .noOutputs _ => none

def activeMonitor : Option Monitor := l.activeMonitorIdx.bind (l.monitors[·]?)

def monitorIdxForOutput (output : Output) : Option ℕ :=
  l.monitors.findIdx? (·.output.same output)

def outputConfig (output : Output) : Option LayoutPart :=
  (l.monitors.find? (·.output.same output)).bind (·.layoutConfig)

def moving : Option InteractiveMoveData := l.interactiveMove.bind (·.moving?)

def movingTile : Option Tile := l.moving.map (·.tile)

/-- The windows of the layout, the one being moved included. -/
def windowIds : List ℕ :=
  (l.movingTile.map Tile.id).toList ++ l.workspaces.flatMap (·.windowIds)

def isMoving (window : ℕ) : Bool := l.movingTile.any (·.id == window)

/-- Whether a window argument, by default the focused window, refers to the one being moved. -/
def targetsMoving (window : Option ℕ) : Bool :=
  l.movingTile.any fun tile => window.all (tile.id == ·)

def overviewZoom : ℚ :=
  computeOverviewZoom l.options (l.overviewProgress.map (·.value))

def findWorkspaceByName (name : String) : Option Workspace :=
  l.workspaces.find? (·.isNamed name)

def findWorkspaceByRef : WorkspaceReference → Option Workspace
  | .index index => l.activeMonitor.bind (·.workspaces[index - 1]?)
  | .name name => l.workspaces.find? (·.isNamed name)
  | .id id => l.workspaces.find? (·.id == id)

def activeWorkspace : Option Workspace := l.activeMonitor.bind (·.activeWorkspace)

def workspaceByRefOrActive : Option WorkspaceReference → Option Workspace
  | some reference => l.findWorkspaceByRef reference
  | none => l.activeWorkspace

/-! Applying operations to parts of the layout. -/

/-- A monitor as an operation sees it, with the id counter. -/
def monitorAt (idx : ℕ) : Option Monitor :=
  (l.monitors[idx]?).map ({ · with nextId := l.nextId })

def setMonitor (idx : ℕ) (m : Monitor) : Layout :=
  match l.monitorSet with
  | .normal monitors primaryIdx activeMonitorIdx =>
    { l with
      monitorSet := .normal (monitors.set idx m) primaryIdx activeMonitorIdx
      nextId := m.nextId }
  | .noOutputs _ => l

def onMonitor (idx : ℕ) (f : Monitor → Option Monitor) : Option Layout := do
  let m ← l.monitorAt idx
  let m ← f m
  return l.setMonitor idx m

def onActiveMonitor (f : Monitor → Option Monitor) : Option Layout :=
  match l.activeMonitorIdx with
  | some idx => l.onMonitor idx f
  | none => some l

def onActiveWorkspace (f : Workspace → Option Workspace) : Option Layout :=
  l.onActiveMonitor fun m => m.onWorkspace m.activeWorkspaceIdx f

/-- Apply an operation to every monitor in turn; all take their ids from one counter. -/
def threadMonitors (f : Monitor → Option Monitor) : ℕ → List Monitor → Option (ℕ × List Monitor)
  | nextId, [] => some (nextId, [])
  | nextId, m :: ms => do
    let m ← f { m with nextId := nextId }
    let (nextId, ms) ← threadMonitors f m.nextId ms
    return (nextId, m :: ms)

def forMonitors (f : Monitor → Option Monitor) : Option Layout :=
  match l.monitorSet with
  | .normal monitors primaryIdx activeMonitorIdx => do
    let (nextId, monitors) ← threadMonitors f l.nextId monitors
    return { l with
      monitorSet := .normal monitors primaryIdx activeMonitorIdx
      nextId := nextId }
  | .noOutputs _ => some l

def forWorkspaces (f : Workspace → Option Workspace) : Option Layout :=
  match l.monitorSet with
  | .normal _ _ _ => l.forMonitors (·.forWorkspaces f)
  | .noOutputs workspaces =>
    (workspaces.mapM f).map fun workspaces => { l with monitorSet := .noOutputs workspaces }

def forWorkspacesIf (condition : Bool) (f : Workspace → Option Workspace) :
    Option Layout :=
  if condition then l.forWorkspaces f else some l

/-- Apply an operation to the first workspace of a kind; there has to be one. -/
def onFirstWorkspace (p : Workspace → Bool) (f : Workspace → Option Workspace) :
    Option Layout :=
  match l.monitorSet with
  | .normal monitors _ _ => do
    let idx ← monitors.findIdx? (·.workspaces.any p)
    l.onMonitor idx (·.onFirst p f)
  | .noOutputs workspaces => do
    let idx ← workspaces.findIdx? p
    let ws ← workspaces[idx]?
    let ws ← f ws
    return { l with monitorSet := .noOutputs (workspaces.set idx ws) }

/-- Apply an operation to the workspace of a window, the active one by default. The window has to
exist; one that is being moved is left alone. -/
def onWindow (window : Option ℕ) (f : Workspace → Option Workspace) : Option Layout :=
  if l.targetsMoving window then some l
  else
    match window with
    | some id => l.onFirstWorkspace (·.hasWindow id) f
    | none => l.onActiveWorkspace f

/-- Apply an operation to the workspace of a window, if it is on one. -/
def onWorkspaceOf (window : ℕ) (f : Workspace → Option Workspace) : Option Layout :=
  if l.workspaces.any (·.hasWindow window) then l.onFirstWorkspace (·.hasWindow window) f
  else some l

def activateMonitor (idx : ℕ) : Layout :=
  match l.monitorSet with
  | .normal monitors primaryIdx _ => { l with monitorSet := .normal monitors primaryIdx idx }
  | .noOutputs _ => l

def activateMonitorIf (activate : Bool) (idx : ℕ) : Layout :=
  if activate then l.activateMonitor idx else l

/-! Outputs. -/

def newMonitor (output : Output) (workspaces : List Workspace)
    (layoutConfig : Option LayoutPart) : Option Monitor := do
  let m ← Monitor.new output workspaces (l.lastActiveWorkspaceId.get output.name.connector) l.clock
    l.options layoutConfig l.nextId
  return Monitor.setOverviewProgress { m with overviewOpen := l.overviewOpen }
    (l.overviewProgress.map OverviewProgress.value)

def addOutput (output : Output) (layoutConfig : Option LayoutPart) : Option Layout :=
  match l.monitorSet with
  | .normal monitors primaryIdx activeMonitorIdx => do
    let primary ← monitors[primaryIdx]?
    let (primary, workspaces) ← primary.releaseFor output
    let monitor ← l.newMonitor output workspaces layoutConfig
    return { l with
      monitorSet :=
        .normal (monitors.set primaryIdx primary ++ [monitor]) primaryIdx activeMonitorIdx
      lastActiveWorkspaceId := l.lastActiveWorkspaceId.remove output.name.connector
      nextId := monitor.nextId }
  | .noOutputs workspaces => do
    let monitor ← l.newMonitor output workspaces layoutConfig
    return { l with
      monitorSet := .normal [monitor] 0 0
      lastActiveWorkspaceId := l.lastActiveWorkspaceId.remove output.name.connector
      nextId := monitor.nextId }

/-- An index into the monitors after the one at `idx` is removed: the same monitor, or some other
one if it is gone. -/
def idxAfterRemoval (i idx : ℕ) : ℕ := if idx ≤ i then i - 1 else i

def removeOutput (output : Output) : Option Layout :=
  match l.monitorSet with
  | .normal monitors primaryIdx activeMonitorIdx => do
    let idx ← monitors.findIdx? (·.output.same output)
    let monitor ← monitors[idx]?
    let active ← monitor.activeWorkspace
    let monitors := monitors.eraseIdx idx
    let l := { l with
      lastActiveWorkspaceId :=
        l.lastActiveWorkspaceId.insert monitor.output.name.connector active.id }
    if monitors.isEmpty then
      -- Reset base options to layout ones.
      return { l with
        monitorSet := .noOutputs (monitor.intoWorkspaces.map (·.updateConfig l.options)) }
    else
      let primaryIdx := idxAfterRemoval primaryIdx idx
      let activeMonitorIdx := idxAfterRemoval activeMonitorIdx idx
      let l := { l with monitorSet := .normal monitors primaryIdx activeMonitorIdx }
      l.onMonitor primaryIdx (·.appendWorkspaces monitor.intoWorkspaces)
  | .noOutputs _ => none

def focusOutput (output : Output) : Layout :=
  match l.monitorIdxForOutput output with
  | some idx => l.activateMonitor idx
  | none => l

/-- The output changed its scale, transform, size or working area. Outputs are shared handles, so a
window that is being moved on it sees the change too. -/
def updateOutputSize (output : Output) : Option Layout :=
  match l.monitorIdxForOutput output with
  | some idx =>
    onMonitor { l with interactiveMove := l.interactiveMove.map (.updateOutput output) } idx
      (some <| ·.updateOutputSize output)
  | none => some l

end Layout

end Macniri
