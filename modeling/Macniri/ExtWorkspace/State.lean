import Macniri.Lib.HashMap
import Macniri.Lib.Run

/-! The ext-workspace protocol: workspaces and groups as they are shown to the managers. -/
namespace Macniri.ExtWorkspace

/-- A monitor of the layout, of which the protocol uses the output and the active workspace. -/
structure Monitor where
  output : ℕ
  activeWorkspaceIdx : ℕ
  deriving DecidableEq, Repr

structure Workspace where
  id : ℕ
  name : Option String
  isUrgent : Bool
  deriving DecidableEq, Repr

/-- What a refresh looks at: `layout.workspaces()`, each with its monitor and index, and the connected
outputs. -/
structure Snapshot where
  workspaces : List (Option Monitor × ℕ × Workspace)
  sortedOutputs : List ℕ

/-- `ext_workspace_handle_v1::State`. -/
structure WorkspaceState where
  active : Bool
  urgent : Bool
  deriving DecidableEq, Repr

/-- Objects are numbers; none of them is used twice. -/
inductive Event where
  | workspaceGroup (group : ℕ)
  | groupCapabilities (group : ℕ)
  | workspaceEnter (group workspace : ℕ)
  | workspaceLeave (group workspace : ℕ)
  | groupRemoved (group : ℕ)
  | workspace (workspace : ℕ)
  | id (workspace : ℕ) (id : String)
  | name (workspace : ℕ) (name : String)
  | coordinates (workspace : ℕ) (coordinates : ℕ × ℕ)
  | state (workspace : ℕ) (state : WorkspaceState)
  | capabilities (workspace : ℕ)
  | removed (workspace : ℕ)
  | done
  | finished
  deriving DecidableEq, Repr

/-- An object of a manager. -/
structure Handle where
  manager : ℕ
  object : ℕ
  deriving DecidableEq, Repr

structure GroupData where
  instances : List Handle

structure WorkspaceData where
  id : Option String
  name : String
  coordinates : ℕ × ℕ
  state : WorkspaceState
  instances : List Handle
  output : Option ℕ

structure State where
  instances : List ℕ
  workspaceGroups : HashMap ℕ GroupData
  workspaces : HashMap ℕ WorkspaceData
  /-- The next object. -/
  next : ℕ
  /-- The events that were sent, with the manager that each was sent to. -/
  sent : List (ℕ × Event)

/-- `ws_idx as u32`. -/
def asU32 (wsIdx : ℕ) : ℕ := wsIdx % 2 ^ 32

def buildName (ws : Workspace) (wsIdx : ℕ) : String :=
  -- Add 1 since this is a human-readable name, and our action indexing is 1-based.
  ws.name.getD (toString (wsIdx + 1))

/-- Objects for each of the managers. -/
def newHandles (next : ℕ) : List ℕ → List Handle
  | [] => []
  | manager :: managers => ⟨manager, next⟩ :: newHandles (next + 1) managers

/-- What is sent about a new group, by `add_instance`. -/
def GroupData.announce (group : ℕ) : List Event := [.workspaceGroup group, .groupCapabilities group]

/-- What is sent about a new workspace handle, by `add_instance`. -/
def WorkspaceData.announce (data : WorkspaceData) (workspace : ℕ) : List Event :=
  .workspace workspace :: data.id.toList.map (.id workspace) ++
    [.name workspace data.name, .coordinates workspace data.coordinates,
      .state workspace data.state, .capabilities workspace]

/-- Send events about objects, each to the manager of the object. -/
def sendEach (handles : List Handle) (events : Handle → List Event) : List (ℕ × Event) :=
  handles.flatMap fun handle => (events handle).map (handle.manager, ·)

/-- The handles of a workspace that belong to the manager of a group. -/
def WorkspaceData.matching (data : WorkspaceData) (group : Handle) : List Handle :=
  data.instances.filter (·.manager = group.manager)

def sendWorkspaceEnterLeave (workspaceGroups : HashMap ℕ GroupData) (data : WorkspaceData)
    (enter : Bool) : List (ℕ × Event) :=
  match data.output.bind workspaceGroups.get with
  | some groupData => sendEach groupData.instances fun group =>
    (data.matching group).map fun workspace =>
      if enter then .workspaceEnter group.object workspace.object
      else .workspaceLeave group.object workspace.object
  | none => []

def removeWorkspaceInstances (workspaceGroups : HashMap ℕ GroupData) (data : WorkspaceData) :
    List (ℕ × Event) :=
  sendWorkspaceEnterLeave workspaceGroups data false ++
    sendEach data.instances fun workspace => [.removed workspace.object]

namespace State

def send (s : State) (events : List (ℕ × Event)) : State := { s with sent := s.sent ++ events }

/-- Create workspace handles for each manager instance. -/
def addInstances (s : State) (data : WorkspaceData) : State × WorkspaceData :=
  let handles := newHandles s.next s.instances
  ({ s with next := s.next + s.instances.length }.send
      (sendEach handles fun handle => data.announce handle.object),
    { data with instances := data.instances ++ handles })

/-- Remove a workspace that no longer exists. -/
def removeWorkspace (s : State) (id : ℕ) : State :=
  match s.workspaces.get id with
  | some data =>
    { s with workspaces := s.workspaces.remove id }.send
      (removeWorkspaceInstances s.workspaceGroups data)
  | none => s

/-- The events for the removal of a group: `workspace_leave` for all its workspaces with matching manager. -/
def removeGroupEvents (ord : IterOrder) (s : State) (output : ℕ) (group : Handle) : List Event :=
  ((ord.iter s.workspaces).filter (·.2.output = some output)).flatMap (fun ws =>
    (ws.2.matching group).map fun workspace => .workspaceLeave group.object workspace.object) ++
  [.groupRemoved group.object]

/-- Remove the group of an output that no longer exists. -/
def removeGroup (ord : IterOrder) (s : State) (output : ℕ) : State :=
  match s.workspaceGroups.get output with
  | some data =>
    { s with workspaceGroups := s.workspaceGroups.remove output }.send
      (sendEach data.instances (s.removeGroupEvents ord output))
  | none => s

/-- What changed about a workspace that exists. -/
structure Changes where
  idSet : Bool
  recreate : Bool
  coordinates : Bool
  state : Bool
  name : Bool
  output : Bool

/-- The new data of a workspace that exists, and what changed. -/
def update (data : WorkspaceData) (state : WorkspaceState) (output : Option ℕ) (wsIdx : ℕ)
    (ws : Workspace) : WorkspaceData × Changes :=
  let idChanged := decide (data.id ≠ ws.name)
  let recreate := idChanged && data.id.isSome
  let idSet := idChanged && data.id.isNone
  let coordinatesChanged := decide (data.coordinates.2 ≠ asU32 wsIdx)
  let stateChanged := decide (data.state ≠ state)
  -- Recreate means name got changed or unset (meaning that the name is back to the index).
  let check := recreate ||
    -- True means workspace got named, or that it is unnamed and its index changed.
    if ws.name.isSome then idSet else coordinatesChanged
  let nameChanged := check && decide (data.name ≠ buildName ws wsIdx)
  let outputChanged := decide (data.output ≠ output)
  ({ data with
      id := ws.name
      coordinates := (data.coordinates.1, asU32 wsIdx)
      state := state
      name := if nameChanged then buildName ws wsIdx else data.name
      output := output },
    ⟨idSet, recreate, coordinatesChanged, stateChanged, nameChanged, outputChanged⟩)

/-- The events about what changed. -/
def changeEvents (data : WorkspaceData) (changes : Changes) (workspace : ℕ) : List Event :=
  (if changes.idSet then data.id.toList.map (.id workspace) else []) ++
  (if changes.name then [.name workspace data.name] else []) ++
  (if changes.coordinates then [.coordinates workspace data.coordinates] else []) ++
  if changes.state then [.state workspace data.state] else []

/-- Existing workspace, check if anything changed. -/
def refreshExisting (s : State) (data : WorkspaceData) (state : WorkspaceState) (output : Option ℕ)
    (wsIdx : ℕ) (ws : Workspace) : State × Bool :=
  let (newData, changes) := update data state output wsIdx ws
  -- The leave event goes to the output before.
  let s := if changes.output then s.send (sendWorkspaceEnterLeave s.workspaceGroups data false) else s
  if changes.recreate then
    let s := s.send (removeWorkspaceInstances s.workspaceGroups newData)
    let (s, newData) := s.addInstances { newData with instances := [] }
    let s := s.send (sendWorkspaceEnterLeave s.workspaceGroups newData true)
    ({ s with workspaces := s.workspaces.insert ws.id newData }, true)
  else
    let s :=
      if changes.output then s.send (sendWorkspaceEnterLeave s.workspaceGroups newData true) else s
    let s := s.send (sendEach newData.instances fun handle => changeEvents newData changes handle.object)
    ({ s with workspaces := s.workspaces.insert ws.id newData },
      changes.output || changes.idSet || changes.name || changes.coordinates || changes.state)

/-- New workspace, start tracking it. -/
def refreshNew (s : State) (state : WorkspaceState) (output : Option ℕ) (wsIdx : ℕ)
    (ws : Workspace) : State :=
  let (s, data) := s.addInstances ⟨ws.name, buildName ws wsIdx, (0, asU32 wsIdx), state, [], output⟩
  let s := s.send (sendWorkspaceEnterLeave s.workspaceGroups data true)
  { s with workspaces := s.workspaces.insert ws.id data }

def workspaceState (mon : Option Monitor) (wsIdx : ℕ) (ws : Workspace) : WorkspaceState :=
  ⟨mon.any (·.activeWorkspaceIdx == wsIdx), ws.isUrgent⟩

def refreshWorkspace (s : State) (mon : Option Monitor) (wsIdx : ℕ) (ws : Workspace) : State × Bool :=
  let state := workspaceState mon wsIdx ws
  let output := mon.map (·.output)
  match s.workspaces.get ws.id with
  | some data => s.refreshExisting data state output wsIdx ws
  | none => (s.refreshNew state output wsIdx ws, true)

/-- `workspace_enter` for all existing workspaces on this output. -/
def enterEvents (ord : IterOrder) (s : State) (output : ℕ) (group : Handle) : List Event :=
  ((ord.iter s.workspaces).filter (·.2.output = some output)).flatMap fun ws =>
    (ws.2.matching group).map fun workspace => .workspaceEnter group.object workspace.object

def refreshWorkspaceGroup (ord : IterOrder) (s : State) (output : ℕ) : State × Bool :=
  if (s.workspaceGroups.get output).isSome then (s, false)
  else
    let handles := newHandles s.next s.instances
    let s := { s with next := s.next + s.instances.length }
    let s := s.send (sendEach handles fun handle => GroupData.announce handle.object)
    let s := s.send (sendEach handles (s.enterEvents ord output))
    ({ s with workspaceGroups := s.workspaceGroups.insert output ⟨handles⟩ }, true)

/-- Fold steps that return whether they changed something. -/
def each {α : Type} (f : State → α → State × Bool) (s : State) (xs : List α) : State × Bool :=
  xs.foldl (fun (s, changed) x =>
    let (s, changed') := f s x
    (s, changed || changed')) (s, false)

def refresh (ord : IterOrder) (s : State) (snapshot : Snapshot) : State :=
  -- Remove workspaces that no longer exist (sending workspace_leave to workspace groups).
  let seenWorkspaces := snapshot.workspaces.map (·.2.2.id)
  let gone := ((ord.iter s.workspaces).map Sigma.fst).filter (· ∉ seenWorkspaces)
  let (s, workspacesGone) := s.each (fun s id => (s.removeWorkspace id, true)) gone
  -- Remove workspace groups for outputs that no longer exist.
  let goneOutputs := ((ord.iter s.workspaceGroups).map Sigma.fst).filter (· ∉ snapshot.sortedOutputs)
  let (s, groupsGone) := s.each (fun s output => (s.removeGroup ord output, true)) goneOutputs
  -- Update existing workspaces and create new ones.
  let (s, workspacesChanged) :=
    s.each (fun s (mon, wsIdx, ws) => s.refreshWorkspace mon wsIdx ws) snapshot.workspaces
  -- Update workspace groups and create new ones, sending workspace_enter events as needed.
  let (s, groupsNew) := s.each (fun s output => s.refreshWorkspaceGroup ord output) snapshot.sortedOutputs
  if workspacesGone || groupsGone || workspacesChanged || groupsNew then
    s.send (s.instances.map (·, .done))
  else s

/-- Send an existing workspace to a new manager. -/
def bindWorkspace (manager : ℕ) (s : State) (id : ℕ) : State :=
  match s.workspaces.get id with
  | some data =>
    let handle : Handle := ⟨manager, s.next⟩
    let s := s.send (sendEach [handle] fun handle => data.announce handle.object)
    { s with
      next := s.next + 1
      workspaces := s.workspaces.insert id { data with instances := data.instances ++ [handle] } }
  | none => s

/-- Create the group of an output for a new manager. -/
def bindGroup (ord : IterOrder) (manager : ℕ) (s : State) (output : ℕ) : State :=
  match s.workspaceGroups.get output with
  | some data =>
    let handle : Handle := ⟨manager, s.next⟩
    let s := s.send (sendEach [handle] fun handle => GroupData.announce handle.object)
    let s := s.send (sendEach [handle] (s.enterEvents ord output))
    { s with
      next := s.next + 1
      workspaceGroups := s.workspaceGroups.insert output ⟨data.instances ++ [handle]⟩ }
  | none => s

def bind (ord : IterOrder) (s : State) (manager : ℕ) : State :=
  let s := ((ord.iter s.workspaces).map Sigma.fst).foldl (bindWorkspace manager) s
  let s := ((ord.iter s.workspaceGroups).map Sigma.fst).foldl (bindGroup ord manager) s
  { s.send [(manager, .done)] with instances := s.instances ++ [manager] }

/-- Forget the objects of a manager. -/
def forget (s : State) (manager : ℕ) : State :=
  { s with
    instances := s.instances.filter (· ≠ manager)
    workspaceGroups := s.workspaceGroups.mapValues fun data =>
      { data with instances := data.instances.filter (·.manager ≠ manager) }
    workspaces := s.workspaces.mapValues fun data =>
      { data with instances := data.instances.filter (·.manager ≠ manager) } }

def stop (s : State) (manager : ℕ) : State := (s.send [(manager, .finished)]).forget manager

end State

/-- A refresh, and managers that come and go; a manager is bound once. -/
inductive Step where
  | refresh (ord : IterOrder) (snapshot : Snapshot)
  | bind (ord : IterOrder) (manager : ℕ)
  | stop (manager : ℕ)
  /-- The client of a manager goes away with all of its objects. -/
  | disconnect (manager : ℕ)

namespace State

def init : State := ⟨[], ∅, ∅, 0, []⟩

def step (s : State) : Step → Option State
  | .refresh ord snapshot => some (s.refresh ord snapshot)
  | .bind ord manager =>
    if manager ∉ s.sent.map Prod.fst then some (s.bind ord manager) else none
  | .stop manager => if manager ∈ s.instances then some (s.stop manager) else none
  | .disconnect manager => if manager ∈ s.instances then some (s.forget manager) else none

end State

end Macniri.ExtWorkspace
