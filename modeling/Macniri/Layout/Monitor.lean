import Macniri.Layout.WorkspaceOps

/-! Monitors: an output with its list of workspaces and the switch between them. -/
namespace Macniri.Layout

def workspaceGestureMovement : ℚ := 300

def workspaceDndEdgeScrollMovement : ℚ := 1500

structure RubberBand where
  stiffness : ℚ
  limit : ℚ

namespace RubberBand

def band (r : RubberBand) (x : ℚ) : ℚ := (1 - 1 / (x * r.stiffness / r.limit + 1)) * r.limit

def clamp (r : RubberBand) (lo hi x : ℚ) : ℚ :=
  let clamped := Layout.clamp x lo hi
  let sign : ℚ := if x < clamped then -1 else 1
  clamped + sign * r.band |x - clamped|

end RubberBand

def computeOverviewZoom (options : Options) (progress : Option ℚ) : ℚ :=
  -- Clamp to some sane values.
  let zoom := clamp options.overviewZoom (1 / 10000) (3 / 4)
  match progress with
  | some p => max (1 - p * (1 - zoom)) (1 / 10000)
  | none => 1

structure WorkspaceSwitchGesture where
  centerIdx : ℕ
  startIdx : ℚ
  currentIdx : ℚ
  animation : Option Animation
  tracker : SwipeTracker
  isTouchpad : Bool
  isClamped : Bool
  dndLastEventTime : Option ℚ
  dndNonzeroStartTime : Option ℚ
  deriving DecidableEq, Repr

namespace WorkspaceSwitchGesture

def minMax (g : WorkspaceSwitchGesture) (workspaceCount : ℕ) : ℚ × ℚ :=
  if g.isClamped then ((g.centerIdx - 1 : ℕ), (min (g.centerIdx + 1) (workspaceCount - 1) : ℕ))
  else (0, (workspaceCount - 1 : ℕ))

def animateFrom (g : WorkspaceSwitchGesture) (frm : ℚ) : WorkspaceSwitchGesture :=
  { g with animation := some ⟨frm + (g.animation.map (·.value)).getD 0, 0⟩ }

end WorkspaceSwitchGesture

inductive WorkspaceSwitch where
  | animation (anim : Animation)
  | gesture (gesture : WorkspaceSwitchGesture)
  deriving DecidableEq, Repr

namespace WorkspaceSwitch

def currentIdx : WorkspaceSwitch → ℚ
  | animation anim => anim.value
  | gesture g => g.currentIdx + (g.animation.map (·.value)).getD 0

def targetIdx : WorkspaceSwitch → ℚ
  | animation anim => anim.toValue
  | gesture g => g.currentIdx

/-- `offset`, which is only called with positive deltas. -/
def offset (switch : WorkspaceSwitch) (delta : ℕ) : WorkspaceSwitch :=
  match switch with
  | animation anim => animation ⟨anim.value + delta, anim.toValue + delta⟩
  | gesture g => gesture { g with
      centerIdx := g.centerIdx + delta
      startIdx := g.startIdx + delta
      currentIdx := g.currentIdx + delta }

/-- The gesture of a DnD scroll. -/
def dndGesture? : WorkspaceSwitch → Option WorkspaceSwitchGesture
  | gesture g => if g.dndLastEventTime.isSome then some g else none
  | animation _ => none

end WorkspaceSwitch

inductive InsertPosition where
  | newColumn (columnIdx : ℕ)
  | inColumn (columnIdx tileIdx : ℕ)
  | floating
  deriving DecidableEq, Repr

inductive InsertWorkspace where
  | existing (id : ℕ)
  | newAt (idx : ℕ)
  deriving DecidableEq, Repr

inductive MonitorAddWindowTarget where
  | auto
  | workspace (id : ℕ) (columnIdx : Option ℕ)
  | nextTo (window : ℕ)
  deriving DecidableEq, Repr

/-- `overviewProgress` is the current value of the zoom. `syncedRenderIdx` is the corrected index
that `workspaceRenderIdx` computes while the switch and the zoom are matching animations. `nextId` is
the next value of the workspace id counter, which all monitors share. -/
structure Monitor where
  output : Output
  workspaces : List Workspace
  activeWorkspaceIdx : ℕ
  previousWorkspaceId : Option ℕ
  workspaceSwitch : Option WorkspaceSwitch
  overviewOpen : Bool
  overviewProgress : Option ℚ
  syncedRenderIdx : Option ℚ
  clock : ℚ
  baseOptions : Options
  options : Options
  layoutConfig : Option LayoutPart
  nextId : ℕ
  deriving DecidableEq

namespace Monitor

variable (m : Monitor)

def emptyAboveFirst : Bool := m.options.emptyWorkspaceAboveFirst

/-- The workspaces of a new monitor and the index to activate: set output, empty first, empty last. -/
def new (output : Output) (workspaces : List Workspace) (wsIdToActivate : Option ℕ) (clock : ℚ)
    (baseOptions : Options) (layoutConfig : Option LayoutPart) (nextId : ℕ) : Option Monitor :=
  if workspaces.any (!·.hasWindowsOrName) then none
  else
    let options := baseOptions.withMergedLayout layoutConfig
    let own := workspaces.map fun ws => (ws.setOutput (some output)).updateConfig options
    let activeWorkspaceIdx := (own.findIdx? fun ws => some ws.id == wsIdToActivate).getD 0
    let addFirst := options.emptyWorkspaceAboveFirst && !workspaces.isEmpty
    let first := if addFirst then [Workspace.new nextId output clock options] else []
    let nextId := if addFirst then nextId + 1 else nextId
    some
      { output := output
        workspaces := first ++ own ++ [Workspace.new nextId output clock options]
        activeWorkspaceIdx := first.length + activeWorkspaceIdx
        previousWorkspaceId := none
        workspaceSwitch := none
        overviewOpen := false
        overviewProgress := none
        syncedRenderIdx := none
        clock := clock
        baseOptions := baseOptions
        options := options
        layoutConfig := layoutConfig
        nextId := nextId + 1 }

def intoWorkspaces : List Workspace :=
  (m.workspaces.filter (·.hasWindowsOrName)).map (·.setOutput none)

def activeWorkspace : Option Workspace := m.workspaces[m.activeWorkspaceIdx]?

def activeWindow : Option Window := m.activeWorkspace.bind (·.activeWindow)

def hasWindow (window : ℕ) : Bool := m.workspaces.any (·.hasWindow window)

def overviewZoom : ℚ := computeOverviewZoom m.options m.overviewProgress

def workspaceRenderIdx : ℚ :=
  match m.workspaceSwitch with
  | some (.animation anim) => m.syncedRenderIdx.getD anim.value
  | some (.gesture g) => (WorkspaceSwitch.gesture g).currentIdx
  | none => m.activeWorkspaceIdx

def setWorkspace (idx : ℕ) (ws : Workspace) : Monitor :=
  { m with workspaces := m.workspaces.set idx ws }

/-- Apply an operation to the workspace at an index. -/
def onWorkspace (idx : ℕ) (f : Workspace → Option Workspace) : Option Monitor := do
  let ws ← m.workspaces[idx]?
  let ws ← f ws
  return m.setWorkspace idx ws

/-! Adding, activating and cleaning up workspaces. -/

def addWorkspaceAt (idx : ℕ) : Monitor :=
  { m with
    workspaces := m.workspaces.insertIdx idx (Workspace.new m.nextId m.output m.clock m.options)
    nextId := m.nextId + 1
    activeWorkspaceIdx :=
      if idx ≤ m.activeWorkspaceIdx then m.activeWorkspaceIdx + 1 else m.activeWorkspaceIdx
    workspaceSwitch := m.workspaceSwitch.map fun switch =>
      if (idx : ℚ) ≤ switch.targetIdx then switch.offset 1 else switch }

def addWorkspaceTop : Monitor := m.addWorkspaceAt 0

def addWorkspaceBottom : Monitor := m.addWorkspaceAt m.workspaces.length

/-- The switch to a workspace: during a DnD scroll the gesture goes on from there. -/
def switchTo (idx : ℕ) : Option WorkspaceSwitch :=
  match m.workspaceSwitch.bind (·.dndGesture?) with
  | some g =>
    -- Adjust start_idx to make current_idx point at idx.
    some (.gesture (WorkspaceSwitchGesture.animateFrom
      { g with
        centerIdx := idx
        startIdx := idx - (g.currentIdx - g.startIdx)
        currentIdx := idx } (-(idx - g.currentIdx))))
  | none =>
    -- Don't animate if nothing changed.
    if m.activeWorkspaceIdx = idx then m.workspaceSwitch
    else some (.animation ⟨m.workspaceRenderIdx, idx⟩)

def activateWorkspace (idx : ℕ) : Option Monitor := do
  let active ← m.activeWorkspace
  return { m with
    previousWorkspaceId :=
      if m.activeWorkspaceIdx ≠ idx then some active.id else m.previousWorkspaceId
    activeWorkspaceIdx := idx
    workspaceSwitch := m.switchTo idx
    syncedRenderIdx := none }

/-- Take out the workspace at an index, keeping the active one. -/
def removeInactiveAt (idx : ℕ) : Monitor :=
  { m with
    workspaces := m.workspaces.eraseIdx idx
    activeWorkspaceIdx :=
      if idx < m.activeWorkspaceIdx then m.activeWorkspaceIdx - 1 else m.activeWorkspaceIdx }

/-- Whether the clean-up takes out the workspace at an index. -/
def isUnused (idx : ℕ) : Bool :=
  m.activeWorkspaceIdx != idx && m.workspaces[idx]?.any (!·.hasWindowsOrName)

/-- The clean-up of the indices from `start` to below the given one, from the last one down. -/
def cleanUpBelow (m : Monitor) (start : ℕ) : ℕ → Monitor
  | 0 => m
  | idx + 1 =>
    if idx < start then m
    else if m.isUnused idx then (m.removeInactiveAt idx).cleanUpBelow start idx
    else m.cleanUpBelow start idx

/-- With an empty workspace above the first, just two workspaces are both empty: one goes. -/
def dropSecondEmpty : Option Monitor :=
  if m.emptyAboveFirst ∧ m.workspaces.length = 2 then
    if m.workspaces.any (·.hasWindowsOrName) then none
    else some { m with workspaces := m.workspaces.eraseIdx 1, activeWorkspaceIdx := 0 }
  else some m

def cleanUpWorkspaces : Option Monitor :=
  if m.workspaceSwitch.isSome ∨ m.workspaces = [] then none
  else
    let start := if m.emptyAboveFirst then 1 else 0
    (m.cleanUpBelow start (m.workspaces.length - 1)).dropSecondEmpty

/-- Stop the switch and clean up. -/
def stopSwitch : Option Monitor :=
  cleanUpWorkspaces { m with workspaceSwitch := none }

def cleanUpUnlessSwitching : Option Monitor :=
  if m.workspaceSwitch.isNone then m.cleanUpWorkspaces else some m

/-- Make sure that the workspace at an index is not at an end that has to be empty. Returns its new
index too. -/
def padEnds (idx : ℕ) : Monitor × ℕ :=
  let m := if idx + 1 = m.workspaces.length then m.addWorkspaceBottom else m
  if m.emptyAboveFirst ∧ idx = 0 then (m.addWorkspaceTop, idx + 1) else (m, idx)

/-! Adding windows. -/

/-- After adding a new window, a workspace becomes this output's own. -/
def adoptWorkspace (idx : ℕ) : Monitor :=
  { m with workspaces := m.workspaces.modify idx fun ws =>
      if ws.name.isNone then { ws with originalOutput := OutputId.new m.output } else ws }

def activateIf (activate : Bool) (idx : ℕ) : Option Monitor :=
  if activate then m.activateWorkspace idx else some m

def resolveAddWindowTarget :
    MonitorAddWindowTarget → Option (ℕ × WorkspaceAddWindowTarget)
  | .auto => some (m.activeWorkspaceIdx, .auto)
  | .workspace id columnIdx => do
    let idx ← m.workspaces.findIdx? (·.id == id)
    return (idx, match columnIdx with
      | some columnIdx => .newColumnAt columnIdx
      | none => .auto)
  | .nextTo window => do
    let idx ← m.workspaces.findIdx? (·.hasWindow window)
    return (idx, .nextTo window)

def addTile (tile : Tile) (target : MonitorAddWindowTarget) (activate : ActivateWindow)
    (allowToActivateWorkspace : Bool) (width : ColumnWidth) (isFullWidth isFloating : Bool)
    (renderPos : Point) : Option Monitor := do
  let (workspaceIdx, target) ← m.resolveAddWindowTarget target
  let m ← m.onWorkspace workspaceIdx
    (·.addTile tile target activate width isFullWidth isFloating renderPos)
  let (m, workspaceIdx) := (m.adoptWorkspace workspaceIdx).padEnds workspaceIdx
  m.activateIf (allowToActivateWorkspace && activate.mapSmart false) workspaceIdx

def addWindow (window : Window) (target : MonitorAddWindowTarget)
    (activate : ActivateWindow) (width : ColumnWidth) (isFullWidth isFloating : Bool)
    (renderPos : Point) : Option Monitor := do
  -- Everything a workspace sets on a tile is the same across all workspaces of a monitor.
  let first ← m.workspaces.head?
  m.addTile (first.makeTile window) target activate true width isFullWidth isFloating renderPos

def addColumn (workspaceIdx : ℕ) (column : Column) (activate : Bool) :
    Option Monitor := do
  let m ← m.onWorkspace workspaceIdx (·.addColumn column activate)
  let (m, workspaceIdx) := (m.adoptWorkspace workspaceIdx).padEnds workspaceIdx
  m.activateIf activate workspaceIdx

/-- A window that is added to an existing column cannot be on the last, empty, workspace. -/
def addTileToColumn (workspaceIdx columnIdx : ℕ) (tileIdx : Option ℕ) (tile : Tile)
    (activate allowToActivateWorkspace : Bool) : Option Monitor := do
  let m ← m.onWorkspace workspaceIdx (·.addTileToColumn columnIdx tileIdx tile activate)
  (m.adoptWorkspace workspaceIdx).activateIf (allowToActivateWorkspace && activate) workspaceIdx

/-! Naming, removing and inserting workspaces. -/

/-- Forget the name of the workspace with the given id, if it is here. -/
def unnameWorkspace (id : ℕ) : Option Monitor :=
  match m.workspaces.findIdx? (·.id == id) with
  | none => some m
  | some idx => cleanUpUnlessSwitching { m with workspaces := m.workspaces.modify idx (·.unname) }

def removeWorkspaceByIdx (idx : ℕ) : Option (Workspace × Monitor) := do
  let (m, idx) := m.padEnds idx
  let ws ← m.workspaces[idx]?
  let m := { m with
    workspaces := m.workspaces.eraseIdx idx
    -- We focus previous rather than next, to let moves back and forth preserve position.
    activeWorkspaceIdx := if idx ≤ m.activeWorkspaceIdx ∧ 0 < m.activeWorkspaceIdx
      then m.activeWorkspaceIdx - 1 else m.activeWorkspaceIdx }
  let m ← m.stopSwitch
  return (ws.setOutput none, m)

/-- Where a workspace is inserted: not past the last empty one, and below a new one on top. -/
def prepareInsertion (idx : ℕ) : Monitor × ℕ :=
  let idx := if idx = m.workspaces.length then idx - 1 else idx
  if idx = 0 ∧ m.emptyAboveFirst then (m.addWorkspaceTop, idx + 1) else (m, idx)

def insertWorkspace (ws : Workspace) (idx : ℕ) (activate : Bool) : Option Monitor := do
  let ws := (ws.setOutput (some m.output)).updateConfig m.options
  let (m, idx) := m.prepareInsertion idx
  let m := { m with
    workspaces := m.workspaces.insertIdx idx ws
    activeWorkspaceIdx :=
      if idx ≤ m.activeWorkspaceIdx then m.activeWorkspaceIdx + 1 else m.activeWorkspaceIdx
    workspaceSwitch := if activate then none else m.workspaceSwitch }
  let m ← m.activateIf activate idx
  m.stopSwitch

/-- The workspaces of a removed monitor go right before the last, empty, workspace. -/
def appendWorkspaces (workspaces : List Workspace) : Option Monitor :=
  if workspaces.isEmpty then some m
  else do
    let empty ← m.workspaces.getLast?
    let own := workspaces.map fun ws => (ws.setOutput (some m.output)).updateConfig m.options
    let emptyWasFocused := m.activeWorkspaceIdx + 1 = m.workspaces.length
    let m := { m with workspaces := m.workspaces.dropLast ++ own ++ [empty] }
    let m := if m.emptyAboveFirst && m.workspaces.head?.any (·.hasWindowsOrName)
      then m.addWorkspaceTop else m
    -- If the empty workspace was focused on the primary monitor, keep it focused.
    let m := if emptyWasFocused then { m with activeWorkspaceIdx := m.workspaces.length - 1 } else m
    m.stopSwitch

/-! Moving windows and columns between workspaces. -/

/-- Add a tile that was removed from another workspace. -/
def addRemoved (removed : RemovedTile) (id : ℕ) (activate : ActivateWindow) :
    Option Monitor :=
  m.addTile removed.tile (.workspace id none) activate true removed.width removed.isFullWidth
    removed.isFloating ⟨0, 0⟩

/-- Move the active tile of the active workspace to the workspace at another index. -/
def moveActiveTileTo (newIdx : ℕ) (activate : ActivateWindow) : Option Monitor :=
  if newIdx = m.activeWorkspaceIdx then some m
  else do
    let target ← m.workspaces[newIdx]?
    let source ← m.activeWorkspace
    match ← source.removeActiveTile with
    | none => some m
    | some (removed, source) =>
      (m.setWorkspace m.activeWorkspaceIdx source).addRemoved removed target.id activate

def moveToWorkspaceUp (focus : Bool) : Option Monitor :=
  m.moveActiveTileTo (m.activeWorkspaceIdx - 1) (if focus then .yes else .smart)

def moveToWorkspaceDown (focus : Bool) : Option Monitor :=
  m.moveActiveTileTo (min (m.activeWorkspaceIdx + 1) (m.workspaces.length - 1))
    (if focus then .yes else .smart)

/-- The tile of a window, the active one by default; the inner option is empty if there is none. -/
def removeWindowOrActive (ws : Workspace) : Option ℕ → Option (Option (RemovedTile × Workspace))
  | some window => (ws.removeTile window).map some
  | none => ws.removeActiveTile

/-- The workspace of a window, the active one by default. -/
def workspaceOf : Option ℕ → Option ℕ
  | some window => m.workspaces.findIdx? (·.hasWindow window)
  | none => some m.activeWorkspaceIdx

def moveToWorkspace (window : Option ℕ) (idx : ℕ) (activate : ActivateWindow) :
    Option Monitor := do
  let sourceIdx ← m.workspaceOf window
  let newIdx := min idx (m.workspaces.length - 1)
  if newIdx = sourceIdx then some m
  else
    let target ← m.workspaces[newIdx]?
    let source ← m.workspaces[sourceIdx]?
    let activate := activate.mapSmart (window.all fun id => m.activeWindow.any (·.id == id))
    match ← removeWindowOrActive source window with
    | none => some m
    | some (removed, source) =>
      let m ← (m.setWorkspace sourceIdx source).addRemoved removed target.id
        (if activate then .yes else .no)
      m.cleanUpUnlessSwitching

/-- Move the active column of the active workspace; `other` is what a floating window does. -/
def moveColumnTo (newIdx : ℕ) (activate : Bool) (other : Option Monitor) :
    Option Monitor :=
  if newIdx = m.activeWorkspaceIdx then some m
  else do
    let source ← m.activeWorkspace
    if source.floatingIsActive.get then other
    else
      match ← source.removeActiveColumn with
      | none => some m
      | some (column, source) =>
        (m.setWorkspace m.activeWorkspaceIdx source).addColumn newIdx column activate

def moveColumnToWorkspaceUp (activate : Bool) : Option Monitor :=
  m.moveColumnTo (m.activeWorkspaceIdx - 1) activate (m.moveToWorkspaceUp activate)

def moveColumnToWorkspaceDown (activate : Bool) : Option Monitor :=
  m.moveColumnTo (min (m.activeWorkspaceIdx + 1) (m.workspaces.length - 1)) activate
    (m.moveToWorkspaceDown activate)

def moveColumnToWorkspace (idx : ℕ) (activate : Bool) : Option Monitor :=
  m.moveColumnTo (min idx (m.workspaces.length - 1)) activate
    (m.moveToWorkspace none idx (if activate then .smart else .no))

def moveDownOrToWorkspaceDown : Option Monitor := do
  let ws ← m.activeWorkspace
  let (moved, ws) ← ws.moveDown
  let m := m.setWorkspace m.activeWorkspaceIdx ws
  if moved then some m else m.moveToWorkspaceDown true

def moveUpOrToWorkspaceUp : Option Monitor := do
  let ws ← m.activeWorkspace
  let (moved, ws) ← ws.moveUp
  let m := m.setWorkspace m.activeWorkspaceIdx ws
  if moved then some m else m.moveToWorkspaceUp true

/-! Switching. -/

/-- An index that an apparent position is clamped to. -/
def clampIdx (x : ℚ) : ℕ := ⌊clamp x 0 (m.workspaces.length - 1 : ℕ)⌋.toNat

def switchWorkspaceUp : Option Monitor :=
  m.activateWorkspace <| match m.workspaceSwitch.bind (·.dndGesture?) with
    -- During a DnD scroll, select the prev apparent workspace.
    | some g => m.clampIdx (⌈g.currentIdx⌉ - 1)
    | none => m.activeWorkspaceIdx - 1

def switchWorkspaceDown : Option Monitor :=
  m.activateWorkspace <| match m.workspaceSwitch.bind (·.dndGesture?) with
    -- During a DnD scroll, select the next apparent workspace.
    | some g => m.clampIdx (⌊g.currentIdx⌋ + 1)
    | none => min (m.activeWorkspaceIdx + 1) (m.workspaces.length - 1)

def focusWindowOrWorkspaceDown : Option Monitor := do
  let ws ← m.activeWorkspace
  let (focused, ws) ← ws.focusDown
  let m := m.setWorkspace m.activeWorkspaceIdx ws
  if focused then some m else m.switchWorkspaceDown

def focusWindowOrWorkspaceUp : Option Monitor := do
  let ws ← m.activeWorkspace
  let (focused, ws) ← ws.focusUp
  let m := m.setWorkspace m.activeWorkspaceIdx ws
  if focused then some m else m.switchWorkspaceUp

def previousWorkspaceIdx : Option ℕ := do
  let id ← m.previousWorkspaceId
  m.workspaces.findIdx? (·.id == id)

def switchWorkspace (idx : ℕ) : Option Monitor :=
  m.activateWorkspace (min idx (m.workspaces.length - 1))

def switchWorkspacePrevious : Option Monitor :=
  match m.previousWorkspaceIdx with
  | some idx => m.switchWorkspace idx
  | none => some m

def switchWorkspaceAutoBackAndForth (idx : ℕ) : Option Monitor :=
  if min idx (m.workspaces.length - 1) = m.activeWorkspaceIdx then m.switchWorkspacePrevious
  else m.switchWorkspace idx

/-! Config, size and time. -/

/-- The list after a change of `empty_workspace_above_first`. -/
def updateEmptyAboveFirst (emptyAboveFirst : Bool) : Monitor :=
  if m.emptyAboveFirst ≠ emptyAboveFirst ∧ 1 < m.workspaces.length then
    if emptyAboveFirst then m.addWorkspaceTop
    else if m.workspaceSwitch.isNone ∧ m.activeWorkspaceIdx ≠ 0 then
      { m with
        workspaces := m.workspaces.eraseIdx 0
        activeWorkspaceIdx := m.activeWorkspaceIdx - 1 }
    else m
  else m

def updateConfig (baseOptions : Options) : Monitor :=
  let options := baseOptions.withMergedLayout m.layoutConfig
  let m := m.updateEmptyAboveFirst options.emptyWorkspaceAboveFirst
  { m with
    workspaces := m.workspaces.map (·.updateConfig options)
    baseOptions := baseOptions
    options := options }

def updateLayoutConfig (layoutConfig : Option LayoutPart) : Monitor :=
  if m.layoutConfig = layoutConfig then m
  else { m with layoutConfig := layoutConfig }.updateConfig m.baseOptions

/-- The output changed its scale, transform, size or working area. -/
def updateOutputSize (output : Output) : Monitor :=
  { m with
    output := output
    workspaces := m.workspaces.map fun ws => { ws with output := some output }.updateOutputSize }

def setOverviewProgress (progress : Option ℚ) : Monitor :=
  { m with
    overviewProgress := progress
    -- If the view jumped, the switch is restarted to avoid jumps.
    workspaceSwitch := match m.workspaceSwitch with
      | some (.animation anim) => some (.animation { anim with value := m.workspaceRenderIdx })
      | switch => switch
    syncedRenderIdx := none }

/-- The values of the running animations on a monitor, and which of them are done. -/
structure AnimationState where
  switchValue : ℚ
  switchDone : Bool
  syncedRenderIdx : Option ℚ
  workspaces : ℕ → Workspace.AnimationState

def setClock (now : ℚ) (anim : AnimationState) : Monitor :=
  { m with
    clock := now
    syncedRenderIdx := anim.syncedRenderIdx
    workspaceSwitch := m.workspaceSwitch.map fun
      | .animation a => .animation { a with value := anim.switchValue }
      | .gesture g =>
        .gesture { g with animation := g.animation.map ({ · with value := anim.switchValue }) }
    workspaces := m.workspaces.map fun ws => ws.setClock now (anim.workspaces ws.id) }

/-- The gesture as time passes without an event. -/
def advanceGesture (g : WorkspaceSwitchGesture) (done : Bool) :
    WorkspaceSwitchGesture :=
  -- Make sure the last event time doesn't go too much out of date.
  let g := if g.dndLastEventTime.any (· ≠ m.clock)
    then { g with dndLastEventTime := some m.clock, dndNonzeroStartTime := none } else g
  { g with animation := if done then none else g.animation }

def advanceSwitch (done : Bool) : Option Monitor :=
  match m.workspaceSwitch with
  | some (.animation _) => if done then m.stopSwitch else some m
  | some (.gesture g) => some { m with workspaceSwitch := some (.gesture (m.advanceGesture g done)) }
  | none => some m

def advanceAnimations (anim : AnimationState) : Option Monitor := do
  let m ← m.advanceSwitch anim.switchDone
  return { m with workspaces := m.workspaces.map fun ws =>
    ws.advanceAnimations (anim.workspaces ws.id) }

/-! Reordering workspaces. -/

/-- Activate a workspace that moved, without a switch. -/
def activateMoved (idx : ℕ) : Option Monitor := do
  let moved ← m.activateWorkspace idx
  { moved with previousWorkspaceId := m.previousWorkspaceId }.stopSwitch

/-- Swap the workspaces at two indices. -/
def swapWorkspaces (i j : ℕ) : Option Monitor := do
  let a ← m.workspaces[i]?
  let b ← m.workspaces[j]?
  return { m with workspaces := (m.workspaces.set i b).set j a }

def moveWorkspaceDown : Option Monitor :=
  let newIdx := min (m.activeWorkspaceIdx + 1) (m.workspaces.length - 1)
  if newIdx = m.activeWorkspaceIdx then some m
  else do
    let m ← m.swapWorkspaces m.activeWorkspaceIdx newIdx
    let m := if newIdx + 1 = m.workspaces.length then m.addWorkspaceBottom else m
    if m.emptyAboveFirst ∧ m.activeWorkspaceIdx = 0 then m.addWorkspaceTop.activateMoved (newIdx + 1)
    else m.activateMoved newIdx

def moveWorkspaceUp : Option Monitor :=
  let newIdx := m.activeWorkspaceIdx - 1
  if newIdx = m.activeWorkspaceIdx then some m
  else do
    let m ← m.swapWorkspaces m.activeWorkspaceIdx newIdx
    let m := if m.activeWorkspaceIdx + 1 = m.workspaces.length then m.addWorkspaceBottom else m
    if m.emptyAboveFirst ∧ newIdx = 0 then m.addWorkspaceTop.activateMoved (newIdx + 1)
    else m.activateMoved newIdx

/-- The active index after a workspace moved from one index to another. -/
def activeAfterMove (active oldIdx newIdx : ℕ) : ℕ :=
  -- Only refocus the workspace if it was already focused.
  if active = oldIdx then newIdx
  else if newIdx ≤ active ∧ active < oldIdx then active + 1
  else if active ≤ newIdx ∧ oldIdx < active then active - 1
  else active

/-- Restore the empty workspaces at the ends after a workspace moved; returns its new index too. -/
def padAfterMove (oldIdx newIdx : ℕ) : Monitor × ℕ :=
  let m := if max oldIdx newIdx + 1 = m.workspaces.length then m.addWorkspaceBottom else m
  if m.emptyAboveFirst ∧ min oldIdx newIdx = 0 then (m.addWorkspaceTop, newIdx + 1) else (m, newIdx)

def moveWorkspaceToIdx (oldIdx newIdx : ℕ) : Option Monitor :=
  let newIdx := min newIdx (m.workspaces.length - 1)
  if m.workspaces.length ≤ oldIdx ∨ oldIdx = newIdx then some m
  else do
    let ws ← m.workspaces[oldIdx]?
    let m := { m with workspaces := (m.workspaces.eraseIdx oldIdx).insertIdx newIdx ws }
    let (m, newIdx) := m.padAfterMove oldIdx newIdx
    { m with activeWorkspaceIdx := activeAfterMove m.activeWorkspaceIdx oldIdx newIdx }.stopSwitch

/-! Gestures. -/

def workspaceHeightWithGap : ℚ :=
  ceilLogicalInPhysical m.output.scale m.output.viewSize.h +
    roundLogicalInPhysicalMax1 m.output.scale (m.output.viewSize.h / 10)

/-- A gesture that starts from the current position. -/
def gestureAt (isTouchpad isClamped : Bool) (dndLastEventTime : Option ℚ) :
    WorkspaceSwitchGesture where
  centerIdx := m.activeWorkspaceIdx
  startIdx := m.workspaceRenderIdx
  currentIdx := m.workspaceRenderIdx
  animation := none
  tracker := .new
  isTouchpad := isTouchpad
  isClamped := isClamped
  dndLastEventTime := dndLastEventTime
  dndNonzeroStartTime := none

def workspaceSwitchGestureBegin (isTouchpad : Bool) : Monitor :=
  { m with workspaceSwitch := some (.gesture (m.gestureAt isTouchpad (!m.overviewOpen) none)) }

def dndScrollGestureBegin : Monitor :=
  -- This gesture is only for the overview.
  if (m.workspaceSwitch.bind (·.dndGesture?)).isSome || !m.overviewOpen then m
  else { m with workspaceSwitch := some (.gesture (m.gestureAt false false (some m.clock))) }

/-- Whether a gesture of the given kind, and no DnD scroll, is in progress. -/
def hasSwitchGesture (isTouchpad : Bool) : Bool :=
  match m.workspaceSwitch with
  | some (.gesture g) => g.isTouchpad == isTouchpad && g.dndLastEventTime.isNone
  | _ => false

def updateGesture (g : WorkspaceSwitchGesture) (deltaY timestamp : ℚ) :
    Option WorkspaceSwitchGesture :=
  let zoom := m.overviewZoom
  let totalHeight := if g.isTouchpad then workspaceGestureMovement else m.workspaceHeightWithGap
  -- Reduce the effect of zoom on the touchpad somewhat.
  let deltaScale := if g.isTouchpad then (zoom - 1) / (5 / 2) + 1 else zoom
  let tracker := g.tracker.push (deltaY / deltaScale) timestamp
  let (lo, hi) := g.minMax m.workspaces.length
  let rubberBand : RubberBand := ⟨1 / 2, 1 / 20 / zoom⟩
  if hi < lo then none
  else some { g with
    tracker := tracker
    currentIdx := rubberBand.clamp lo hi (g.startIdx + tracker.pos / totalHeight) }

def workspaceSwitchGestureUpdate (deltaY timestamp : ℚ) (isTouchpad : Bool) :
    Option Monitor :=
  match m.workspaceSwitch with
  | some (.gesture g) =>
    if m.hasSwitchGesture isTouchpad then
      (m.updateGesture g deltaY timestamp).map fun g => { m with workspaceSwitch := some (.gesture g) }
    else some m
  | _ => some m

/-- `delta` is how far the pointer is in the scrolling zone, times the speed. The result tells
whether the pointer is in the zone. -/
def dndScrollGestureScroll (delta : ℚ) : Option (Bool × Monitor) :=
  match m.workspaceSwitch with
  | some (.gesture g) =>
    match g.dndLastEventTime with
    | none => some (false, m)
    | some lastTime =>
      let config := m.options.dndEdgeWorkspaceSwitch
      let g := { g with dndLastEventTime := some m.clock }
      let set (g : WorkspaceSwitchGesture) : Monitor := { m with workspaceSwitch := some (.gesture g) }
      if delta = 0 then some (false, set { g with dndNonzeroStartTime := none })
      else
        let nonzeroStart := g.dndNonzeroStartTime.getD m.clock
        let g := { g with dndNonzeroStartTime := some nonzeroStart }
        -- Delay starting the gesture a bit to avoid unwanted movement when dragging across monitors.
        if max 0 (m.clock - nonzeroStart) < (config.delayMs : ℚ) / 1000 then some (true, set g)
        else
          let timeDelta := max 0 (m.clock - lastTime)
          let tracker := g.tracker.push (delta * timeDelta * config.maxSpeed) m.clock
          let unclamped := g.startIdx + tracker.pos / workspaceDndEdgeScrollMovement
          let (lo, hi) := g.minMax m.workspaces.length
          if hi < lo then none
          else some (true, set { g with
            tracker := tracker
            -- Make sure that scrolling too much outside the bounds does not build up.
            startIdx := g.startIdx + (clamp unclamped lo hi - unclamped)
            currentIdx := clamp unclamped lo hi })
  | _ => some (false, m)

/-- The workspace that a gesture ends on. -/
def gestureEndIdx (g : WorkspaceSwitchGesture) : Option ℕ :=
  let totalHeight := if g.dndLastEventTime.isSome then workspaceDndEdgeScrollMovement
    else if g.isTouchpad then workspaceGestureMovement
    else m.workspaceHeightWithGap
  -- Take into account any idle time between the last event and now.
  let tracker := g.tracker.push 0 m.clock
  let (lo, hi) := g.minMax m.workspaces.length
  if hi < lo then none
  else some ⌊round (clamp (g.startIdx + tracker.projectedEndPos / totalHeight) lo hi)⌋.toNat

def endGesture (g : WorkspaceSwitchGesture) : Option Monitor := do
  let newIdx ← m.gestureEndIdx g
  let active ← m.activeWorkspace
  return { m with
    previousWorkspaceId :=
      if m.activeWorkspaceIdx ≠ newIdx then some active.id else m.previousWorkspaceId
    activeWorkspaceIdx := newIdx
    workspaceSwitch := some (.animation ⟨g.currentIdx, newIdx⟩)
    syncedRenderIdx := none }

/-- Whether a gesture of the given kind is in progress, possibly a DnD scroll. -/
def hasGesture (isTouchpad : Option Bool) : Bool :=
  match m.workspaceSwitch with
  | some (.gesture g) => !isTouchpad.any (g.isTouchpad != ·)
  | _ => false

def workspaceSwitchGestureEnd (isTouchpad : Option Bool) : Option Monitor :=
  match m.workspaceSwitch with
  | some (.gesture g) => if m.hasGesture isTouchpad then m.endGesture g else some m
  | _ => some m

def dndScrollGestureEnd : Option Monitor :=
  if (m.workspaceSwitch.bind (·.dndGesture?)).isSome then m.workspaceSwitchGestureEnd none else some m

end Monitor

end Macniri.Layout
