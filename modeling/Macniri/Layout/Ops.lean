import Macniri.Layout.Windows

/-! The other operations of the layout: focus, sizing modes, names, config, gestures and time. -/
namespace Macniri.Layout

variable (l : Layout)

def overviewGestureMovement : ℚ := 300

def overviewGestureRubberBand : RubberBand := ⟨1 / 2, 1 / 20⟩

/-! Focus and moves. -/

/-- An operation of the active workspace or, if it does nothing, another one. -/
def onActiveOr (f : Workspace → Option (Bool × Workspace))
    (other : Layout → Option Layout) : Option Layout :=
  match l.activeMonitorIdx with
  | none => other l
  | some idx => do
    let m ← l.monitorAt idx
    let ws ← m.activeWorkspace
    let (done, ws) ← f ws
    let l := l.setMonitor idx (m.setWorkspace m.activeWorkspaceIdx ws)
    if done then some l else other l

def moveColumnLeftOrToOutput (output : Output) : Option Layout :=
  l.onActiveOr (·.moveLeft) (·.moveColumnToOutput output none true)

def moveColumnRightOrToOutput (output : Output) : Option Layout :=
  l.onActiveOr (·.moveRight) (·.moveColumnToOutput output none true)

def focusWindowUpOrOutput (output : Output) : Option Layout :=
  l.onActiveOr (·.focusUp) (some <| ·.focusOutput output)

def focusWindowDownOrOutput (output : Output) : Option Layout :=
  l.onActiveOr (·.focusDown) (some <| ·.focusOutput output)

def focusColumnLeftOrOutput (output : Output) : Option Layout :=
  l.onActiveOr (·.focusLeft) (some <| ·.focusOutput output)

def focusColumnRightOrOutput (output : Output) : Option Layout :=
  l.onActiveOr (·.focusRight) (some <| ·.focusOutput output)

def moveToWorkspace (window : Option ℕ) (idx : ℕ) (activate : ActivateWindow) :
    Option Layout :=
  if l.targetsMoving window ∨ l.monitors = [] then some l
  else
    match window with
    | some id => do
      let monIdx ← l.monitors.findIdx? (·.hasWindow id)
      l.onMonitor monIdx (·.moveToWorkspace window idx activate)
    | none => l.onActiveMonitor (·.moveToWorkspace none idx activate)

/-- Show the workspace of a window that was activated. In the middle of a swipe between it and some
other one, the workspace is not switched. -/
def showWorkspace (m : Monitor) (idx : ℕ) : Option Monitor :=
  match m.workspaceSwitch with
  | some (.gesture g) =>
    if ⌊g.currentIdx⌋ = idx ∨ ⌈g.currentIdx⌉ = idx then some m else m.switchWorkspace idx
  | _ => m.switchWorkspace idx

/-- Activate a window on its workspace with the given operation, and show it. -/
def showWindow (window : ℕ) (f : Workspace → Option Workspace) : Option Layout :=
  if l.isMoving window then some l
  else
    match l.monitors.findIdx? (·.hasWindow window) with
    | none => some l
    | some monIdx => do
      let l ← l.onMonitor monIdx fun m => do
        let idx ← m.workspaces.findIdx? (·.hasWindow window)
        let m ← m.onWorkspace idx f
        showWorkspace m idx
      return l.activateMonitor monIdx

def activateWindow (window : ℕ) : Option Layout :=
  l.showWindow window fun ws => (ws.activateWindow window).map (·.2)

def activateWindowWithoutRaising (window : ℕ) : Option Layout :=
  l.showWindow window fun ws => some (ws.activateWindowWithoutRaising window).2

def descendantsAdded (id : ℕ) : Option Layout :=
  if l.workspaces.any (·.floating.hasWindow id) then
    l.onFirstWorkspace (·.floating.hasWindow id) (·.descendantsAdded id)
  else some l

/-! Windows. -/

/-- Change the data of an interactive move. -/
def onMoving (f : InteractiveMoveData → InteractiveMoveData) : Layout :=
  { l with interactiveMove := l.interactiveMove.map fun
      | .starting window delta => .starting window delta
      | .moving d => .moving (f d) }

def updateWindow (window : ℕ) (commit : Commit) (ongoingResizeAnim : Bool) :
    Option Layout :=
  if l.isMoving window then
    some (l.onMoving fun d => { d with tile := (d.tile.onCommit commit).updateWindow })
  else l.onWorkspaceOf window (·.updateWindow window commit ongoingResizeAnim)

/-- Change a window wherever it is. -/
def modifyWindow (window : ℕ) (f : Window → Window) : Option Layout :=
  (l.onMoving fun d =>
    if d.tile.id = window then { d with tile := { d.tile with window := f d.tile.window } } else d)
  |>.forWorkspaces (some <| ·.modifyWindow window f)

/-- A window gets a parent, or loses it. -/
def setParent (window : ℕ) (parent : Option ℕ) : Option Layout :=
  l.modifyWindow window ({ · with parent := parent })

def findWindow (window : ℕ) : Option Window :=
  ((l.movingTile.toList ++ l.workspaces.flatMap (·.tiles)).map (·.window)).find? (·.id == window)

/-- Toggle whether a moved window targets the floating layout. -/
def toggleMovingFloating (d : InteractiveMoveData) : Option Layout :=
  let d := { d with isFloating := !d.isFloating }
  if d.isFloating then
    -- Unlock the view on the workspaces.
    forWorkspaces { l with interactiveMove := some (.moving d.restoreFloatingSize) }
      (some ·.dndScrollGestureEnd)
  else some { l with interactiveMove := some (.moving d) }

def toggleWindowFloating (window : Option ℕ) (renderPos : Point) : Option Layout :=
  match l.moving.filter fun d => window.all (d.tile.id == ·) with
  | some d => l.toggleMovingFloating d
  | none => l.onWindow window (·.toggleWindowFloating window renderPos)

def setWindowFloating (window : Option ℕ) (floating : Bool) (renderPos : Point) :
    Option Layout :=
  match l.moving.filter fun d => window.all (d.tile.id == ·) with
  | some d => if d.isFloating = floating then some l else l.toggleMovingFloating d
  | none => l.onWindow window (·.setWindowFloating window floating renderPos)

/-- An operation of the workspace of a window that is not being moved. -/
def onUnmoved (window : ℕ) (f : Workspace → Option Workspace) : Option Layout :=
  if l.isMoving window then some l else l.onWorkspaceOf window f

def setFullscreen (id : ℕ) (isFullscreen : Bool) (renderPos : Point) : Option Layout :=
  -- Check if this is a request to unset the windowed fullscreen state.
  if !isFullscreen ∧ (l.findWindow id).any (·.isPendingWindowedFullscreen) then
    l.modifyWindow id (·.requestWindowedFullscreen false)
  else l.onUnmoved id (·.setFullscreen id isFullscreen renderPos)

def toggleFullscreen (id : ℕ) (renderPos : Point) : Option Layout :=
  l.onUnmoved id (·.toggleFullscreen id renderPos)

def toggleWindowedFullscreen (id : ℕ) (renderPos : Point) : Option Layout := do
  let window ← l.findWindow id
  let toggle (w : Window) : Window := w.requestWindowedFullscreen !w.isPendingWindowedFullscreen
  if window.pendingSizingMode = .fullscreen then
    -- Remove the real fullscreen.
    let l ← l.onWorkspaceOf id (·.setFullscreen id false renderPos)
    l.modifyWindow id toggle
  else l.modifyWindow id toggle

def setMaximized (id : ℕ) (maximize : Bool) (renderPos : Point) : Option Layout :=
  l.onUnmoved id (·.setMaximized id maximize renderPos)

def toggleMaximized (id : ℕ) (renderPos : Point) : Option Layout :=
  l.onUnmoved id (·.toggleMaximized id renderPos)

def interactiveResizeBegin (window : ℕ) (edges : ResizeEdge) : Option Layout :=
  l.onWorkspaceOf window (·.interactiveResizeBegin window edges)

def interactiveResizeUpdate (window : ℕ) (delta : Point) : Option Layout :=
  l.onUnmoved window (·.interactiveResizeUpdate window delta)

def interactiveResizeEnd (window : ℕ) : Option Layout :=
  l.onUnmoved window (·.interactiveResizeEnd window)

/-! Workspaces and config. -/

/-- The monitor and the index of a workspace that is reordered. Without an output the active monitor
is assumed, without a reference its active workspace. -/
def moveWorkspaceToIdx (reference : Option (Option Output × ℕ)) (newIdx : ℕ) :
    Option Layout :=
  match reference with
  | some (some output, oldIdx) =>
    match l.monitorIdxForOutput output with
    | none => some l
    | some idx => l.onMonitor idx (·.moveWorkspaceToIdx oldIdx newIdx)
  | some (none, oldIdx) => l.onActiveMonitor (·.moveWorkspaceToIdx oldIdx newIdx)
  | none => l.onActiveMonitor fun m => m.moveWorkspaceToIdx m.activeWorkspaceIdx newIdx

/-- Restore the empty workspaces at the ends after a workspace got a name. -/
def padNamed (m : Monitor) (id : ℕ) : Monitor :=
  let m := if m.emptyAboveFirst ∧ m.workspaces.head?.any (·.id == id) then m.addWorkspaceTop else m
  if m.workspaces.getLast?.any (·.id == id) then m.addWorkspaceBottom else m

def setWorkspaceName (name : String) (reference : Option WorkspaceReference) :
    Option Layout :=
  -- Ignore the request if the name is already used by another workspace.
  if (l.findWorkspaceByName name).isSome then some l
  else
    match l.workspaceByRefOrActive reference with
    | none => some l
    | some ws => do
      let l ← l.onFirstWorkspace (·.id == ws.id) fun ws => some { ws with name := some name }
      l.onActiveMonitor fun m => some (padNamed m ws.id)

def unnameWorkspaceById (id : ℕ) : Option Layout :=
  match l.monitorSet with
  | .normal monitors _ _ =>
    match monitors.findIdx? (·.workspaces.any (·.id == id)) with
    | none => some l
    | some idx => l.onMonitor idx (·.unnameWorkspace id)
  | .noOutputs workspaces =>
    match workspaces.findIdx? (·.id == id) with
    | none => some l
    | some idx => do
      let ws ← workspaces[idx]?
      -- Clean up empty workspaces.
      let workspaces :=
        if ws.hasWindows then workspaces.set idx ws.unname else workspaces.eraseIdx idx
      return { l with monitorSet := .noOutputs workspaces }

def unnameWorkspaceByRef (reference : WorkspaceReference) : Option Layout :=
  match l.findWorkspaceByRef reference with
  | none => some l
  | some ws => l.unnameWorkspaceById ws.id

def unnameWorkspace (name : String) : Option Layout :=
  l.unnameWorkspaceByRef (.name name)

def unsetWorkspaceName (reference : Option WorkspaceReference) : Option Layout :=
  match l.workspaceByRefOrActive reference with
  | none => some l
  | some ws => l.unnameWorkspaceById ws.id

/-- Create the workspace of a config section on a monitor. -/
def insertNamed (m : Monitor) (config : WorkspaceConfig) (clock : ℚ) (options : Options) :
    Option Monitor :=
  Monitor.insertWorkspace { m with nextId := m.nextId + 1 }
    (Workspace.newWithConfig m.nextId m.output (some config) clock options) 0 false

def ensureNamedWorkspace (config : WorkspaceConfig) : Option Layout :=
  if (l.findWorkspaceByName config.name).isSome then some l
  else
    match l.monitorSet with
    | .normal monitors primaryIdx activeMonitorIdx =>
      let idx := match config.openOnOutput with
        | some name => (monitors.findIdx? (·.output.name.matches name)).getD primaryIdx
        | none => activeMonitorIdx
      l.onMonitor idx (insertNamed · config l.clock l.options)
    | .noOutputs workspaces =>
      some { l with
        monitorSet := .noOutputs
          (Workspace.newWithConfigNoOutputs l.nextId (some config) l.clock l.options :: workspaces)
        nextId := l.nextId + 1 }

/-- A named workspace takes its own section of the config. -/
def updateNamed (config : Config) (ws : Workspace) : Workspace :=
  match ws.name with
  | none => ws
  | some name =>
    match config.workspaces.find? (·.name == name) with
    | none => ws
    | some section_ => ws.updateLayoutConfig section_.layout

/-- The monitors, or the workspaces without any, take new options. -/
def updateParts (options : Options) : Option Layout :=
  match l.monitorSet with
  | .normal _ _ _ => l.forMonitors (some <| ·.updateConfig options)
  | .noOutputs _ => l.forWorkspaces (some <| ·.updateConfig options)

def updateOptions (options : Options) : Option Layout := do
  let l ← (l.onMoving fun d => d.updateConfig options d.output).updateParts options
  return { l with options := options }

def updateConfig (config : Config) : Option Layout := do
  let l ← l.forWorkspaces (some <| updateNamed config ·)
  l.updateOptions config.options

/-- The layout config of an output changed. -/
def updateLayoutConfig (output : Output) (layoutConfig : Option LayoutPart) :
    Option Layout :=
  match l.monitorIdxForOutput output with
  | none => some l
  | some idx => l.onMonitor idx (some <| ·.updateLayoutConfig layoutConfig)

/-! The overview. -/

def setMonitorsOverviewState : Option Layout :=
  l.forMonitors fun m => some <| Monitor.setOverviewProgress { m with overviewOpen := l.overviewOpen }
    (l.overviewProgress.map OverviewProgress.value)

def overviewValue : ℚ := (l.overviewProgress.map OverviewProgress.value).getD 0

def toggleOverview : Option Layout :=
  setMonitorsOverviewState { l with
    overviewOpen := !l.overviewOpen
    overviewProgress := some (.animation ⟨l.overviewValue, if l.overviewOpen then 0 else 1⟩) }

def openOverview : Option Layout := if l.overviewOpen then some l else l.toggleOverview

def closeOverview : Option Layout := if l.overviewOpen then l.toggleOverview else some l

/-- The index is that of a workspace on the active monitor. -/
def toggleOverviewToWorkspace (idx : ℕ) : Option Layout := do
  let l ← l.onActiveMonitor fun m =>
    if idx < m.workspaces.length then m.activateWorkspace idx else none
  l.toggleOverview

def overviewGestureBegin : Option Layout :=
  setMonitorsOverviewState { l with
    overviewOpen := true
    overviewProgress := some (.gesture ⟨.new, l.overviewValue, l.overviewValue⟩) }

def overviewGestureUpdate (deltaY timestamp : ℚ) : Option Layout :=
  match l.overviewProgress with
  | some (.gesture g) =>
    let tracker := g.tracker.push deltaY timestamp
    let value := overviewGestureRubberBand.clamp 0 1 (g.start + tracker.pos / overviewGestureMovement)
    let l := { l with overviewProgress := some (.gesture { g with tracker := tracker, value := value }) }
    if g.value = value then some l else l.setMonitorsOverviewState
  | _ => some l

def overviewGestureEnd : Option Layout :=
  match l.overviewProgress with
  | some (.gesture g) =>
    -- Take into account any idle time between the last event and now.
    let tracker := g.tracker.push 0 l.clock
    let value := round (clamp (g.start + tracker.projectedEndPos / overviewGestureMovement) 0 1)
    setMonitorsOverviewState { l with
      overviewOpen := value = 1
      overviewProgress := some (.animation ⟨g.value, value⟩) }
  | _ => some l

/-! Gestures. -/

def workspaceSwitchGestureBegin (output : Output) (isTouchpad : Bool) : Option Layout :=
  if l.monitors = [] then none
  else
    l.forMonitors fun m =>
      if m.output.same output then some (m.workspaceSwitchGestureBegin isTouchpad)
      -- Cancel the gesture on other outputs.
      else m.workspaceSwitchGestureEnd none

/-- An operation of the first monitor of a kind, if there is one. -/
def onFirstMonitor (p : Monitor → Bool) (f : Monitor → Option Monitor) :
    Option Layout :=
  match l.monitors.findIdx? p with
  | none => some l
  | some idx => l.onMonitor idx f

def workspaceSwitchGestureUpdate (deltaY timestamp : ℚ) (isTouchpad : Bool) :
    Option Layout :=
  l.onFirstMonitor (·.hasSwitchGesture isTouchpad)
    (·.workspaceSwitchGestureUpdate deltaY timestamp isTouchpad)

def workspaceSwitchGestureEnd (isTouchpad : Option Bool) : Option Layout :=
  l.onFirstMonitor (·.hasGesture isTouchpad) (·.workspaceSwitchGestureEnd isTouchpad)

/-- Apply a function of the index to every workspace. -/
def mapWorkspaces (m : Monitor) (f : ℕ → Workspace → Workspace) : Monitor :=
  { m with workspaces := m.workspaces.mapIdx f }

def viewOffsetGestureBegin (output : Output) (workspaceIdx : Option ℕ)
    (isTouchpad : Bool) : Option Layout :=
  if l.monitors = [] then none
  else
    l.forMonitors fun m => some <| mapWorkspaces m fun idx ws =>
      if m.output.same output ∧ idx = workspaceIdx.getD m.activeWorkspaceIdx
      then ws.viewOffsetGestureBegin isTouchpad
      -- Cancel the gesture on other workspaces.
      else ws.viewOffsetGestureEnd none

/-- An operation of the first workspace of a kind on the monitors, if there is one. -/
def onFirstVisible (p : Workspace → Bool) (f : Workspace → Workspace) :
    Option Layout :=
  l.onFirstMonitor (·.workspaces.any p) (·.onFirst p (some <| f ·))

def viewOffsetGestureUpdate (deltaX timestamp : ℚ) (isTouchpad : Bool) :
    Option Layout :=
  l.onFirstVisible (·.scrolling.hasViewGesture isTouchpad)
    (·.viewOffsetGestureUpdate (deltaX / l.overviewZoom) timestamp isTouchpad)

def viewOffsetGestureEnd (isTouchpad : Option Bool) : Option Layout :=
  l.onFirstVisible (·.scrolling.hasGesture isTouchpad) (·.viewOffsetGestureEnd isTouchpad)

def dndUpdate (output : Output) : Option Layout :=
  if l.dnd.isSome then some { l with dnd := some ⟨output, none⟩ }
  else do
    let l ← forMonitors { l with dnd := some ⟨output, none⟩ } (some ·.dndScrollGestureBegin)
    l.forWorkspaces (some ·.dndScrollGestureBegin)

def dndEnd : Option Layout :=
  if l.dnd.isNone then some l else endDndScroll { l with dnd := none }

/-! Time. -/

/-- The values of the running animations, and which of them are done. -/
structure AnimationState where
  monitors : ℕ → Monitor.AnimationState
  workspaces : ℕ → Workspace.AnimationState
  overviewValue : ℚ
  overviewDone : Bool

/-- What the pointer of a drag is over: how far it is in the zone that switches the workspace, the
workspace under it with how far it is in the zone that scrolls the view, and what can be held. -/
structure PointerState where
  switchDelta : ℚ
  workspace : Option (ℕ × ℚ)
  target : Option DndHoldTarget

def OverviewProgress.setValue (value : ℚ) : OverviewProgress → OverviewProgress
  | animation anim => animation { anim with value := value }
  | gesture g => gesture g

def setClock (now : ℚ) (anim : AnimationState) : Option Layout :=
  let l := { l with
    clock := now
    overviewProgress := l.overviewProgress.map (.setValue anim.overviewValue) }
  match l.monitorSet with
  | .normal _ _ _ => l.forMonitors fun m => some (m.setClock now (anim.monitors m.output.handle))
  | .noOutputs _ => l.forWorkspaces fun ws => some (ws.setClock now (anim.workspaces ws.id))

/-- Scroll the view of a monitor if needed. -/
def dndScroll (m : Monitor) (isScrolling : Bool) (pointer : PointerState) :
    Option (Bool × Monitor) := do
  let (scrolled, m) ← m.dndScrollGestureScroll pointer.switchDelta
  match pointer.workspace.filter fun _ => isScrolling with
  | none => some (scrolled, m)
  | some (id, delta) =>
    let idx ← m.workspaces.findIdx? (·.id == id)
    let ws ← m.workspaces[idx]?
    return (scrolled || ws.scrolling.scrolledByDnd delta,
      m.setWorkspace idx (ws.dndScrollGestureScroll delta))

/-- Activate what the pointer was held over; returns its workspace. -/
def activateTarget (m : Monitor) : DndHoldTarget → Option (Monitor × ℕ)
  | .window id => do
    let idx ← m.workspaces.findIdx? (·.hasWindow id)
    let m ← m.onWorkspace idx fun ws => (ws.activateWindow id).map (·.2)
    return (m, idx)
  | .workspace id => (m.workspaces.findIdx? (·.id == id)).map fun idx => (m, idx)

def activateHeld (m : Monitor) (target : DndHoldTarget) : Option Monitor := do
  let (m, idx) ← activateTarget m target
  let m ← m.dndScrollGestureEnd
  m.activateWorkspace idx

/-- A target that is held; the time starts anew on a different one. -/
def holdOn (hold : Option DndHold) (target : DndHoldTarget) (now : ℚ) : DndHold :=
  match hold with
  | some h => if h.target = target then h else ⟨now, target⟩
  | none => ⟨now, target⟩

def updateDndHold (dnd : DndData) (idx : ℕ) (target : Option DndHoldTarget) :
    Option Layout :=
  match target with
  | none => some { l with dnd := some { dnd with hold := none } }
  | some target =>
    let hold := holdOn dnd.hold target l.clock
    if 3 / 4 ≤ max 0 (l.clock - hold.startTime) then do
      let l ← onMonitor { l with dnd := some { dnd with hold := none } } idx (activateHeld · target)
      (l.focusOutput dnd.output).closeOverview
    else some { l with dnd := some { dnd with hold := some hold } }

/-- Don't trigger a DnD hold while scrolling. -/
def afterDndScroll (idx : ℕ) (scrolled : Bool) (target : Option DndHoldTarget) :
    Option Layout :=
  match l.dnd with
  | none => some l
  | some dnd =>
    if scrolled then some { l with dnd := some { dnd with hold := none } }
    else l.updateDndHold dnd idx target

/-- The output that is dragged over, and whether the drag scrolls the view. -/
def dragged : Option (Output × Bool) :=
  (l.dnd.map fun dnd => (dnd.output, true)).or (l.moving.map fun d => (d.output, !d.isFloating))

def advanceDnd (pointer : PointerState) : Option Layout :=
  match l.dragged with
  | none => some l
  | some (output, isScrolling) =>
    match l.monitorIdxForOutput output with
    | none => some l
    | some idx => do
      let m ← l.monitorAt idx
      let (scrolled, m) ← dndScroll m isScrolling pointer
      (l.setMonitor idx m).afterDndScroll idx scrolled pointer.target

/-- The progress of the overview after its closing animation is done. -/
def advanceOverview (done : Bool) : Layout :=
  match l.overviewProgress with
  | some (.animation _) => if !l.overviewOpen ∧ done then { l with overviewProgress := none } else l
  | _ => l

def advanceAnimations (anim : AnimationState) (pointer : PointerState) :
    Option Layout := do
  let l ← l.advanceDnd pointer
  let l := l.advanceOverview anim.overviewDone
  match l.monitorSet with
  | .normal _ _ _ =>
    l.forMonitors fun m =>
      (m.setOverviewProgress (l.overviewProgress.map OverviewProgress.value)).advanceAnimations
        (anim.monitors m.output.handle)
  | .noOutputs _ => l.forWorkspaces fun ws => some (ws.advanceAnimations (anim.workspaces ws.id))

/-- Whether something is dragged and, if so, whether the drag scrolls the view. -/
def ongoingScrollingDnd : Option (Option Bool) :=
  if l.dnd.isSome then some (some true)
  else
    match l.interactiveMove with
    | none => some none
    | some (.moving d) => some (some !d.isFloating)
    | some (.starting window _) =>
      (l.workspaces.find? (·.hasWindow window)).map fun ws => some !ws.isFloating window

/-- Begin the scroll on new monitors and when opening the overview. -/
def refreshSwitch (m : Monitor) (overviewOpen : Bool) (ongoing : Option Bool) : Option Monitor :=
  if ongoing.isSome ∧ overviewOpen then some m.dndScrollGestureBegin
  else if overviewOpen then some m
  else m.dndScrollGestureEnd

/-- Lock or unlock the view for a drag. Without one, cancel the view offset gesture after workspace
switches, moves, etc. -/
def refreshView (ws : Workspace) (ongoing : Option Bool) (cancel : Bool) : Workspace :=
  match ongoing with
  | some true => ws.refresh.dndScrollGestureBegin
  | some false => ws.refresh.dndScrollGestureEnd
  | none => if cancel then ws.refresh.viewOffsetGestureEnd none else ws.refresh

def refreshMonitor (m : Monitor) (overviewOpen : Bool) (ongoing : Option Bool) : Option Monitor := do
  let m ← refreshSwitch m overviewOpen ongoing
  return mapWorkspaces m fun idx ws =>
    refreshView ws ongoing (!overviewOpen && idx != m.activeWorkspaceIdx)

def refresh : Option Layout := do
  let ongoing ← l.ongoingScrollingDnd
  let l := l.onMoving fun d => { d with tile := d.tile.setInteractiveResize none }
  match l.monitorSet with
  | .normal _ _ _ => l.forMonitors (refreshMonitor · l.overviewOpen ongoing)
  | .noOutputs _ => l.forWorkspaces fun ws => some (ws.refresh.viewOffsetGestureEnd none)

end Macniri.Layout
