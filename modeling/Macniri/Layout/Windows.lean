import Macniri.Layout.MonitorSet

/-! Windows that come, go and move between outputs, and the interactive move. -/
namespace Macniri.Layout

def interactiveMoveStartThreshold : ℚ := 256 * 256

/-- How a window is opened. `renderPos` is where the window it opens next to is drawn. -/
structure WindowOpening where
  width : Option PresetSize
  height : Option PresetSize
  isFullWidth : Bool
  isFloating : Bool
  activate : ActivateWindow
  renderPos : Point
  deriving DecidableEq, Repr

/-- Where a moved window is dropped: the workspace under the pointer, the place in its columns, and
the position relative to it. -/
structure DropPoint where
  workspace : InsertWorkspace
  position : InsertPosition
  pos : Point
  deriving DecidableEq, Repr

namespace Workspace

/-- Set the default height of a new scrolling window. -/
def setOpeningHeight (ws : Workspace) (window : ℕ) (opening : WindowOpening) : Option Workspace :=
  match opening.height with
  | none => some ws
  | some height =>
    if opening.isFloating then some ws
    else ws.setWindowHeight (some window) (SizeChange.ofPreset height)

end Workspace

namespace Monitor

def openWindow (m : Monitor) (window : Window) (target : MonitorAddWindowTarget)
    (opening : WindowOpening) : Option Monitor := do
  let (idx, _) ← m.resolveAddWindowTarget target
  let ws ← m.workspaces[idx]?
  let m ← m.addWindow window target opening.activate
    (ws.resolveScrollingWidth window opening.width) opening.isFullWidth opening.isFloating
    opening.renderPos
  m.onFirst (·.hasWindow window.id) (·.setOpeningHeight window.id opening)

/-- After a window is gone: its workspace is cleaned up if it is not active and not last. -/
def cleanUpAfterRemoval (m : Monitor) (idx : ℕ) : Option Monitor :=
  if m.workspaceSwitch.isSome then some m
  else if m.isUnused idx ∧ idx + 1 ≠ m.workspaces.length then (m.removeInactiveAt idx).dropSecondEmpty
  else m.dropSecondEmpty

def removeWindow (m : Monitor) (window : ℕ) : Option (RemovedTile × Monitor) := do
  let idx ← m.workspaces.findIdx? (·.hasWindow window)
  let ws ← m.workspaces[idx]?
  let (removed, ws) ← ws.removeTile window
  let m ← (m.setWorkspace idx ws).cleanUpAfterRemoval idx
  return (removed, m)

/-- The workspace that a window is dropped on, possibly a new one. -/
def resolveInsertWorkspace (m : Monitor) : InsertWorkspace → Option (Monitor × ℕ)
  | .existing id => (m.workspaces.findIdx? (·.id == id)).map fun idx => (m, idx)
  | .newAt idx =>
    -- Reuse the top empty workspace.
    if m.emptyAboveFirst ∧ idx = 0 then some (m, 0)
    -- Reuse the bottom empty workspace.
    else if m.workspaces.length - 1 ≤ idx then some (m, m.workspaces.length - 1)
    else some (m.addWorkspaceAt idx, idx)

end Monitor

namespace InteractiveMoveData

/-- The options of the tile for the output and the workspace where it is now. -/
def options (d : InteractiveMoveData) (options : Options) (output : Output) : Options :=
  ((options.withMergedLayout d.outputConfig).withMergedLayout
    (d.workspaceConfig.map Prod.snd)).adjustedForScale output.scale

def updateConfig (d : InteractiveMoveData) (options : Options) (output : Output) :
    InteractiveMoveData :=
  { d with tile := d.tile.updateConfig output.viewSize output.scale (d.options options output) }

/-- The tile as it is dropped on the floating space of a workspace. -/
def floatingTile (d : InteractiveMoveData) (ws : Workspace) (drop : DropPoint) : Tile :=
  { d.tile with
    floatingPos := match drop.workspace with
      | .existing _ => some (ws.floating.logicalToSizeFrac drop.pos)
      | .newAt _ => none
    -- Take into account any window resizing that took place during the move.
    floatingWindowSize := d.tile.window.expectedSize.or d.tile.floatingWindowSize }

/-- The window targets floating now: restore its floating size. -/
def restoreFloatingSize (d : InteractiveMoveData) : InteractiveMoveData :=
  let win := d.tile.window
  let size := d.tile.floatingWindowSize.getD (win.expectedSize.getD ⟨0, 0⟩)
  let size : ISize := ⟨ensureMinMaxSizeMaybeZero size.w win.minSize.w win.maxSize.w,
    ensureMinMaxSizeMaybeZero size.h win.minSize.h win.maxSize.h⟩
  { d with tile := { d.tile with window := win.requestSizeOnce size } }

end InteractiveMoveData

namespace Monitor

/-- Where in a workspace a moved window goes. -/
def dropPosition (isFloating : Bool) (drop : DropPoint) : InsertPosition :=
  if isFloating then .floating
  else
    match drop.workspace with
    | .existing _ => drop.position
    | .newAt _ => .newColumn 0

def dropTile (m : Monitor) (d : InteractiveMoveData) (drop : DropPoint)
    (allowToActivateWorkspace : Bool) : Option Monitor := do
  let (m, idx) ← m.resolveInsertWorkspace drop.workspace
  let ws ← m.workspaces[idx]?
  match dropPosition d.isFloating drop with
  | .newColumn columnIdx =>
    m.addTile d.tile (.workspace ws.id (some columnIdx)) .yes allowToActivateWorkspace d.width
      d.isFullWidth false ⟨0, 0⟩
  | .inColumn columnIdx tileIdx =>
    m.addTileToColumn idx columnIdx (some tileIdx) d.tile true allowToActivateWorkspace
  | .floating =>
    -- The pointer is never over a floating place of a window that is not floating.
    if d.isFloating then
      m.addTile (d.floatingTile ws drop) (.workspace ws.id none) .yes allowToActivateWorkspace
        d.width d.isFullWidth true ⟨0, 0⟩
    else none

end Monitor

variable (l : Layout)

/-! Opening and closing. -/

/-- The monitor that a window opens on, and the target there. -/
def resolveTarget : AddWindowTarget → Option (ℕ × MonitorAddWindowTarget)
  | .auto => l.activeMonitorIdx.map fun idx => (idx, .auto)
  | .output output => (l.monitorIdxForOutput output).map fun idx => (idx, .auto)
  | .workspace id =>
    (l.monitors.findIdx? (·.workspaces.any (·.id == id))).map fun idx => (idx, .workspace id none)
  | .nextTo window =>
    match l.moving.filter (·.tile.id == window) with
    -- The next_to window is being interactively moved.
    | some d => ((l.monitorIdxForOutput d.output).or l.activeMonitorIdx).map fun idx => (idx, .auto)
    | none => (l.monitors.findIdx? (·.hasWindow window)).map fun idx => (idx, .nextTo window)

/-- Without outputs there may be no workspaces at all. -/
def ensureWorkspace : Layout :=
  match l.monitorSet with
  | .noOutputs [] =>
    { l with
      monitorSet := .noOutputs [Workspace.newNoOutputs l.nextId l.clock l.options]
      nextId := l.nextId + 1 }
  | _ => l

/-- The same without outputs. -/
def resolveTargetNoOutputs :
    AddWindowTarget → Option (Layout × ℕ × WorkspaceAddWindowTarget)
  | .auto => some (l.ensureWorkspace, 0, .auto)
  | .output _ => none
  | .workspace id => (l.workspaces.findIdx? (·.id == id)).map fun idx => (l, idx, .auto)
  | .nextTo window =>
    if l.isMoving window then some (l.ensureWorkspace, 0, .auto)
    else (l.workspaces.findIdx? (·.hasWindow window)).map fun idx => (l, idx, .nextTo window)

/-- Apply an operation to a workspace while there are no outputs. -/
def onWorkspaceNoOutputs (idx : ℕ) (f : Workspace → Option Workspace) :
    Option Layout :=
  match l.monitorSet with
  | .normal _ _ _ => none
  | .noOutputs workspaces => do
    let ws ← workspaces[idx]?
    let ws ← f ws
    return { l with monitorSet := .noOutputs (workspaces.set idx ws) }

def addWindow (window : Window) (target : AddWindowTarget) (opening : WindowOpening) :
    Option Layout :=
  match l.monitorSet with
  | .normal _ _ _ => do
    let (idx, target) ← l.resolveTarget target
    let l ← l.onMonitor idx (·.openWindow window target opening)
    return l.activateMonitorIf (opening.activate.mapSmart false) idx
  | .noOutputs _ => do
    let (l, idx, target) ← l.resolveTargetNoOutputs target
    l.onWorkspaceNoOutputs idx fun ws => do
      let ws ← ws.addTile (ws.makeTile window) target opening.activate
        (ws.resolveScrollingWidth window opening.width) opening.isFullWidth opening.isFloating
        opening.renderPos
      ws.setOpeningHeight window.id opening

/-- End the DnD scroll everywhere. -/
def endDndScroll : Option Layout := do
  let l ← l.forMonitors (·.dndScrollGestureEnd)
  l.forWorkspaces (some ·.dndScrollGestureEnd)

/-- Unlock the view on the workspaces, but if the moved window was active, preserve that. -/
def unlockView (ws : Workspace) (window : ℕ) : Option Workspace :=
  let wasActive := ws.activeWindow.any (·.id == window)
  let ws := ws.dndScrollGestureEnd
  if wasActive then (ws.activateWindow window).map (·.2) else some ws

/-- The end of a move whose window is still in the layout. -/
def cancelMove (window : ℕ) : Option Layout := do
  let l ← { l with interactiveMove := none }.forMonitors (·.dndScrollGestureEnd)
  l.forWorkspaces (unlockView · window)

def removeFromWorkspaces (window : ℕ) : Option (Option RemovedTile × Layout) :=
  match l.monitorSet with
  | .normal monitors _ _ =>
    match monitors.findIdx? (·.hasWindow window) with
    | none => some (none, l)
    | some idx => do
      let m ← l.monitorAt idx
      let (removed, m) ← m.removeWindow window
      return (some removed, l.setMonitor idx m)
  | .noOutputs workspaces =>
    match workspaces.findIdx? (·.hasWindow window) with
    | none => some (none, l)
    | some idx => do
      let ws ← workspaces[idx]?
      let (removed, ws) ← ws.removeTile window
      -- Clean up empty workspaces.
      let workspaces := if ws.hasWindowsOrName then workspaces.set idx ws else workspaces.eraseIdx idx
      return (some removed, { l with monitorSet := .noOutputs workspaces })

def removeWindow (window : ℕ) : Option (Option RemovedTile × Layout) :=
  match l.interactiveMove with
  | some (.starting windowId _) =>
    if windowId = window then (l.cancelMove window).bind (·.removeFromWorkspaces window)
    else l.removeFromWorkspaces window
  | some (.moving d) =>
    if d.tile.id = window then do
      let l ← { l with interactiveMove := none }.endDndScroll
      return (some ⟨d.tile, d.width, d.isFullWidth, false⟩, l)
    else l.removeFromWorkspaces window
  | none => l.removeFromWorkspaces window

/-! Between outputs. -/

/-- The monitor and the workspace of a window, the active ones by default. -/
def placeOf : Option ℕ → Option (ℕ × ℕ)
  | some window => do
    let monIdx ← l.monitors.findIdx? (·.hasWindow window)
    let m ← l.monitors[monIdx]?
    let wsIdx ← m.workspaces.findIdx? (·.hasWindow window)
    return (monIdx, wsIdx)
  | none => do
    let monIdx ← l.activeMonitorIdx
    let m ← l.monitors[monIdx]?
    return (monIdx, m.activeWorkspaceIdx)

/-- Whether the monitor of a window that leaves for another output is activated with it. -/
def activatesMoved (window : Option ℕ) (monIdx : ℕ) (activate : ActivateWindow) :
    Bool :=
  activate.mapSmart (window.all fun id => l.activeMonitorIdx == some monIdx &&
    (l.monitors[monIdx]?.bind (·.activeWindow)).any (·.id == id))

/-- Take a tile from a workspace; the inner option is empty if there is none. -/
def takeTile (monIdx wsIdx : ℕ) (window : Option ℕ) :
    Option (Option (RemovedTile × Layout)) := do
  let m ← l.monitorAt monIdx
  let ws ← m.workspaces[wsIdx]?
  match ← Monitor.removeWindowOrActive ws window with
  | none => some none
  | some (removed, ws) => return some (removed, l.setMonitor monIdx (m.setWorkspace wsIdx ws))

def moveToOutput (window : Option ℕ) (output : Output) (targetWsIdx : Option ℕ)
    (activate : ActivateWindow) : Option Layout :=
  if l.targetsMoving window ∨ l.monitors = [] then some l
  else do
    let newIdx ← l.monitorIdxForOutput output
    let (monIdx, wsIdx) ← l.placeOf window
    let target ← l.monitors[newIdx]?
    let workspaceIdx := targetWsIdx.getD target.activeWorkspaceIdx
    if monIdx = newIdx ∧ wsIdx = workspaceIdx then some l
    else
      match target.workspaces[workspaceIdx]? with
      | none => some l
      | some ws =>
        let activates := l.activatesMoved window monIdx activate
        match ← l.takeTile monIdx wsIdx window with
        | none => some l
        | some (removed, l) =>
          let l ← l.onMonitor newIdx (·.addRemoved removed ws.id (if activates then .yes else .no))
          (l.activateMonitorIf activates newIdx).onMonitor monIdx (·.cleanUpUnlessSwitching)

def addColumnByIdx (monitorIdx workspaceIdx : ℕ) (column : Column) (activate : Bool) :
    Option Layout := do
  let l ← l.onMonitor monitorIdx (·.addColumn workspaceIdx column activate)
  return l.activateMonitorIf activate monitorIdx

def moveColumnToOutput (output : Output) (targetWsIdx : Option ℕ) (activate : Bool) :
    Option Layout :=
  match l.activeMonitorIdx with
  | none => some l
  | some monIdx => do
    let newIdx ← l.monitorIdxForOutput output
    let m ← l.monitorAt monIdx
    let ws ← m.activeWorkspace
    if ws.floatingIsActive.get then l.moveToOutput none output none .smart
    else
      match ← ws.removeActiveColumn with
      | none => some l
      | some (column, ws) =>
        let l := l.setMonitor monIdx (m.setWorkspace m.activeWorkspaceIdx ws)
        let target ← l.monitors[newIdx]?
        let workspaceIdx := min (targetWsIdx.getD target.activeWorkspaceIdx)
          (target.workspaces.length - 1)
        l.addColumnByIdx newIdx workspaceIdx column activate

/-- The monitor that a workspace is moved from, the active one by default. -/
def sourceMonitorIdx : Option Output → Option ℕ
  | some output => l.monitorIdxForOutput output
  | none => l.activeMonitorIdx

def moveWorkspaceToOutputById (oldIdx : ℕ) (oldOutput : Option Output)
    (newOutput : Output) : Option Layout :=
  if l.monitors = [] then some l
  else do
    let currentIdx ← l.sourceMonitorIdx oldOutput
    let targetIdx ← l.monitorIdxForOutput newOutput
    let current ← l.monitorAt currentIdx
    if current.workspaces.length ≤ oldIdx then some l
    -- Just update the original output since this is an explicit movement action.
    else if currentIdx = targetIdx then
      return l.setMonitor currentIdx { current with
        workspaces := current.workspaces.modify oldIdx
          ({ · with originalOutput := OutputId.new current.output }) }
    else
      -- Only switch the active monitor if the moved workspace is the focused one.
      let activate := l.activeMonitorIdx == some currentIdx && oldIdx == current.activeWorkspaceIdx
      let (ws, current) ← current.removeWorkspaceByIdx oldIdx
      let ws := { ws with originalOutput := OutputId.new newOutput }
      let l ← (l.setMonitor currentIdx current).onMonitor targetIdx fun target =>
        target.insertWorkspace ws (target.activeWorkspaceIdx + 1) activate
      return l.activateMonitorIf activate targetIdx

def moveWorkspaceToOutput (output : Output) : Option Layout :=
  match l.activeMonitor with
  | none => some l
  | some m => l.moveWorkspaceToOutputById m.activeWorkspaceIdx none output

/-! The interactive move. -/

/-- `visible` tells whether the workspace of the window is drawn. -/
def interactiveMoveBegin (windowId : ℕ) (output : Output) (visible : Bool) :
    Option Layout :=
  if l.interactiveMove.isSome || !visible then some l
  else
    match l.monitors.find? (·.hasWindow windowId) with
    | none => some l
    | some m =>
      if !m.output.same output then some l
      else do
        let ws ← m.workspaces.find? (·.hasWindow windowId)
        let l := { l with interactiveMove := some (.starting windowId ⟨0, 0⟩) }
        let l ← l.forMonitors (some ·.dndScrollGestureBegin)
        -- Lock the view for scrolling interactive move.
        l.forWorkspacesIf (!ws.isFloating windowId) (some ·.dndScrollGestureBegin)

/-- Take the window out of its workspace; its size is restored first. -/
def detachWindow (window : ℕ) (renderPos : Point) :
    Option (Option RemovedTile × Layout) := do
  let l ← { l with interactiveMove := none }.onFirstWorkspace (·.hasWindow window) fun ws => do
    let ws ← ws.setFullscreen window false renderPos
    ws.setMaximized window false renderPos
  l.removeWindow window

/-- The move goes on without the window in the layout. -/
def startMoving (window : ℕ) (output : Output) (renderPos : Point) : Option Layout := do
  let ws ← l.workspaces.find? (·.hasWindow window)
  let outputConfig := l.outputConfig output
  let (removed, l) ← l.detachWindow window renderPos
  let removed ← removed
  let d : InteractiveMoveData :=
    { tile := removed.tile
      output := output
      width := removed.width
      isFullWidth := removed.isFullWidth
      isFloating := removed.isFloating
      outputConfig := outputConfig
      workspaceConfig := ws.layoutConfig.map fun config => (ws.id, config) }
  -- Unlock the view in case it was locked moving a window that goes to floating.
  let l ← l.forWorkspacesIf removed.isFloating (some ·.dndScrollGestureEnd)
  return { l with interactiveMove := some (.moving (d.updateConfig l.options output)) }

/-- The move while the window is in the layout: it starts to move past a threshold. -/
def updateStarting (window : ℕ) (pointerDelta delta : Point) (output : Output)
    (renderPos : Point) : Option Layout := do
  let zoom := l.overviewZoom
  let pointerDelta : Point := ⟨pointerDelta.x + delta.x / zoom, pointerDelta.y + delta.y / zoom⟩
  let sqDist := pointerDelta.x * pointerDelta.x + pointerDelta.y * pointerDelta.y
  let ws ← l.workspaces.find? (·.hasWindow window)
  if !ws.isFloating window ∧ sqDist < interactiveMoveStartThreshold then
    return { l with interactiveMove := some (.starting window pointerDelta) }
  else l.startMoving window output renderPos

/-- The move of a window that is not in the layout; `workspaceUnder` is where the pointer is. -/
def updateMoving (d : InteractiveMoveData) (output : Output)
    (workspaceUnder : Option ℕ) : Layout :=
  -- If moved over a different workspace, reset the config override.
  let leaves := d.workspaceConfig.any fun config => some config.1 != workspaceUnder
  let d := if leaves then { d with workspaceConfig := none } else d
  if d.output.same output then
    { l with
      interactiveMove := some (.moving (if leaves then d.updateConfig l.options output else d)) }
  else
    let d := { d with
      output := output
      outputConfig := l.outputConfig output }
    { l.focusOutput output with
      interactiveMove := some (.moving (d.updateConfig l.options output)) }

def interactiveMoveUpdate (window : ℕ) (delta : Point) (output : Output)
    (workspaceUnder : Option ℕ) (renderPos : Point) : Option Layout :=
  match l.interactiveMove with
  | some (.starting windowId pointerDelta) =>
    if windowId = window then l.updateStarting window pointerDelta delta output renderPos
    else some l
  | some (.moving d) =>
    if d.tile.id = window then some (l.updateMoving d output workspaceUnder) else some l
  | none => some l

/-- Put a moved window back into the layout. -/
def dropWindow (d : InteractiveMoveData) (drop : DropPoint) : Option Layout :=
  -- Dragging in the overview shouldn't switch the workspace and so on.
  let allowToActivateWorkspace := !l.overviewOpen
  match l.monitorSet with
  | .normal _ _ activeMonitorIdx =>
    match l.monitorIdxForOutput d.output with
    | some idx => l.onMonitor idx (·.dropTile d drop allowToActivateWorkspace)
    | none => l.onMonitor activeMonitorIdx fun m => do
      -- No point in trying to use the pointer position on the wrong output.
      let first ← m.workspaces.head?
      m.dropTile d { drop with workspace := .existing first.id } allowToActivateWorkspace
  | .noOutputs _ =>
    l.ensureWorkspace.onWorkspaceNoOutputs 0
      (·.addTile d.tile .auto .yes d.width d.isFullWidth d.isFloating ⟨0, 0⟩)

def interactiveMoveEnd (window : ℕ) (drop : DropPoint) : Option Layout :=
  match l.interactiveMove with
  | some (.starting windowId _) => if windowId = window then l.cancelMove window else some l
  | some (.moving d) =>
    if d.tile.id = window then do
      let l ← { l with interactiveMove := none }.forMonitors (·.dndScrollGestureEnd)
      -- Unlock the view on the workspaces.
      let l ← l.forWorkspacesIf (!d.isFloating) (some ·.dndScrollGestureEnd)
      l.dropWindow d drop
    else some l
  | none => some l

end Macniri.Layout
