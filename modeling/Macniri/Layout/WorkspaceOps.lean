import Macniri.Layout.Workspace

/-! The operations on a workspace: each goes to the scrolling or to the floating space. -/
namespace Macniri.Layout

namespace Workspace

variable (ws : Workspace)

/-! Focus. -/

/-- A focus operation of the active space that tells whether it changed the focus. -/
def focusOnActiveSpace (f : FloatingSpace → Option (Bool × FloatingSpace))
    (focused : ScrollingSpace → Bool) (g : ScrollingSpace → ScrollingSpace) :
    Option (Bool × Workspace) :=
  if ws.floatingIsActive.get then
    (f ws.floating).map fun (changed, s) => (changed, { ws with floating := s })
  else some (focused ws.scrolling, { ws with scrolling := g ws.scrolling })

def focusLeft : Option (Bool × Workspace) :=
  ws.focusOnActiveSpace (·.focusLeft) (·.focusedLeft) (·.focusLeft)

def focusRight : Option (Bool × Workspace) :=
  ws.focusOnActiveSpace (·.focusRight) (·.focusedRight) (·.focusRight)

def focusDown : Option (Bool × Workspace) :=
  ws.focusOnActiveSpace (·.focusDown) (·.focusedDown) (·.focusDown)

def focusUp : Option (Bool × Workspace) :=
  ws.focusOnActiveSpace (·.focusUp) (·.focusedUp) (·.focusUp)

def focusColumnFirst : Option Workspace :=
  ws.onActiveSpace (·.focusLeftmost) (some ·.focusColumnFirst)

def focusColumnLast : Option Workspace :=
  ws.onActiveSpace (·.focusRightmost) (some ·.focusColumnLast)

def focusWindowTop : Option Workspace :=
  ws.onActiveSpace (·.focusTopmost) (some ·.focusTop)

def focusWindowBottom : Option Workspace :=
  ws.onActiveSpace (·.focusBottommost) (some ·.focusBottom)

/-- Focus in a direction, or wrap around if there is nothing there. -/
def focusOr (f : Workspace → Option (Bool × Workspace))
    (other : Workspace → Option Workspace) : Option Workspace := do
  let (changed, ws) ← f ws
  if changed then some ws else other ws

def focusColumnRightOrFirst : Option Workspace :=
  ws.focusOr focusRight focusColumnFirst

def focusColumnLeftOrLast : Option Workspace :=
  ws.focusOr focusLeft focusColumnLast

def focusWindowDownOrTop : Option Workspace :=
  ws.focusOr focusDown focusWindowTop

def focusWindowUpOrBottom : Option Workspace :=
  ws.focusOr focusUp focusWindowBottom

def switchFocusFloatingTiling : Workspace :=
  -- If one of the spaces is empty, keep focus on the other.
  if ws.floating.isEmpty || ws.scrolling.columns.isEmpty then ws
  else { ws with floatingIsActive := if ws.floatingIsActive.get then .no else .yes }

def focusFloating : Workspace :=
  if ws.floatingIsActive.get then ws else ws.switchFocusFloatingTiling

def focusTiling : Workspace :=
  if ws.floatingIsActive.get then ws.switchFocusFloatingTiling else ws

def focusColumn (index : ℕ) : Workspace :=
  { ws.focusTiling with scrolling := ws.scrolling.focusColumn index }

def focusWindowInColumn (index : ℕ) : Option Workspace :=
  ws.onScrolling (some <| ·.focusWindowInColumn index)

/-- A floating window is only focused up and down. -/
def focusDownOrLeft : Option Workspace :=
  ws.onActiveSpace (fun s => s.focusDown.map (·.2)) (some ·.focusDownOrLeft)

def focusDownOrRight : Option Workspace :=
  ws.onActiveSpace (fun s => s.focusDown.map (·.2)) (some ·.focusDownOrRight)

def focusUpOrLeft : Option Workspace :=
  ws.onActiveSpace (fun s => s.focusUp.map (·.2)) (some ·.focusUpOrLeft)

def focusUpOrRight : Option Workspace :=
  ws.onActiveSpace (fun s => s.focusUp.map (·.2)) (some ·.focusUpOrRight)

/-- The result tells whether the window is on this workspace. -/
def activateWindow (window : ℕ) : Option (Bool × Workspace) :=
  if ws.floating.hasWindow window then
    (ws.floating.activateWindow window).map fun s =>
      (true, { ws with floating := s, floatingIsActive := .yes })
  else if ws.scrolling.hasWindow window then
    some (true,
      { ws with scrolling := ws.scrolling.activateWindow window, floatingIsActive := .no })
  else some (false, ws)

def activateWindowWithoutRaising (window : ℕ) : Bool × Workspace :=
  if ws.floating.hasWindow window then
    (true, { ws with
      floating := ws.floating.activateWindowWithoutRaising window, floatingIsActive := .yes })
  else if ws.scrolling.hasWindow window then
    (true, { ws with
      scrolling := ws.scrolling.activateWindow window
      floatingIsActive := match ws.floatingIsActive with
        | .no => .no
        | .noButRaised | .yes => .noButRaised })
  else (false, ws)

/-! Moves. -/

def moveOnActiveSpace (f : FloatingSpace → Option FloatingSpace)
    (moved : ScrollingSpace → Bool) (g : ScrollingSpace → ScrollingSpace) :
    Option (Bool × Workspace) :=
  if ws.floatingIsActive.get then
    (f ws.floating).map fun s => (true, { ws with floating := s })
  else some (moved ws.scrolling, { ws with scrolling := g ws.scrolling })

def moveLeft : Option (Bool × Workspace) :=
  ws.moveOnActiveSpace (·.moveLeft) (·.focusedLeft) (·.moveLeft)

def moveRight : Option (Bool × Workspace) :=
  ws.moveOnActiveSpace (·.moveRight) (·.focusedRight) (·.moveRight)

def moveDown : Option (Bool × Workspace) :=
  ws.moveOnActiveSpace (·.moveDown) (·.focusedDown) (·.moveDown)

def moveUp : Option (Bool × Workspace) :=
  ws.moveOnActiveSpace (·.moveUp) (·.focusedUp) (·.moveUp)

def moveColumnToFirst : Option Workspace :=
  ws.onScrolling (some ·.moveColumnToFirst)

def moveColumnToLast : Option Workspace :=
  ws.onScrolling (some ·.moveColumnToLast)

def moveColumnToIndex (index : ℕ) : Option Workspace :=
  ws.onScrolling (some <| ·.moveColumnToIndex index)

def consumeOrExpelWindowLeft (window : Option ℕ) : Option Workspace :=
  ws.onSpaceOf window some (·.consumeOrExpelWindowLeft window)

def consumeOrExpelWindowRight (window : Option ℕ) : Option Workspace :=
  ws.onSpaceOf window some (·.consumeOrExpelWindowRight window)

def consumeIntoColumn : Option Workspace := ws.onScrolling (·.consumeIntoColumn)

def expelFromColumn : Option Workspace := ws.onScrolling (·.expelFromColumn)

def swapWindowInDirection (direction : ScrollDirection) : Option Workspace :=
  ws.onScrolling (·.swapWindowInDirection direction)

/-! Sizing. -/

def toggleColumnTabbedDisplay : Option Workspace :=
  ws.onScrolling (·.toggleColumnTabbedDisplay)

def setColumnDisplay (display : ColumnDisplay) : Option Workspace :=
  ws.onScrolling (·.setColumnDisplay display)

def centerColumn : Option Workspace :=
  ws.onActiveSpace (·.centerWindow none) (some ·.centerColumn)

def centerWindow (window : Option ℕ) : Option Workspace :=
  ws.onSpaceOf window (·.centerWindow window) (·.centerWindow window)

def centerVisibleColumns : Option Workspace :=
  ws.onScrolling (some ·.centerVisibleColumns)

def toggleWidth (forwards : Bool) : Option Workspace :=
  ws.onActiveSpace (·.toggleWindowWidth none forwards) (·.toggleWidth forwards)

def toggleFullWidth : Option Workspace := ws.onScrolling (·.toggleFullWidth)

def setColumnWidth (change : SizeChange) : Option Workspace :=
  ws.onActiveSpace (·.setWindowWidth none change) (·.setWindowWidth none change)

def setWindowWidth (window : Option ℕ) (change : SizeChange) : Option Workspace :=
  ws.onSpaceOf window (·.setWindowWidth window change) (·.setWindowWidth window change)

def setWindowHeight (window : Option ℕ) (change : SizeChange) : Option Workspace :=
  ws.onSpaceOf window (·.setWindowHeight window change) (·.setWindowHeight window change)

def resetWindowHeight (window : Option ℕ) : Option Workspace :=
  ws.onSpaceOf window some (·.resetWindowHeight window)

def toggleWindowWidth (window : Option ℕ) (forwards : Bool) : Option Workspace :=
  ws.onSpaceOf window (·.toggleWindowWidth window forwards) (·.toggleWindowWidth window forwards)

def toggleWindowHeight (window : Option ℕ) (forwards : Bool) : Option Workspace :=
  ws.onSpaceOf window (·.toggleWindowHeight window forwards) (·.toggleWindowHeight window forwards)

def expandColumnToAvailableWidth : Option Workspace :=
  ws.onScrolling (some ·.expandColumnToAvailableWidth)

/-! Between floating and tiling. -/

/-- The tile with a floating position close to where it was, if it has none yet. -/
def withFloatingPos (tile : Tile) (renderPos : Point) : Tile :=
  if (ws.floating.storedOrDefaultTilePos tile).isSome then tile
  else
    let offset : ℚ := if ws.options.centerFocusedColumn = .always then 0 else 50
    let pos := ws.floating.clampWithinWorkingArea ⟨renderPos.x + offset, renderPos.y + offset⟩
      tile.tileSize
    { tile with floatingPos := some (ws.floating.logicalToSizeFrac pos) }

/-- Move a window from the floating to the scrolling space. -/
def floatingToScrolling (id : ℕ) (targetIsActive : Bool) : Option Workspace := do
  let (removed, floating) ← ws.floating.removeTile id
  let ws := { ws with floating := floating }
  ws.addScrolling none removed.tile targetIsActive removed.width removed.isFullWidth

/-- Move a window from the scrolling to the floating space. -/
def scrollingToFloating (id : ℕ) (targetIsActive : Bool) (renderPos : Point) :
    Option Workspace := do
  let (removed, scrolling) ← ws.scrolling.removeTile id
  let ws := { ws with scrolling := scrolling }
  let ws ← ws.liftFloating (·.addTile (ws.withFloatingPos removed.tile renderPos) targetIsActive)
  return if targetIsActive then { ws with floatingIsActive := .yes } else ws

def toggleWindowFloating (window : Option ℕ) (renderPos : Point) :
    Option Workspace :=
  let activeId := ws.activeWindow.map (·.id)
  let targetIsActive := window.all fun id => some id == activeId
  match window.or activeId with
  | none => some ws
  | some id =>
    if ws.floating.hasWindow id then ws.floatingToScrolling id targetIsActive
    else ws.scrollingToFloating id targetIsActive renderPos

def setWindowFloating (window : Option ℕ) (floating : Bool) (renderPos : Point) :
    Option Workspace :=
  if ws.targetsFloating window = floating then some ws
  else ws.toggleWindowFloating window renderPos

/-- Set the pending mode of a window in the scrolling layout. When it goes from normal to another
mode, remember if it should come back to floating. -/
def setScrollingPending (window : ℕ) (restoreToFloating : Bool)
    (set : ScrollingSpace → Option ScrollingSpace) : Option Workspace := do
  let tile ← ws.scrolling.findTile window
  let wasNormal := tile.window.pendingSizingMode == .normal
  let scrolling ← set ws.scrolling
  let tile ← scrolling.findTile window
  return { ws with scrolling :=
    if wasNormal && tile.window.pendingSizingMode != .normal then
      scrolling.modifyTile window fun t => { t with restoreToFloating := restoreToFloating }
    else scrolling }

/-- Whether an unfullscreen request of a window is one into floating. When going from fullscreen to
maximized, `restoreToFloating` is not considered yet. -/
def unfullscreensToFloating (window : ℕ) : Option Bool := do
  let col ← ws.scrolling.columns.find? (·.contains window)
  let tile ← col.tiles.find? (·.id == window)
  return col.isPendingFullscreen && !col.isPendingMaximized && tile.restoreToFloating

def setFullscreen (window : ℕ) (isFullscreen : Bool) (renderPos : Point) :
    Option Workspace :=
  if ws.floating.hasWindow window then
    if isFullscreen then do
      let ws ← ws.toggleWindowFloating (some window) renderPos
      ws.setScrollingPending window true (·.setFullscreen window true)
    -- Floating windows are never fullscreen.
    else some ws
  else if isFullscreen then ws.setScrollingPending window false (·.setFullscreen window true)
  else do
    let toFloating ← ws.unfullscreensToFloating window
    -- Unfullscreen and float in one call so it has a chance to request a (0, 0) size.
    if toFloating then ws.toggleWindowFloating (some window) renderPos
    else ws.setScrollingPending window false (·.setFullscreen window false)

def toggleFullscreen (window : ℕ) (renderPos : Point) : Option Workspace := do
  let tile ← ws.tiles.find? (·.id == window)
  ws.setFullscreen window (tile.window.pendingSizingMode != .fullscreen) renderPos

def unmaximizesToFloating (window : ℕ) : Option Bool := do
  let tile ← ws.scrolling.findTile window
  return tile.window.pendingSizingMode == .maximized && tile.restoreToFloating

def setMaximized (window : ℕ) (maximize : Bool) (renderPos : Point) :
    Option Workspace :=
  if ws.floating.hasWindow window then
    if maximize then do
      let ws ← ws.toggleWindowFloating (some window) renderPos
      ws.setScrollingPending window true (·.setMaximized window true)
    -- Floating windows are never maximized.
    else some ws
  else if maximize then ws.setScrollingPending window false (·.setMaximized window true)
  else do
    let toFloating ← ws.unmaximizesToFloating window
    if toFloating then ws.toggleWindowFloating (some window) renderPos
    else ws.setScrollingPending window false (·.setMaximized window false)

/-- Only the column knows whether a window that is fullscreen too is maximized. -/
def toggleMaximized (window : ℕ) (renderPos : Point) : Option Workspace :=
  let current := (ws.scrolling.columns.find? (·.contains window)).any (·.isPendingMaximized)
  ws.setMaximized window (!current) renderPos

/-- Set the stored floating position of a tile that is not floating. Without one, both components
have to be set at once. -/
def storedPosAfter (tile : Tile) (x y : PositionChange) : Option Point :=
  let sets : PositionChange → Bool
    | .setFixed _ | .setProportion _ => true
    | .adjustFixed _ | .adjustProportion _ => false
  let area := ws.floating.workingArea
  let pos := (ws.floating.storedOrDefaultTilePos tile).or
    (if sets x && sets y then some ⟨0, 0⟩ else none)
  pos.map fun pos => ws.floating.logicalToSizeFrac
    ⟨x.apply pos.x area.loc.x area.size.w, y.apply pos.y area.loc.y area.size.h⟩

def moveFloatingWindow (window : Option ℕ) (x y : PositionChange) :
    Option Workspace :=
  if ws.targetsFloating window then ws.liftFloating (·.moveWindow window x y)
  else
    match window.or (ws.scrolling.activeWindow.map (·.id)) with
    | none => some ws
    | some id => do
      let tile ← ws.scrolling.findTile id
      return match ws.storedPosAfter tile x y with
      | none => ws
      | some pos => { ws with scrolling :=
          ws.scrolling.modifyTile id fun t => { t with floatingPos := some pos } }

/-! Commits, gestures and periodic updates. -/

def descendantsAdded (window : ℕ) : Option Workspace :=
  ws.liftFloating (·.descendantsAdded window)

def updateWindow (window : ℕ) (commit : Commit) (ongoingResizeAnim : Bool) :
    Option Workspace :=
  ws.onSpaceOf (some window) (·.updateWindow window commit)
    (·.updateWindow window commit ongoingResizeAnim)

def refresh : Workspace :=
  { ws with scrolling := ws.scrolling.refresh, floating := ws.floating.refresh }

def viewOffsetGestureBegin (isTouchpad : Bool) : Workspace :=
  { ws with scrolling := ws.scrolling.viewOffsetGestureBegin isTouchpad }

def viewOffsetGestureUpdate (deltaX timestamp : ℚ) (isTouchpad : Bool) :
    Workspace :=
  { ws with scrolling := ws.scrolling.viewOffsetGestureUpdate deltaX timestamp isTouchpad }

def viewOffsetGestureEnd (isTouchpad : Option Bool) : Workspace :=
  { ws with scrolling := ws.scrolling.viewOffsetGestureEnd isTouchpad }

def dndScrollGestureBegin : Workspace :=
  { ws with scrolling := ws.scrolling.dndScrollGestureBegin }

/-- `delta` is how far the pointer is in the scrolling zone, times the speed. -/
def dndScrollGestureScroll (delta : ℚ) : Workspace :=
  { ws with scrolling := ws.scrolling.dndScrollGestureScroll delta }

def dndScrollGestureEnd : Workspace :=
  { ws with scrolling := ws.scrolling.dndScrollGestureEnd }

def interactiveResizeBegin (window : ℕ) (edges : ResizeEdge) : Option Workspace :=
  ws.onSpaceOf (some window) (·.interactiveResizeBegin window edges)
    (·.interactiveResizeBegin window edges)

def interactiveResizeUpdate (window : ℕ) (delta : Point) : Option Workspace :=
  ws.onSpaceOf (some window) (·.interactiveResizeUpdate window delta)
    (·.interactiveResizeUpdate window delta)

def interactiveResizeEnd (window : ℕ) : Option Workspace :=
  ws.onSpaceOf (some window) (some <| ·.interactiveResizeEnd (some window))
    (·.interactiveResizeEnd (some window))

/-- The values that the running animations of a workspace have at some time, and which are done. -/
structure AnimationState where
  viewValue : ℚ
  viewDone : Bool
  moveValue : ℕ → ℚ
  moveDone : ℕ → Bool

def setClock (now : ℚ) (anim : AnimationState) : Workspace :=
  { ws with scrolling := ws.scrolling.setClock now anim.viewValue anim.moveValue }

def advanceAnimations (anim : AnimationState) : Workspace :=
  { ws with scrolling := ws.scrolling.advanceAnimations anim.viewDone anim.moveDone }

/-- Change the window with the given id, wherever it is. -/
def modifyWindow (window : ℕ) (f : Window → Window) : Workspace :=
  let g (t : Tile) : Tile := { t with window := f t.window }
  { ws with
    scrolling := ws.scrolling.modifyTile window g
    floating := { ws.floating with
      tiles := ws.floating.tiles.map fun t => if t.id = window then g t else t } }

end Workspace

end Macniri.Layout
