import Mathlib.Data.List.MinMax
import Macniri.Scrolling.Ops

/-! Gestures, interactive resizes and the periodic updates of a scrolling space. -/
namespace Macniri.Layout

/-- A snapping point: a view position relative to the first column, and the column to activate. -/
structure Snap where
  viewPos : ℚ
  colIdx : ℕ
  deriving DecidableEq, Repr

namespace ScrollingSpace

variable (s : ScrollingSpace)

/-- The columns with their index and X position. -/
def columnsWithX (gaps : ℚ) : ℕ → ℚ → List Column → List (ℕ × ℚ × Column)
  | _, _, [] => []
  | i, x, c :: cs => (i, x, c) :: columnsWithX gaps (i + 1) (x + (c.actualWidth + gaps)) cs

def columnPadding (mode : SizingMode) (colW : ℚ) : ℚ :=
  if mode = .maximized then 0
  else clamp (((s.areaFor mode).size.w - colW) / 2) 0 s.options.gaps

/-- The view position that centers a column, or aligns one wider than its area to the left. -/
def centerPos (colX : ℚ) (col : Column) : ℚ :=
  let area := s.areaFor col.sizingMode
  if area.size.w ≤ col.actualWidth then colX - area.loc.x
  else colX - (area.size.w - col.actualWidth) / 2 - area.loc.x

def centeredSnap (colX : ℚ) (col : Column) : ℚ :=
  if col.sizingMode = .fullscreen then colX else s.centerPos colX col

/-- Where the view aligns with the left and with the right boundary of a column. -/
def snapPoints (colX : ℚ) (col : Column) (prevColW nextColW : Option ℚ) :
    ℚ × ℚ :=
  let colW := col.actualWidth
  let mode := col.sizingMode
  let area := s.areaFor mode
  let leftStrut := area.loc.x
  let rightStrut := s.viewSize.w - area.size.w - area.loc.x
  if mode = .fullscreen then (colX, colX + colW)
  else
    let padding := s.columnPadding mode colW
    let center := s.centerPos colX col
    let isOverflowing (adjColW : Option ℚ) : Bool :=
      s.options.centerFocusedColumn == .onOverflow &&
        adjColW.any fun w => area.size.w < w + 3 * s.options.gaps + colW
    (if isOverflowing nextColW then center else colX - padding - leftStrut,
      if isOverflowing prevColW then center + s.viewSize.w
      else colX + colW + padding + rightStrut)

def widthOf? (idx : ℕ) : Option ℚ := (s.columns[idx]?).map Column.actualWidth

def snappingPoints : List Snap :=
  let cols := columnsWithX s.options.gaps 0 0 s.columns
  if s.isCenteringFocusedColumn then
    cols.map fun (i, x, col) => ⟨s.centeredSnap x col, i⟩
  else
    let prevWidth (i : ℕ) : Option ℚ := if i = 0 then none else s.widthOf? (i - 1)
    let leftmostSnap := match cols.head? with
      | some (_, _, col) => (s.snapPoints 0 col none (s.widthOf? 1)).1
      | none => 0
    let rightmostSnap := match cols.getLast? with
      | some (i, x, col) => (s.snapPoints x col (prevWidth i) none).2 - s.viewSize.w
      | none => 0
    -- Prevent the gesture from snapping further than the first or the last column.
    let inside (pos : ℚ) (i : ℕ) : List Snap :=
      if leftmostSnap < pos ∧ pos < rightmostSnap then [⟨pos, i⟩] else []
    ⟨leftmostSnap, 0⟩ :: ⟨rightmostSnap, s.columns.length - 1⟩ ::
      cols.flatMap fun (i, x, col) =>
        let (left, right) := s.snapPoints x col (prevWidth i) (s.widthOf? (i + 1))
        inside left i ++ inside (right - s.viewSize.w) i

/-- Whether a column to the right of the snapping column is still fully visible. -/
def fitsRight (viewPos : ℚ) (colIdx : ℕ) : Bool :=
  match s.columns[colIdx]? with
  | none => false
  | some col =>
    let colX := s.columnX colIdx
    let colW := col.actualWidth
    let mode := col.sizingMode
    let area := s.areaFor mode
    if mode = .fullscreen then colX + colW ≤ viewPos + s.viewSize.w
    else colX + colW + s.columnPadding mode colW ≤ viewPos + area.loc.x + area.size.w

def fitsLeft (viewPos : ℚ) (colIdx : ℕ) : Bool :=
  match s.columns[colIdx]? with
  | none => false
  | some col =>
    let colX := s.columnX colIdx
    let mode := col.sizingMode
    let area := s.areaFor mode
    if mode = .fullscreen then viewPos ≤ colX
    else viewPos + area.loc.x ≤ colX - s.columnPadding mode col.actualWidth

/-- The column that a gesture ends on: the furthest one that fits towards its direction. -/
def snapColumn (snap : Snap) (towardsRight : Bool) : ℕ :=
  if s.isCenteringFocusedColumn then snap.colIdx
  else if towardsRight then
    (((List.range' (snap.colIdx + 1) (s.columns.length - (snap.colIdx + 1))).takeWhile
      (s.fitsRight snap.viewPos)).getLast?).getD snap.colIdx
  else
    (((List.range snap.colIdx).reverse.takeWhile (s.fitsLeft snap.viewPos)).getLast?).getD
      snap.colIdx

/-- The snapping point closest to a view position. -/
def closestSnap (targetViewPos : ℚ) : Option Snap :=
  (s.snappingPoints.insertionSort fun a b => a.viewPos ≤ b.viewPos).argmin
    fun snap => |snap.viewPos - targetViewPos|

def gestureAt (isTouchpad : Bool) (dndLastEventTime : Option ℚ) :
    ViewGesture where
  currentViewOffset := s.viewOffset.current
  animation := none
  tracker := SwipeTracker.new
  deltaFromTracker := s.viewOffset.current
  stationaryViewOffset := s.viewOffset.stationary
  isTouchpad := isTouchpad
  dndLastEventTime := dndLastEventTime
  dndNonzeroStartTime := none

def viewOffsetGestureBegin (isTouchpad : Bool) : ScrollingSpace :=
  if s.columns.isEmpty || s.interactiveResize.isSome then s
  else { s with viewOffset := .gesture (s.gestureAt isTouchpad none) }

def dndScrollGestureBegin : ScrollingSpace :=
  if s.viewOffset.isDndScroll then s
  else
    { s with
      viewOffset := .gesture (s.gestureAt false (some s.now))
      interactiveResize := none }

def normFactor (g : ViewGesture) : ℚ :=
  if g.isTouchpad then s.workingArea.size.w / viewGestureWorkingAreaMovement else 1

def viewOffsetGestureUpdate (deltaX timestamp : ℚ) (isTouchpad : Bool) :
    ScrollingSpace :=
  match s.viewOffset with
  | .gesture g =>
    if g.isTouchpad ≠ isTouchpad ∨ g.dndLastEventTime.isSome then s
    else
      let tracker := g.tracker.push deltaX timestamp
      let viewOffset := tracker.pos * s.normFactor g + g.deltaFromTracker
      { s with viewOffset := .gesture { g with
          tracker := tracker, currentViewOffset := viewOffset } }
  | _ => s

/-- The bounds that a DnD scroll clamps the view offset to. -/
def dndScrollBounds : ℚ × ℚ :=
  if s.columns.isEmpty then (0, 0)
  else
    let gaps := s.options.gaps
    let xOf (n : ℕ) : ℚ := ((s.columns.take n).map (·.actualWidth + gaps)).sum
    let last := s.columns.length - 1
    let activeColX := xOf s.activeColumnIdx
    let leftmost := -s.workingArea.size.w - activeColX
    let rightmost := xOf last + s.dataWidth last - s.workingArea.loc.x - activeColX
    (min leftmost rightmost, max leftmost rightmost)

def dndScrollGestureScroll (delta : ℚ) : ScrollingSpace :=
  match s.viewOffset with
  | .gesture g =>
    match g.dndLastEventTime with
    | none => s
    | some lastTime =>
      let g := { g with dndLastEventTime := some s.now }
      if delta = 0 then { s with viewOffset := .gesture { g with dndNonzeroStartTime := none } }
      else
        let nonzeroStart := g.dndNonzeroStartTime.getD s.now
        let g := { g with dndNonzeroStartTime := some nonzeroStart }
        if max 0 (s.now - nonzeroStart) < (s.options.dndEdgeViewScroll.delayMs : ℚ) / 1000 then
          { s with viewOffset := .gesture g }
        else
          let timeDelta := max 0 (s.now - lastTime)
          let tracker :=
            g.tracker.push (delta * timeDelta * s.options.dndEdgeViewScroll.maxSpeed) s.now
          let viewOffset := tracker.pos + g.deltaFromTracker
          let clamped := clamp viewOffset s.dndScrollBounds.1 s.dndScrollBounds.2
          { s with viewOffset := .gesture { g with
              tracker := tracker
              deltaFromTracker := g.deltaFromTracker + (clamped - viewOffset)
              currentViewOffset := clamped } }
  | _ => s

/-- End a gesture: snap the view and activate the column it snapped to. -/
def endGesture (g : ViewGesture) : ScrollingSpace :=
  -- Take into account any idle time between the last event and now.
  let tracker := g.tracker.push 0 s.now
  let currentViewOffset := tracker.pos * s.normFactor g + g.deltaFromTracker
  let targetViewOffset := tracker.projectedEndPos * s.normFactor g + g.deltaFromTracker
  if s.columns.isEmpty then { s with viewOffset := .static currentViewOffset }
  else
    let activeColX := s.columnX s.activeColumnIdx
    match s.closestSnap (activeColX + targetViewOffset) with
    | none => s
    | some snap =>
      let newColIdx := s.snapColumn snap (currentViewOffset ≤ targetViewOffset)
      let newColX := s.columnX newColIdx
      let s :=
        { s with
          viewOffsetToRestore :=
            if s.activeColumnIdx ≠ newColIdx then none else s.viewOffsetToRestore
          activeColumnIdx := newColIdx
          viewOffset := .animation
            ⟨currentViewOffset + (activeColX - newColX), snap.viewPos - newColX⟩ }
      -- Deal with things like snapping to the right edge of a larger-than-view window.
      s.animateViewOffsetToColumn none newColIdx none

def viewOffsetGestureEnd (isTouchpad : Option Bool) : ScrollingSpace :=
  match s.viewOffset with
  | .gesture g => if isTouchpad.any (g.isTouchpad ≠ ·) then s else s.endGesture g
  | _ => s

def dndScrollGestureEnd : ScrollingSpace :=
  match s.viewOffset with
  | .gesture g =>
    if g.dndLastEventTime.isSome ∧ g.tracker.pos = 0 then
      -- DnD didn't scroll anything, so preserve the current view position.
      let s := { s with viewOffset := .static g.deltaFromTracker }
      if s.columns.isEmpty then s else s.animateViewOffsetToColumn none s.activeColumnIdx none
    else s.viewOffsetGestureEnd none
  | _ => s

/-! Interactive resize. -/

def interactiveResizeBegin (window : ℕ) (edges : ResizeEdge) :
    Option ScrollingSpace :=
  if s.interactiveResize.isSome then some s
  else do
    let (colIdx, tileIdx) ← s.findWindow window
    let col ← s.columns[colIdx]?
    if col.pendingSizingMode ≠ .normal then some s
    else
      let tile ← col.tiles[tileIdx]?
      return { s with
        interactiveResize := some ⟨window, tile.windowSize, edges⟩
        viewOffset := s.viewOffset.stopAnimAndGesture }

/-- The column after an interactive resize of one of its tiles by `delta`. -/
def resizeByDelta (col : Column) (tileIdx : ℕ) (resize : InteractiveResize) (delta : Point)
    (isCentering : Bool) : Column :=
  let edges := resize.edges
  let col := if edges.left || edges.right then
      let dx := if edges.left then -delta.x else delta.x
      let dx := if isCentering then dx * 2 else dx
      col.setColumnWidth (.setFixed ⌊round (resize.originalWindowSize.w + dx)⌋) (some tileIdx)
    else col
  -- The top edge of the topmost window does not resize.
  if (edges.top || edges.bottom) && !(edges.top && tileIdx == 0) then
    let dy := if edges.top then -delta.y else delta.y
    col.setWindowHeight (.setFixed ⌊round (resize.originalWindowSize.h + dy)⌋) (some tileIdx)
  else col

def interactiveResizeUpdate (window : ℕ) (delta : Point) :
    Option ScrollingSpace :=
  match s.interactiveResize with
  | none => some s
  | some resize =>
    if window ≠ resize.window then some s
    else do
      let (colIdx, tileIdx) ← s.findWindow window
      let col ← s.columns[colIdx]?
      return s.setColumn colIdx
        (resizeByDelta col tileIdx resize delta s.isCenteringFocusedColumn)

def interactiveResizeEnd (window : Option ℕ) : Option ScrollingSpace :=
  match s.interactiveResize, window with
  | none, _ => some s
  | some _, none => some { s with interactiveResize := none }
  | some resize, some window =>
    if window ≠ resize.window then some s
    else do
      -- Animate the active window into view right away.
      let col ← s.activeColumn
      let s := if col.contains window
        then s.animateViewOffsetToColumn none s.activeColumnIdx none else s
      return { s with interactiveResize := none }

/-! Periodic updates. -/

/-- `refresh`, as far as the layout reads it back: the data of an ongoing interactive resize is
passed to the windows of its column. -/
def refresh : ScrollingSpace :=
  { s with columns := s.columns.map fun col =>
      let data := (s.interactiveResize.filter fun r => col.contains r.window).map (·.edges)
      { col with tiles := col.tiles.map (·.setInteractiveResize data) } }

/-- Time passes: the clock says which values the running animations have now. -/
def setClock (now viewValue : ℚ) (moveValue : ℕ → ℚ) : ScrollingSpace :=
  { s with
    now := now
    viewOffset := match s.viewOffset with
      | .static o => .static o
      | .animation anim => .animation { anim with value := viewValue }
      | .gesture g =>
        .gesture { g with animation := g.animation.map fun a => { a with value := viewValue } }
    columns := s.columns.mapIdx fun i c =>
      { c with moveAnimation := c.moveAnimation.map fun m =>
          { m with anim := { m.anim with value := moveValue i } } } }

/-- `viewDone` and `moveDone` tell which of the running animations are done at this time. -/
def advanceAnimations (viewDone : Bool) (moveDone : ℕ → Bool) :
    ScrollingSpace :=
  { s with
    viewOffset := match s.viewOffset with
      | .static o => .static o
      | .animation anim => if viewDone then .static anim.toValue else .animation anim
      | .gesture g =>
        let g := if g.dndLastEventTime.any (· ≠ s.now)
          then { g with dndLastEventTime := some s.now, dndNonzeroStartTime := none } else g
        .gesture { g with animation := if viewDone then none else g.animation }
    columns := s.columns.mapIdx fun i c =>
      if moveDone i then { c with moveAnimation := none } else c }

end ScrollingSpace

end Macniri.Layout
