import Macniri.Scrolling.Space

/-! The operations on a scrolling space: focus, moves, consume and expel, sizing and commits. -/
namespace Macniri.Layout

inductive ScrollDirection where
  | left
  | right
  deriving DecidableEq, Repr

namespace ScrollingSpace

variable (s : ScrollingSpace)

def modifyActiveColumn (f : Column → Column) : ScrollingSpace :=
  { s with columns := s.columns.modify s.activeColumnIdx f }

def updateConfig (viewSize : Size) (parentArea : Rectangle) (scale : ℚ)
    (options : Options) : ScrollingSpace :=
  let workingArea := computeWorkingArea parentArea scale options.struts
  let columns := s.columns.map (·.updateConfig viewSize workingArea parentArea scale options)
  let s :=
    { s with
      columns := columns
      data := List.zipWith (fun c _ => ColumnData.new c) columns s.data
      viewSize := viewSize
      workingArea := workingArea
      parentArea := parentArea
      scale := scale
      options := options }
  if !s.columns.isEmpty && !s.viewOffset.isGesture
  then s.animateViewOffsetToColumn none s.activeColumnIdx none else s

/-! Focus. -/

def activateWindow (window : ℕ) : ScrollingSpace :=
  match s.findWindow window with
  | none => s
  | some (columnIdx, tileIdx) =>
    { s with columns := s.columns.modify columnIdx (·.activateIdx tileIdx) }.activateColumn columnIdx

def focusLeft : ScrollingSpace :=
  if s.activeColumnIdx = 0 then s else s.activateColumn (s.activeColumnIdx - 1)

def focusRight : ScrollingSpace :=
  if s.columns.length ≤ s.activeColumnIdx + 1 then s
  else s.activateColumn (s.activeColumnIdx + 1)

def focusColumnFirst : ScrollingSpace := s.activateColumn 0

def focusColumnLast : ScrollingSpace :=
  if s.columns.isEmpty then s else s.activateColumn (s.columns.length - 1)

def focusColumn (index : ℕ) : ScrollingSpace :=
  if s.columns.isEmpty then s else s.activateColumn (min (index - 1) (s.columns.length - 1))

def focusWindowInColumn (index : ℕ) : ScrollingSpace :=
  s.modifyActiveColumn (·.focusIndex index)

def focusDown : ScrollingSpace := s.modifyActiveColumn Column.focusDown

def focusUp : ScrollingSpace := s.modifyActiveColumn Column.focusUp

def focusTop : ScrollingSpace := s.modifyActiveColumn Column.focusTop

def focusBottom : ScrollingSpace := s.modifyActiveColumn Column.focusBottom

/-- Focus within the active column, or `other` if that does not change the active tile. -/
def focusInColumnOr (f : Column → Column)
    (other : ScrollingSpace → ScrollingSpace) : ScrollingSpace :=
  match s.activeColumn with
  | none => s
  | some col =>
    if (f col).activeTileIdx = col.activeTileIdx then other s else s.modifyActiveColumn f

def focusDownOrLeft : ScrollingSpace :=
  s.focusInColumnOr Column.focusDown focusLeft

def focusDownOrRight : ScrollingSpace :=
  s.focusInColumnOr Column.focusDown focusRight

def focusUpOrLeft : ScrollingSpace :=
  s.focusInColumnOr Column.focusUp focusLeft

def focusUpOrRight : ScrollingSpace :=
  s.focusInColumnOr Column.focusUp focusRight

/-! Moving columns and tiles. -/

/-- `cancel_resize_for_column`. -/
def cancelResizeForColumn (colIdx : ℕ) : ScrollingSpace :=
  match s.columns[colIdx]? with
  | none => s
  | some col =>
    { s.setColumn colIdx col.cancelResize with
      interactiveResize := s.interactiveResize.filter fun resize => !col.contains resize.window }

/-- The column and its data at their new index. -/
def reorderColumn (oldIdx newIdx : ℕ) (column : Column) (data : ColumnData) :
    ScrollingSpace :=
  { s with
    columns := (s.columns.eraseIdx oldIdx).insertIdx newIdx column
    data := (s.data.eraseIdx oldIdx).insertIdx newIdx data }

/-- Animate a column that moved, with the X positions of it and of the next one before the move. -/
def animateColumnMove (oldIdx newIdx : ℕ) (currentColX nextColX : ℚ) :
    ScrollingSpace :=
  -- Preserve the camera position when moving to the left.
  let s := { s with viewOffset := s.viewOffset.offset (-s.columnX oldIdx + currentColX) }
  let s := s.animateColumns (· == newIdx) (currentColX - s.columnX newIdx)
  -- All columns in between moved by the width of the column that we just moved.
  let othersXOffset := nextColX - currentColX
  if oldIdx < newIdx then s.animateColumns (fun i => oldIdx ≤ i && i < newIdx) othersXOffset
  else s.animateColumns (fun i => newIdx + 1 ≤ i && i ≤ oldIdx) (-othersXOffset)

def moveColumnTo (newIdx : ℕ) : ScrollingSpace :=
  let oldIdx := s.activeColumnIdx
  if oldIdx = newIdx then s
  else
    match s.columns[oldIdx]?, s.data[oldIdx]? with
    | some column, some data =>
      let moved := (s.cancelResizeForColumn oldIdx).reorderColumn oldIdx newIdx column.cancelResize data
      (moved.animateColumnMove oldIdx newIdx (s.columnX oldIdx) (s.columnX (oldIdx + 1))).activateColumn
        newIdx
    | _, _ => s

def moveColumnToIndex (index : ℕ) : ScrollingSpace :=
  if s.columns.isEmpty then s else s.moveColumnTo (min (index - 1) (s.columns.length - 1))

def moveLeft : ScrollingSpace :=
  if s.activeColumnIdx = 0 then s else s.moveColumnTo (s.activeColumnIdx - 1)

def moveRight : ScrollingSpace :=
  if s.columns.length ≤ s.activeColumnIdx + 1 then s else s.moveColumnTo (s.activeColumnIdx + 1)

def moveColumnToFirst : ScrollingSpace := s.moveColumnTo 0

def moveColumnToLast : ScrollingSpace :=
  if s.columns.isEmpty then s else s.moveColumnTo (s.columns.length - 1)

def moveDown : ScrollingSpace := s.modifyActiveColumn Column.moveDown

def moveUp : ScrollingSpace := s.modifyActiveColumn Column.moveUp

/-- The column and tile that a window argument refers to: the active ones by default. -/
def windowOrActive : Option ℕ → Option (ℕ × ℕ)
  | some window => s.findWindow window
  | none => s.activeColumn.map fun col => (s.activeColumnIdx, col.activeTileIdx)

def consumeOrExpelWindowLeft (window : Option ℕ) : Option ScrollingSpace :=
  if s.columns.isEmpty then some s
  else do
    let (sourceColIdx, sourceTileIdx) ← s.windowOrActive window
    let sourceColumn ← s.columns[sourceColIdx]?
    let wasActive :=
      s.activeColumnIdx == sourceColIdx && sourceColumn.activeTileIdx == sourceTileIdx
    if sourceColumn.tiles.length = 1 then
      if sourceColIdx = 0 then some s
      else
        -- Move into adjacent column.
        let targetColumnIdx := sourceColIdx - 1
        let offset := if s.activeColumnIdx ≤ sourceColIdx
          then s.columnX sourceColIdx - s.columnX targetColumnIdx
          else max 0 (s.dataWidth targetColumnIdx - s.dataWidth sourceColIdx)
        -- Make sure the previous (target) column is activated.
        let s := if wasActive then
            { s with activatePrevColumnOnRemoval :=
                s.activatePrevColumnOnRemoval.or (some (s.viewOffset.stationary + offset)) }
          else s
        let (removed, s) ← s.removeTileByIdx sourceColIdx 0
        s.addTileToColumn targetColumnIdx none removed.tile wasActive
    else
      -- Move out of column, into the source column position.
      let (removed, s) ← s.removeTileByIdx sourceColIdx sourceTileIdx
      let s ← s.addTile (some sourceColIdx) removed.tile wasActive removed.width removed.isFullWidth
      -- We added to the left, don't activate even further left on removal.
      return if wasActive then { s with activatePrevColumnOnRemoval := none } else s

def consumeOrExpelWindowRight (window : Option ℕ) : Option ScrollingSpace :=
  if s.columns.isEmpty then some s
  else do
    let (sourceColIdx, sourceTileIdx) ← s.windowOrActive window
    let sourceColumn ← s.columns[sourceColIdx]?
    let wasActive :=
      s.activeColumnIdx == sourceColIdx && sourceColumn.activeTileIdx == sourceTileIdx
    if sourceColumn.tiles.length = 1 then
      if sourceColIdx + 1 = s.columns.length then some s
      else
        -- Move into adjacent column; make sure it gets activated.
        let s := if wasActive then { s with activatePrevColumnOnRemoval := none } else s
        let (removed, s) ← s.removeTileByIdx sourceColIdx 0
        s.addTileToColumn sourceColIdx none removed.tile wasActive
    else
      let (removed, s) ← s.removeTileByIdx sourceColIdx sourceTileIdx
      s.addTile (some (sourceColIdx + 1)) removed.tile wasActive removed.width removed.isFullWidth

def consumeIntoColumn : Option ScrollingSpace :=
  if s.columns.length < 2 ∨ s.activeColumnIdx = s.columns.length - 1 then some s
  else do
    let (removed, t) ← s.removeTileByIdx (s.activeColumnIdx + 1) 0
    t.addTileToColumn s.activeColumnIdx none removed.tile false

def expelFromColumn : Option ScrollingSpace :=
  if s.columns.isEmpty then some s
  else do
    let sourceColumn ← s.activeColumn
    if sourceColumn.tiles.length = 1 then some s
    else
      let (removed, t) ← s.removeTileByIdx s.activeColumnIdx (sourceColumn.tiles.length - 1)
      t.addTile (some (s.activeColumnIdx + 1)) removed.tile false removed.width removed.isFullWidth

def setActiveTileIdx (colIdx tileIdx : ℕ) : ScrollingSpace :=
  { s with columns := s.columns.modify colIdx fun c => { c with activeTileIdx := tileIdx } }

/-- Put the swapped tile where the source tile was: into a new column if the source column was
drained by the removal. -/
def addSwapped (drained : Bool) (columnIdx tileIdx : ℕ) (tile : Tile)
    (width : ColumnWidth) (isFullWidth : Bool) : Option ScrollingSpace :=
  if drained then s.addTile (some columnIdx) tile true width isFullWidth
  else s.addTileToColumn columnIdx (some tileIdx) tile false

/-- Swap the active tiles of two neighbouring columns, of which the source is active. -/
def swapWithColumn (sourceColumnIdx targetColumnIdx : ℕ)
    (direction : ScrollDirection) : Option ScrollingSpace := do
  let source ← s.columns[sourceColumnIdx]?
  let target ← s.columns[targetColumnIdx]?
  if source.tiles.length = 1 ∧ target.tiles.length = 1 then some (s.moveColumnTo targetColumnIdx)
  else
    let sourceTileIdx := source.activeTileIdx
    let targetTileIdx := target.activeTileIdx
    let drained := source.tiles.length == 1
    let (sourceRemoved, s) ← s.removeTileByIdx sourceColumnIdx sourceTileIdx
    -- The source column disappears with its last tile.
    let adjustedTargetIdx :=
      if direction = .right ∧ drained then targetColumnIdx - 1 else targetColumnIdx
    let s ← s.addTileToColumn adjustedTargetIdx (some targetTileIdx) sourceRemoved.tile false
    let (targetRemoved, s) ← s.removeTileByIdx adjustedTargetIdx (targetTileIdx + 1)
    let s ← s.addSwapped drained sourceColumnIdx sourceTileIdx targetRemoved.tile
      sourceRemoved.width sourceRemoved.isFullWidth
    let s := s.setActiveTileIdx sourceColumnIdx sourceTileIdx
    let s := s.setActiveTileIdx targetColumnIdx targetTileIdx
    return s.activateColumn targetColumnIdx

def swapWindowInDirection (direction : ScrollDirection) :
    Option ScrollingSpace :=
  if s.columns.isEmpty then some s
  else
    let source := s.activeColumnIdx
    match direction with
    | .left => if source = 0 then some s else s.swapWithColumn source (source - 1) .left
    | .right =>
      if source = s.columns.length - 1 then some s else s.swapWithColumn source (source + 1) .right

/-! Sizing. -/

/-- Whether a window has to leave its column before it is made fullscreen or maximized. -/
def mustExtract (col : Column) (enable : Bool) : Bool :=
  enable && col.tiles.length > 1 && !col.isTabbed

/-- Extract the window into a separate column if `extract` says so. -/
def extractWindow (window : ℕ) (extract : Bool) : Option ScrollingSpace :=
  if extract then s.consumeOrExpelWindowRight (some window) else some s

/-- `set_fullscreen` and `set_maximized`: `isPending` reads the flag and `set` writes it. -/
def setPending (isPending : Column → Bool) (set : Column → Bool → Column) (s : ScrollingSpace)
    (window : ℕ) (enable : Bool) : Option ScrollingSpace := do
  let colIdx ← s.columns.findIdx? (·.contains window)
  let col ← s.columns[colIdx]?
  if enable = isPending col then some s
  else
    let s := s.cancelResizeForColumn colIdx
    -- With other windows in the column, extract this one into a separate column.
    let extract := mustExtract col enable
    let s ← s.extractWindow window extract
    let colIdx := if extract then colIdx + 1 else colIdx
    let col ← s.columns[colIdx]?
    return (s.setColumn colIdx (set col enable)).updateData colIdx (set col enable)

def setFullscreen : ScrollingSpace → ℕ → Bool → Option ScrollingSpace :=
  setPending (·.isPendingFullscreen) Column.setFullscreen

def setMaximized : ScrollingSpace → ℕ → Bool → Option ScrollingSpace :=
  setPending (·.isPendingMaximized) Column.setMaximized

def setColumnDisplay (display : ColumnDisplay) : Option ScrollingSpace :=
  if s.columns.isEmpty then some s
  else do
    let col ← s.activeColumn
    if col.displayMode = display then some s
    else
      let s := s.cancelResizeForColumn s.activeColumnIdx
      let col := col.cancelResize.setColumnDisplay display
      let s := (s.setColumn s.activeColumnIdx col.updateTileSizes).updateData s.activeColumnIdx col
      -- Disable fullscreen if needed.
      if col.displayMode ≠ .tabbed ∧ col.tiles.length > 1 then
        let tile ← col.tiles[col.activeTileIdx]?
        let s ← s.setFullscreen tile.id false
        s.setMaximized tile.id false
      else some s

def toggleColumnTabbedDisplay : Option ScrollingSpace :=
  match s.activeColumn with
  | none => some s
  | some col => s.setColumnDisplay (if col.displayMode = .normal then .tabbed else .normal)

def centerColumn : ScrollingSpace :=
  if s.columns.isEmpty then s
  else (s.animateViewOffsetToColumnCentered none s.activeColumnIdx).cancelResizeForColumn
    s.activeColumnIdx

/-- The column of a window, the active one by default. -/
def columnOf : Option ℕ → Option ℕ
  | some window => s.columns.findIdx? (·.contains window)
  | none => some s.activeColumnIdx

def centerWindow (window : Option ℕ) : Option ScrollingSpace :=
  if s.columns.isEmpty then some s
  else do
    let colIdx ← s.columnOf window
    return if colIdx ≠ s.activeColumnIdx then s else s.centerColumn

/-- The columns that are fully visible in the working area, as their widths and gaps together,
the X of the leftmost one and of the active one, and whether any other one was counted. -/
structure VisibleColumns where
  widthTaken : ℚ
  leftmostColX : Option ℚ
  activeColX : Option ℚ
  countedNonActive : Bool

def visibleColumns : VisibleColumns :=
  go (s.targetViewPos + s.workingArea.loc.x) 0 s.data ⟨0, none, none, false⟩ 0
where
  go (left : ℚ) (idx : ℕ) : List ColumnData → VisibleColumns → ℚ → VisibleColumns
    | [], v, _ => v
    | d :: rest, v, colX =>
      let gap := s.options.gaps
      let nextX := colX + (d.width + gap)
      if colX < left + gap then go left (idx + 1) rest v nextX
      else
        let v := { v with leftmostColX := v.leftmostColX.or (some colX) }
        if left + s.workingArea.size.w < colX + d.width + gap then v
        else
          let v := if idx = s.activeColumnIdx then { v with activeColX := some colX }
            else { v with countedNonActive := true }
          go left (idx + 1) rest { v with widthTaken := v.widthTaken + (d.width + gap) } nextX

def centerVisibleColumns : ScrollingSpace :=
  if s.columns.isEmpty || s.isCenteringFocusedColumn then s
  else
    let v := s.visibleColumns
    match v.activeColX with
    | none => s
    | some activeColX =>
      let s := s.cancelResizeForColumn s.activeColumnIdx
      let freeSpace := s.workingArea.size.w - v.widthTaken + s.options.gaps
      let newViewX := v.leftmostColX.getD 0 - freeSpace / 2 - s.workingArea.loc.x
      let s := s.animateViewOffset s.activeColumnIdx (newViewX - activeColX)
      s.animateViewOffsetToColumn none s.activeColumnIdx none

/-- The column of a window and its tile index in it; by default the active column, whose active
tile is then meant. -/
def columnAndTile : Option ℕ → Option (ℕ × Option ℕ)
  | some window => (s.findWindow window).map fun (col, tile) => (col, some tile)
  | none => some (s.activeColumnIdx, none)

/-- The operations that resize the column of a window, the active one by default. -/
def resizeWindow (f : Column → Option ℕ → Column) (s : ScrollingSpace) (window : Option ℕ) :
    Option ScrollingSpace :=
  if s.columns.isEmpty then some s
  else do
    let (colIdx, tileIdx) ← s.columnAndTile window
    let col ← s.columns[colIdx]?
    return (s.setColumn colIdx (f col tileIdx)).cancelResizeForColumn colIdx

def toggleWidth (forwards : Bool) : Option ScrollingSpace :=
  resizeWindow (fun col _ => col.toggleWidth none forwards) s none

def toggleFullWidth : Option ScrollingSpace :=
  resizeWindow (fun col _ => col.toggleFullWidth) s none

def setWindowWidth (window : Option ℕ) (change : SizeChange) :
    Option ScrollingSpace :=
  resizeWindow (fun col tileIdx => col.setColumnWidth change tileIdx) s window

def setWindowHeight (window : Option ℕ) (change : SizeChange) :
    Option ScrollingSpace :=
  resizeWindow (fun col tileIdx => col.setWindowHeight change tileIdx) s window

def resetWindowHeight (window : Option ℕ) : Option ScrollingSpace :=
  resizeWindow (fun col tileIdx => col.resetWindowHeight tileIdx) s window

def toggleWindowWidth (window : Option ℕ) (forwards : Bool) :
    Option ScrollingSpace :=
  resizeWindow (fun col tileIdx => col.toggleWidth tileIdx forwards) s window

def toggleWindowHeight (window : Option ℕ) (forwards : Bool) :
    Option ScrollingSpace :=
  resizeWindow (fun col tileIdx => col.toggleWindowHeight tileIdx forwards) s window

def expandColumnToAvailableWidth : ScrollingSpace :=
  match s.activeColumn with
  | none => s
  | some col =>
    if col.pendingSizingMode ≠ .normal ∨ col.isFullWidth then s
    else if s.isCenteringFocusedColumn then
      (s.modifyActiveColumn Column.toggleFullWidth).cancelResizeForColumn s.activeColumnIdx
    else
      let v := s.visibleColumns
      match v.activeColX with
      | none => s
      | some activeColX =>
        let gap := s.options.gaps
        let availableWidth := s.workingArea.size.w - gap - v.widthTaken - col.extraSize.w
        if availableWidth ≤ 0 then s
        else
          let s := s.cancelResizeForColumn s.activeColumnIdx
          if !v.countedNonActive then s.modifyActiveColumn Column.toggleFullWidth
          else
            let activeWidth := s.dataWidth s.activeColumnIdx
            let s := s.modifyActiveColumn fun col =>
              Column.updateTileSizes
                { col with
                  width := .fixed (activeWidth + availableWidth)
                  presetWidthIdx := none
                  isFullWidth := false }
            -- Put the leftmost window into the view.
            let newViewX := v.leftmostColX.getD 0 - gap - s.workingArea.loc.x
            let s := s.animateViewOffset s.activeColumnIdx (newViewX - activeColX)
            s.animateViewOffsetToColumn none s.activeColumnIdx none

/-! Client commits. -/

/-- Move other columns in tandem with a column whose width changed by `-offset`. -/
def followResize (colIdx : ℕ) (offset : ℚ) (ongoingResizeAnim : Bool) :
    ScrollingSpace :=
  if offset = 0 then s
  else
    let move (c : Column) (offset : ℚ) : Column :=
      if ongoingResizeAnim then c.animateMoveFrom offset else c.offsetMoveAnimCurrent offset
    { s with columns := s.columns.mapIdx fun i c =>
        if s.activeColumnIdx ≤ colIdx then (if colIdx + 1 ≤ i then move c offset else c)
        else if i ≤ colIdx then move c (-offset) else c }

/-- The view preserves or follows the edge that an interactive resize moves. -/
def followInteractiveResize (colIdx : ℕ) (resize : Option ResizeEdge)
    (offset : ℚ) : ScrollingSpace :=
  match (if offset ≠ 0 then resize else none) with
  | none => s
  | some edges =>
    let viewOffset := s.viewOffset.cancelGesture
    let delta := if s.isCenteringFocusedColumn then
        -(s.workingArea.size.w - s.dataWidth colIdx) / 2 - s.workingArea.loc.x - viewOffset.target
      else if edges.left then -offset else 0
    { s with viewOffset := viewOffset.offset delta }

/-- The view offset is stored when the active column goes fullscreen or maximized, and taken when it
becomes normal again, even if the view is currently frozen. -/
def storeViewOffset (wasNormal isNormal : Bool) : ScrollingSpace :=
  if wasNormal && !isNormal then { s with viewOffsetToRestore := some s.viewOffset.stationary }
  else if !wasNormal && isNormal then { s with viewOffsetToRestore := none }
  else s

/-- What a commit of the active column does to the view. -/
def updateViewAfterCommit (colIdx : ℕ) (wasNormal isNormal : Bool)
    (resize : Option ResizeEdge) (offset : ℚ) : ScrollingSpace :=
  let s := s.followInteractiveResize colIdx resize offset
  let unfullscreenOffset := if !wasNormal && isNormal then s.viewOffsetToRestore else none
  let s := s.storeViewOffset wasNormal isNormal
  -- The view is not moved while an interactive resize or a view gesture controls it.
  if s.interactiveResize.isNone && !s.viewOffset.isGesture then
    match unfullscreenOffset with
    | some prevOffset =>
      (s.animateViewOffset colIdx prevOffset).animateViewOffsetToColumn none colIdx none
    | none => s.animateViewOffsetToColumn none colIdx none
  else s

/-- A client commit of a window; `ongoingResizeAnim` tells whether the tile is left with a resize
animation. -/
def updateWindow (window : ℕ) (commit : Commit) (ongoingResizeAnim : Bool) :
    Option ScrollingSpace := do
  let (colIdx, tileIdx) ← s.findWindow window
  let column ← s.columns[colIdx]?
  let tile ← column.tiles[tileIdx]?
  let resize := tile.window.interactiveResizeData
  let prevWidth := s.dataWidth colIdx
  let updated := column.updateWindow tileIdx commit
  let s := (s.setColumn colIdx updated.updateTileSizes).updateData colIdx updated
  let offset := prevWidth - s.dataWidth colIdx
  let s := s.followResize colIdx offset ongoingResizeAnim
  return if colIdx = s.activeColumnIdx
    then s.updateViewAfterCommit colIdx column.isNormal updated.isNormal resize offset else s

end ScrollingSpace

end Macniri.Layout
