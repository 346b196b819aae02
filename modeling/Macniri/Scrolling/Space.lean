import Macniri.Scrolling.ViewOffset

/-! The scrolling space: columns side by side, one of them active, and the view onto them.
Functions that would panic on their arguments return `none`. -/
namespace Macniri.Layout

structure ColumnData where
  width : ℚ
  deriving DecidableEq, Repr

def ColumnData.new (c : Column) : ColumnData := ⟨c.actualWidth⟩

structure InteractiveResize where
  window : ℕ
  originalWindowSize : Size
  edges : ResizeEdge
  deriving DecidableEq, Repr

structure RemovedTile where
  tile : Tile
  width : ColumnWidth
  isFullWidth : Bool
  isFloating : Bool
  deriving DecidableEq

/-- `now` is the unadjusted time of the clock and `nextUid` the identity of the next column. -/
structure ScrollingSpace where
  columns : List Column
  data : List ColumnData
  activeColumnIdx : ℕ
  interactiveResize : Option InteractiveResize
  viewOffset : ViewOffset
  activatePrevColumnOnRemoval : Option ℚ
  viewOffsetToRestore : Option ℚ
  viewSize : Size
  workingArea : Rectangle
  parentArea : Rectangle
  scale : ℚ
  options : Options
  now : ℚ
  nextUid : ℕ
  deriving DecidableEq

/-- The X positions of the columns, and the one past them. -/
def columnXs (gaps : ℚ) : ℚ → List ColumnData → List ℚ
  | x, [] => [x]
  | x, d :: ds => x :: columnXs gaps (x + (d.width + gaps)) ds

/-- A column after a tile is added to it: the active tile stays the same one, unless the new one
is activated. -/
def Column.insertTile (c : Column) (tileIdx : ℕ) (tile : Tile) (activate : Bool) : Column :=
  (c.addTileAt tileIdx tile).activateIdx
    (if activate then tileIdx
    else if tileIdx ≤ c.activeTileIdx then c.activeTileIdx + 1
    else c.activeTileIdx)

namespace ScrollingSpace

variable (s : ScrollingSpace)

def new (viewSize : Size) (parentArea : Rectangle) (scale : ℚ) (options : Options) (now : ℚ) :
    ScrollingSpace where
  columns := []
  data := []
  activeColumnIdx := 0
  interactiveResize := none
  viewOffset := .static 0
  activatePrevColumnOnRemoval := none
  viewOffsetToRestore := none
  viewSize := viewSize
  workingArea := computeWorkingArea parentArea scale options.struts
  parentArea := parentArea
  scale := scale
  options := options
  now := now
  nextUid := 0

def tiles : List Tile := s.columns.flatMap (·.tiles)

/-- The windows column by column, top to bottom. -/
def arrangement : List (List ℕ) := s.columns.map Column.windowIds

def windowIds : List ℕ := s.arrangement.flatten

def activeColumn : Option Column := s.columns[s.activeColumnIdx]?

def activeWindow : Option Window := do
  let col ← s.activeColumn
  let tile ← col.tiles[col.activeTileIdx]?
  return tile.window

/-- The column and the tile index of a window. -/
def findWindow (window : ℕ) : Option (ℕ × ℕ) := do
  let colIdx ← s.columns.findIdx? (·.contains window)
  let col ← s.columns[colIdx]?
  let tileIdx ← col.position window
  return (colIdx, tileIdx)

def columnX (columnIdx : ℕ) : ℚ :=
  ((columnXs s.options.gaps 0 s.data)[columnIdx]?).getD 0

def dataWidth (columnIdx : ℕ) : ℚ := ((s.data[columnIdx]?).map (·.width)).getD 0

def viewPos : ℚ := s.columnX s.activeColumnIdx + s.viewOffset.current

def targetViewPos : ℚ := s.columnX s.activeColumnIdx + s.viewOffset.target

def isCenteringFocusedColumn : Bool :=
  s.options.centerFocusedColumn == .always ||
    (s.options.alwaysCenterSingleColumn && s.columns.length ≤ 1)

/-- The area that a column of the given sizing mode aligns with. -/
def areaFor (mode : SizingMode) : Rectangle :=
  if mode = .maximized then s.parentArea else s.workingArea

def computeNewViewOffsetFit (targetX : Option ℚ) (colX width : ℚ)
    (mode : SizingMode) : ℚ :=
  if mode = .fullscreen then 0
  else
    let area := s.areaFor mode
    let padding := if mode = .maximized then 0 else s.options.gaps
    computeNewViewOffset (targetX.getD s.targetViewPos + area.loc.x) area.size.w colX width padding
      - area.loc.x

def computeNewViewOffsetCentered (targetX : Option ℚ) (colX width : ℚ)
    (mode : SizingMode) : ℚ :=
  if mode = .fullscreen then s.computeNewViewOffsetFit targetX colX width mode
  else
    let area := s.areaFor mode
    if area.size.w ≤ width then s.computeNewViewOffsetFit targetX colX width mode
    else -(area.size.w - width) / 2 - area.loc.x

def computeNewViewOffsetForColumnFit (targetX : Option ℚ) (idx : ℕ) : ℚ :=
  match s.columns[idx]? with
  | none => 0
  | some col => s.computeNewViewOffsetFit targetX (s.columnX idx) col.actualWidth col.sizingMode

def computeNewViewOffsetForColumnCentered (targetX : Option ℚ) (idx : ℕ) : ℚ :=
  match s.columns[idx]? with
  | none => 0
  | some col =>
    s.computeNewViewOffsetCentered targetX (s.columnX idx) col.actualWidth col.sizingMode

def columnWidthAt (idx : ℕ) : ℚ :=
  ((s.columns[idx]?).map Column.actualWidth).getD 0

def computeNewViewOffsetForColumn (targetX : Option ℚ) (idx : ℕ)
    (prevIdx : Option ℕ) : ℚ :=
  if s.isCenteringFocusedColumn then s.computeNewViewOffsetForColumnCentered targetX idx
  else
    match s.options.centerFocusedColumn, prevIdx with
    | .always, _ => s.computeNewViewOffsetForColumnCentered targetX idx
    | .never, _ | .onOverflow, none => s.computeNewViewOffsetForColumnFit targetX idx
    | .onOverflow, some prevIdx =>
      if prevIdx = idx then s.computeNewViewOffsetForColumnFit targetX idx
      else
        -- Always take the left or right neighbor of the target as the source.
        let sourceIdx := if idx < prevIdx then min (idx + 1) (s.columns.length - 1) else idx - 1
        let sourceX := s.columnX sourceIdx
        let targetColX := s.columnX idx
        let totalWidth := (if sourceX < targetColX
          then targetColX - sourceX + s.columnWidthAt idx
          else sourceX - targetColX + s.columnWidthAt sourceIdx) + s.options.gaps * 2
        if totalWidth ≤ s.workingArea.size.w then s.computeNewViewOffsetForColumnFit targetX idx
        else s.computeNewViewOffsetForColumnCentered targetX idx

def animateViewOffset (idx : ℕ) (newViewOffset : ℚ) : ScrollingSpace :=
  let offsetDelta := s.columnX s.activeColumnIdx - s.columnX idx
  { s with viewOffset := (s.viewOffset.offset offsetDelta).animateTo newViewOffset (1 / s.scale) }

def animateViewOffsetToColumnCentered (targetX : Option ℚ) (idx : ℕ) :
    ScrollingSpace :=
  s.animateViewOffset idx (s.computeNewViewOffsetForColumnCentered targetX idx)

def animateViewOffsetToColumn (targetX : Option ℚ) (idx : ℕ)
    (prevIdx : Option ℕ) : ScrollingSpace :=
  s.animateViewOffset idx (s.computeNewViewOffsetForColumn targetX idx prevIdx)

def activateColumn (idx : ℕ) : ScrollingSpace :=
  -- During a DnD scroll, animate even when activating the same window, for DnD hold.
  if s.activeColumnIdx = idx ∧ (s.columns = [] ∨ s.viewOffset.isDndScroll = false) then s
  else
    let s := s.animateViewOffsetToColumn none idx (some s.activeColumnIdx)
    if s.activeColumnIdx = idx then s
    else
      { s with
        activeColumnIdx := idx
        activatePrevColumnOnRemoval := none
        viewOffsetToRestore := none
        interactiveResize := none }

/-- Animate the movement of the columns whose index satisfies `p`. -/
def animateColumns (p : ℕ → Bool) (fromXOffset : ℚ) : ScrollingSpace :=
  { s with columns := s.columns.mapIdx fun i c => if p i then c.animateMoveFrom fromXOffset else c }

/-- Where a new column goes: right of the active one by default. -/
def insertionIdx (idx : Option ℕ) : ℕ :=
  idx.getD (if s.columns.isEmpty then 0 else s.activeColumnIdx + 1)

/-- The column as it is when it is inserted. -/
def adopt (column : Column) : Column :=
  { column.updateConfig s.viewSize s.workingArea s.parentArea s.scale s.options with
    uid := s.nextUid }

def insertColumn (idx : ℕ) (column : Column) : ScrollingSpace :=
  { s with
    data := s.data.insertIdx idx (ColumnData.new (s.adopt column))
    columns := s.columns.insertIdx idx (s.adopt column)
    nextUid := s.nextUid + 1 }

/-- Activate the column that was just inserted at `idx`. -/
def activateInserted (idx : ℕ) (wasEmpty : Bool) : ScrollingSpace :=
  -- The first window on an empty workspace removes whatever view offset was left over.
  let s := if wasEmpty then
      let s := { s with viewOffset := .static 0 }
      { s with viewOffset := .static (s.computeNewViewOffsetForColumn none idx none) }
    else s
  let prevOffset := if !wasEmpty && idx = s.activeColumnIdx + 1
    then some s.viewOffset.stationary else none
  { s.activateColumn idx with activatePrevColumnOnRemoval := prevOffset }

def addColumn (idx : Option ℕ) (column : Column) (activate : Bool) :
    Option ScrollingSpace :=
  let wasEmpty := s.columns.isEmpty
  let idx := s.insertionIdx idx
  if s.columns.length < idx then none
  else
    let s := s.insertColumn idx column
    let s :=
      if activate then s.activateInserted idx wasEmpty
      else if !wasEmpty && idx ≤ s.activeColumnIdx then
        { s with activeColumnIdx := s.activeColumnIdx + 1 }
      else s
    let offset := s.columnX (idx + 1) - s.columnX idx
    some (if s.activeColumnIdx ≤ idx then s.animateColumns (idx + 1 ≤ ·) (-offset)
      else s.animateColumns (· < idx) offset)

def addTile (colIdx : Option ℕ) (tile : Tile) (activate : Bool)
    (width : ColumnWidth) (isFullWidth : Bool) : Option ScrollingSpace :=
  s.addColumn colIdx (Column.newWithTile tile s.viewSize s.workingArea s.parentArea s.scale width
    isFullWidth) activate

def addTileRightOf (rightOf : ℕ) (tile : Tile) (activate : Bool)
    (width : ColumnWidth) (isFullWidth : Bool) : Option ScrollingSpace := do
  let rightOfIdx ← s.columns.findIdx? (·.contains rightOf)
  s.addTile (some (rightOfIdx + 1)) tile activate width isFullWidth

def setColumn (colIdx : ℕ) (col : Column) : ScrollingSpace :=
  { s with columns := s.columns.set colIdx col }

def updateData (colIdx : ℕ) (col : Column) : ScrollingSpace :=
  { s with data := s.data.set colIdx (ColumnData.new col) }

def addTileToColumn (colIdx : ℕ) (tileIdx : Option ℕ) (tile : Tile)
    (activate : Bool) : Option ScrollingSpace := do
  let prevNextX := s.columnX (colIdx + 1)
  let target ← s.columns[colIdx]?
  let tileIdx := tileIdx.getD target.tiles.length
  if target.tiles.length < tileIdx then none
  else
    let target := target.insertTile tileIdx tile activate
    let s := (s.updateData colIdx target).setColumn colIdx target
    let s := if activate && s.activeColumnIdx ≠ colIdx then s.activateColumn colIdx else s
    -- Adding a wider window into a column increases its width now; move the columns for this.
    let offset := s.columnX (colIdx + 1) - prevNextX
    some (if s.activeColumnIdx ≤ colIdx then s.animateColumns (colIdx + 1 ≤ ·) (-offset)
      else s.animateColumns (· ≤ colIdx) offset)

/-- Take the column out and forget what was stored about it. -/
def dropColumn (columnIdx : ℕ) (column : Column) : ScrollingSpace :=
  { s with
    columns := s.columns.eraseIdx columnIdx
    data := s.data.eraseIdx columnIdx
    interactiveResize := s.interactiveResize.filter fun resize => !column.contains resize.window
    activatePrevColumnOnRemoval :=
      if columnIdx + 1 = s.activeColumnIdx then none else s.activatePrevColumnOnRemoval
    viewOffsetToRestore :=
      if columnIdx = s.activeColumnIdx then none else s.viewOffsetToRestore }

/-- Choose the active column after the one at `columnIdx` was taken out. -/
def refocusAfterRemoval (columnIdx : ℕ) : ScrollingSpace :=
  if s.columns = [] then s
  else if columnIdx < s.activeColumnIdx then
    { s with activeColumnIdx := s.activeColumnIdx - 1, activatePrevColumnOnRemoval := none }
  else
    match (if columnIdx = s.activeColumnIdx then s.activatePrevColumnOnRemoval else none) with
    | some prevOffset =>
      if 0 < columnIdx then
        let s := s.activateColumn (s.activeColumnIdx - 1)
        -- Restore the view offset, but scroll in case the previous window had resized.
        let s := s.animateViewOffset s.activeColumnIdx prevOffset
        s.animateViewOffsetToColumn none s.activeColumnIdx none
      else s
    | none => s.activateColumn (min s.activeColumnIdx (s.columns.length - 1))

def removeColumnByIdx (columnIdx : ℕ) : Option (Column × ScrollingSpace) := do
  let column ← s.columns[columnIdx]?
  let offset := s.columnX (columnIdx + 1) - s.columnX columnIdx
  let s := if s.activeColumnIdx ≤ columnIdx then s.animateColumns (columnIdx + 1 ≤ ·) offset
    else s.animateColumns (· < columnIdx) (-offset)
  return (column, (s.dropColumn columnIdx column).refocusAfterRemoval columnIdx)

def removeActiveColumn : Option (Column × ScrollingSpace) :=
  s.removeColumnByIdx s.activeColumnIdx

end ScrollingSpace

/-- If one window is left, its weight is reset to 1. -/
def resetSingleWeight : List TileData → List TileData
  | [d] => if d.height.isAuto then [{ d with height := .auto1 }] else [d]
  | data => data

/-- Remove a tile from a column with other tiles. -/
def Column.removeTile (c : Column) (tileIdx : ℕ) : Column :=
  let tiles := c.tiles.eraseIdx tileIdx
  Column.updateTileSizes
    { c with
      tiles := tiles
      data := resetSingleWeight (c.data.eraseIdx tileIdx)
      activeTileIdx :=
        if tileIdx < c.activeTileIdx then c.activeTileIdx - 1
        else if tileIdx = c.activeTileIdx ∧ tileIdx = tiles.length then tileIdx - 1
        else c.activeTileIdx }

namespace ScrollingSpace

def removeTileByIdx (s : ScrollingSpace) (columnIdx tileIdx : ℕ) :
    Option (RemovedTile × ScrollingSpace) := do
  let column ← s.columns[columnIdx]?
  if column.tiles.length = 1 then
    -- The only tile in the column: remove the whole column.
    let (column, s) ← s.removeColumnByIdx columnIdx
    let tile ← column.tiles[tileIdx]?
    return (⟨tile, column.width, column.isFullWidth, false⟩, s)
  else
    let tile ← column.tiles[tileIdx]?
    let prevWidth := s.dataWidth columnIdx
    let removed := column.removeTile tileIdx
    let becameNormal := !column.isNormal && removed.isNormal
    let s :=
      { s with
        viewOffsetToRestore := if columnIdx = s.activeColumnIdx ∧ becameNormal then none
          else s.viewOffsetToRestore
        interactiveResize := s.interactiveResize.filter fun resize => tile.id != resize.window }
    let s := (s.setColumn columnIdx removed).updateData columnIdx removed
    let offset := prevWidth - removed.actualWidth
    let s := if s.activeColumnIdx ≤ columnIdx then s.animateColumns (columnIdx + 1 ≤ ·) offset
      else s.animateColumns (· ≤ columnIdx) (-offset)
    return (⟨tile, column.width, column.isFullWidth, false⟩, s)

def removeActiveTile (s : ScrollingSpace) : Option (RemovedTile × ScrollingSpace) := do
  let column ← s.activeColumn
  s.removeTileByIdx s.activeColumnIdx column.activeTileIdx

def removeTile (s : ScrollingSpace) (window : ℕ) : Option (RemovedTile × ScrollingSpace) := do
  let (columnIdx, tileIdx) ← s.findWindow window
  s.removeTileByIdx columnIdx tileIdx

end ScrollingSpace

end Macniri.Layout
