import Macniri.Scrolling.Space

/-! The floating space: windows at free positions, stacked from the topmost one down. Functions that
would panic on their arguments return `none`; the animations of moving tiles are left out. -/
namespace Macniri.Layout

def directionalMovePx : ℚ := 50

def maxPx : ℚ := 100000

def maxF : ℚ := 10000

def ensureMinMaxSize (x minSize maxSize : ℤ) : ℤ :=
  let x := if maxSize > 0 then min x maxSize else x
  if minSize > 0 then max x minSize else x

def ensureMinMaxSizeMaybeZero (x minSize maxSize : ℤ) : ℤ :=
  if x ≠ 0 then ensureMinMaxSize x minSize maxSize
  else if minSize > 0 ∧ minSize = maxSize then minSize
  else 0

def clampPreferringTopLeftInArea (area rect : Rectangle) : Point where
  -- Clamp by top and left last so it takes precedence.
  x := max (min rect.loc.x (area.loc.x + area.size.w - rect.size.w)) area.loc.x
  y := max (min rect.loc.y (area.loc.y + area.size.h - rect.size.h)) area.loc.y

def centerPreferringTopLeftInArea (area : Rectangle) (size : Size) : Point where
  x := area.loc.x + max ((area.size.w - size.w) / 2) 0
  y := area.loc.y + max ((area.size.h - size.h) / 2) 0

inductive PositionChange where
  | setFixed (x : ℚ)
  | setProportion (proportion : ℚ)
  | adjustFixed (delta : ℚ)
  | adjustProportion (delta : ℚ)
  deriving DecidableEq, Repr

/-- A coordinate after a position change, in an area of the given start and length. -/
def PositionChange.apply (change : PositionChange) (pos areaLoc available : ℚ) : ℚ :=
  match change with
  | .setFixed x => x + areaLoc
  | .setProportion prop => available * clamp (prop / 100) 0 maxF + areaLoc
  | .adjustFixed x => pos + x
  | .adjustProportion prop =>
    let currentProp := (pos - areaLoc) / max available 1
    available * clamp (currentProp + prop / 100) 0 maxF + areaLoc

/-- Extra per-tile data: the position relative to the working area, and what is computed from it. -/
structure FloatingData where
  pos : Point
  logicalPos : Point
  size : Size
  workingArea : Rectangle
  deriving DecidableEq, Repr

namespace FloatingData

def scaleByWorkingArea (area : Rectangle) (pos : Point) : Point :=
  ⟨pos.x * area.size.w + area.loc.x, pos.y * area.size.h + area.loc.y⟩

def logicalToSizeFracInWorkingArea (area : Rectangle) (logicalPos : Point) : Point :=
  ⟨(logicalPos.x - area.loc.x) / max area.size.w 1, (logicalPos.y - area.loc.y) / max area.size.h 1⟩

/-- One coordinate relative to the working area: a part of the tile stays on screen. -/
def clampOnScreen (x size available : ℚ) : ℚ :=
  let minOnScreen := clamp (size / 4) 10 75
  let maxOffScreen := max 0 (size - minOnScreen)
  min (max x (-maxOffScreen)) (available - size + maxOffScreen)

def recomputeLogicalPos (d : FloatingData) : FloatingData :=
  let area := d.workingArea
  let p := scaleByWorkingArea area d.pos
  { d with logicalPos :=
      ⟨clampOnScreen (p.x - area.loc.x) d.size.w area.size.w + area.loc.x,
        clampOnScreen (p.y - area.loc.y) d.size.h area.size.h + area.loc.y⟩ }

def updateConfig (d : FloatingData) (workingArea : Rectangle) : FloatingData :=
  if d.workingArea = workingArea then d
  else recomputeLogicalPos { d with workingArea := workingArea }

def update (d : FloatingData) (tile : Tile) : FloatingData :=
  if d.size = tile.tileSize then d else recomputeLogicalPos { d with size := tile.tileSize }

def setLogicalPos (d : FloatingData) (logicalPos : Point) : FloatingData :=
  recomputeLogicalPos { d with pos := logicalToSizeFracInWorkingArea d.workingArea logicalPos }

def new (workingArea : Rectangle) (tile : Tile) (logicalPos : Point) : FloatingData :=
  (update ⟨⟨0, 0⟩, ⟨0, 0⟩, ⟨0, 0⟩, workingArea⟩ tile).setLogicalPos logicalPos

def center (d : FloatingData) : Point :=
  ⟨d.logicalPos.x + d.size.w / 2, d.logicalPos.y + d.size.h / 2⟩

end FloatingData

/-- `Iterator::min_by`: the first of the least elements. -/
def minBy {α : Type} (f : α → ℚ) : List α → Option α
  | [] => none
  | a :: as => some (as.foldl (fun best b => if f b < f best then b else best) a)

/-- `Iterator::max_by`: the last of the greatest elements. -/
def maxBy {α : Type} (f : α → ℚ) : List α → Option α
  | [] => none
  | a :: as => some (as.foldl (fun best b => if f best ≤ f b then b else best) a)

structure FloatingSpace where
  tiles : List Tile
  data : List FloatingData
  activeWindowId : Option ℕ
  interactiveResize : Option InteractiveResize
  viewSize : Size
  workingArea : Rectangle
  scale : ℚ
  options : Options
  deriving DecidableEq

namespace FloatingSpace

variable (s : FloatingSpace)

def new (viewSize : Size) (workingArea : Rectangle) (scale : ℚ) (options : Options) :
    FloatingSpace where
  tiles := []
  data := []
  activeWindowId := none
  interactiveResize := none
  viewSize := viewSize
  workingArea := workingArea
  scale := scale
  options := options

def windowIds : List ℕ := s.tiles.map Tile.id

def idxOf (id : ℕ) : Option ℕ := s.tiles.findIdx? (·.id == id)

def hasWindow (id : ℕ) : Bool := s.tiles.any (·.id == id)

def isEmpty : Bool := s.tiles.isEmpty

def activeWindow : Option Window := do
  let id ← s.activeWindowId
  let tile ← s.tiles.find? (·.id == id)
  return tile.window

def updateConfig (viewSize : Size) (workingArea : Rectangle) (scale : ℚ)
    (options : Options) : FloatingSpace :=
  let tiles := s.tiles.map (·.updateConfig viewSize scale options)
  { s with
    tiles := tiles
    data := List.zipWith (fun tile d => (d.update tile).updateConfig workingArea) tiles s.data
    viewSize := viewSize
    workingArea := workingArea
    scale := scale
    options := options }

def clampWithinWorkingArea (pos : Point) (size : Size) : Point :=
  clampPreferringTopLeftInArea s.workingArea ⟨pos, size⟩

def scaleByWorkingArea (pos : Point) : Point :=
  FloatingData.scaleByWorkingArea s.workingArea pos

def logicalToSizeFrac (logicalPos : Point) : Point :=
  FloatingData.logicalToSizeFracInWorkingArea s.workingArea logicalPos

/-- The position that a window rule asks for. -/
def defaultTilePos (size : Size) (pos : FloatingPosition) : Point :=
  let area := s.workingArea
  let x := match pos.relativeTo with
    | .topRight | .bottomRight | .right => area.size.w - size.w - pos.x
    | _ => pos.x
  let y := match pos.relativeTo with
    | .bottomLeft | .bottomRight | .bottom => area.size.h - size.h - pos.y
    | _ => pos.y
  let x := match pos.relativeTo with
    | .top | .bottom => x + (area.size.w / 2 - size.w / 2)
    | _ => x
  let y := match pos.relativeTo with
    | .left | .right => y + (area.size.h / 2 - size.h / 2)
    | _ => y
  ⟨x + area.loc.x, y + area.loc.y⟩

def storedOrDefaultTilePos (tile : Tile) : Option Point :=
  (tile.floatingPos.map s.scaleByWorkingArea).or
    (tile.window.rules.defaultFloatingPosition.map (s.defaultTilePos tile.tileSize))

/-! Stacking. -/

def raiseWindow (fromIdx toIdx : ℕ) : Option FloatingSpace := do
  let tile ← s.tiles[fromIdx]?
  let data ← s.data[fromIdx]?
  if fromIdx < toIdx then none
  else
    some { s with
      tiles := (s.tiles.eraseIdx fromIdx).insertIdx toIdx tile
      data := (s.data.eraseIdx fromIdx).insertIdx toIdx data }

/-- The indices of the descendants below a window, front to back. They are collected back to front,
which finds all of them as long as no window is below its parent. -/
def descendantsOf (tiles : List Tile) (idx : ℕ) (win : Window) : List ℕ :=
  (List.range' (idx + 1) (tiles.length - (idx + 1))).foldr
    (fun i found =>
      if tiles[i]?.any fun below => below.window.isChildOf win ||
          found.any fun j => tiles[j]?.any fun t => below.window.isChildOf t.window
      then i :: found else found) []

/-- Raise windows one after the other, each below the previous one. -/
def raiseAll (s : FloatingSpace) (idx : ℕ) : List ℕ → Option FloatingSpace
  | [] => some s
  | i :: rest => do
    let s ← s.raiseWindow i idx
    s.raiseAll (idx + 1) rest

def bringUpDescendantsOf (idx : ℕ) : Option FloatingSpace := do
  let tile ← s.tiles[idx]?
  s.raiseAll idx (descendantsOf s.tiles idx tile.window)

def activateWindowWithoutRaising (id : ℕ) : FloatingSpace :=
  if s.hasWindow id then { s with activeWindowId := some id } else s

def activateWindow (id : ℕ) : Option FloatingSpace :=
  match s.idxOf id with
  | none => some s
  | some idx => do
    let s ← s.raiseWindow idx 0
    bringUpDescendantsOf { s with activeWindowId := some id } 0

def descendantsAdded (id : ℕ) : Option FloatingSpace :=
  match s.idxOf id with
  | none => some s
  | some idx => s.bringUpDescendantsOf idx

/-! Adding and removing. -/

/-- The size a window is asked for when it becomes floating. -/
def requestFloatingSize (floatingSize : Option ISize) (win : Window) : Window :=
  let size : ISize :=
    -- If the window was fullscreen or maximized without a floating size, ask for (0, 0).
    if win.pendingSizingMode ≠ .normal then floatingSize.getD ⟨0, 0⟩
    else floatingSize.getD (win.expectedSize.getD ⟨0, 0⟩)
  win.requestSizeOnce ⟨ensureMinMaxSizeMaybeZero size.w win.minSize.w win.maxSize.w,
    ensureMinMaxSizeMaybeZero size.h win.minSize.h win.maxSize.h⟩

def addTileAt (idx : ℕ) (tile : Tile) (activate : Bool) :
    Option FloatingSpace :=
  let tile := tile.updateConfig s.viewSize s.scale s.options
  -- Restore the previous floating window size, and in case the tile is fullscreen, unfullscreen it.
  let tile := { tile with window := requestFloatingSize tile.floatingWindowSize tile.window }
  let activeWindowId := if activate || s.tiles.isEmpty then some tile.id else s.activeWindowId
  -- Make sure the tile isn't inserted below its parent.
  let idx := ((s.tiles.take idx).findIdx? fun above => tile.window.isChildOf above.window).getD idx
  let pos := (s.storedOrDefaultTilePos tile).getD
    (centerPreferringTopLeftInArea s.workingArea tile.tileSize)
  bringUpDescendantsOf
    { s with
      activeWindowId := activeWindowId
      tiles := s.tiles.insertIdx idx tile
      data := s.data.insertIdx idx (FloatingData.new s.workingArea tile pos) } idx

def addTile (tile : Tile) (activate : Bool) : Option FloatingSpace :=
  s.addTileAt 0 tile activate

def addTileAbove (above : ℕ) (tile : Tile) (activate : Bool) :
    Option FloatingSpace := do
  let idx ← s.idxOf above
  let data ← s.data[idx]?
  let tileSize := tile.tileSize
  let pos := s.clampWithinWorkingArea
    ⟨data.logicalPos.x + (data.size.w - tileSize.w) / 2,
      data.logicalPos.y + (data.size.h - tileSize.h) / 2⟩ tileSize
  s.addTileAt idx { tile with floatingPos := some (s.logicalToSizeFrac pos) } activate

def removeTileByIdx (idx : ℕ) : Option (RemovedTile × FloatingSpace) := do
  let tile ← s.tiles[idx]?
  let data ← s.data[idx]?
  let tiles := s.tiles.eraseIdx idx
  let s :=
    { s with
      tiles := tiles
      data := s.data.eraseIdx idx
      -- If the active tile was removed, make the topmost tile active.
      activeWindowId := if tiles.isEmpty then none
        else if some tile.id = s.activeWindowId then tiles.head?.map Tile.id
        else s.activeWindowId
      interactiveResize := s.interactiveResize.filter fun resize => tile.id != resize.window }
  -- Store the floating size and position.
  let tile :=
    { tile with
      floatingWindowSize := tile.window.expectedSize.or tile.floatingWindowSize
      floatingPos := some data.pos }
  return (⟨tile, .fixed tile.tileExpectedOrCurrentSize.w, false, true⟩, s)

def removeTile (id : ℕ) : Option (RemovedTile × FloatingSpace) := do
  let idx ← s.idxOf id
  s.removeTileByIdx idx

/-- The inner option is empty if there is no active tile. -/
def removeActiveTile : Option (Option (RemovedTile × FloatingSpace)) :=
  match s.activeWindowId with
  | none => some none
  | some id => (s.removeTile id).map some

/-! Interactive resize. -/

def interactiveResizeBegin (window : ℕ) (edges : ResizeEdge) :
    Option FloatingSpace :=
  if s.interactiveResize.isSome then some s
  else do
    let tile ← s.tiles.find? (·.id == window)
    return { s with interactiveResize := some ⟨window, tile.windowSize, edges⟩ }

def interactiveResizeEnd (window : Option ℕ) : FloatingSpace :=
  match s.interactiveResize, window with
  | some resize, some window =>
    if window ≠ resize.window then s else { s with interactiveResize := none }
  | _, _ => { s with interactiveResize := none }

/-! Sizes. -/

def setTile (idx : ℕ) (tile : Tile) : FloatingSpace :=
  { s with tiles := s.tiles.set idx tile }

/-- The window length that a change asks for. -/
def changedLength (change : SizeChange) (available currentTile : ℚ) (currentWindow : ℤ)
    (windowForTile : ℚ → ℚ) : ℤ :=
  let length : ℚ := match change with
    | .setFixed length => length
    | .setProportion prop => windowForTile (available * clamp (prop / 100) 0 maxF)
    | .adjustFixed delta => (currentWindow + delta : ℤ)
    | .adjustProportion delta =>
      windowForTile (available * clamp (currentTile / available + delta / 100) 0 maxF)
  ⌊clamp (round length) 1 maxPx⌋

/-- The window that an argument refers to: the active one by default. -/
def windowOrActive (id : Option ℕ) : Option ℕ := id.or s.activeWindowId

def setWindowWidth (id : Option ℕ) (change : SizeChange) :
    Option FloatingSpace :=
  match s.windowOrActive id with
  | none => some s
  | some id => do
    let idx ← s.idxOf id
    let tile ← s.tiles[idx]?
    let win := tile.window
    let width := changedLength change s.workingArea.size.w tile.tileExpectedOrCurrentSize.w
      (win.expectedSize.getD win.size).w tile.windowWidthForTileWidth
    let height := (win.expectedSize.getD ⟨0, 0⟩).h
    return s.setTile idx { tile with
      floatingPresetWidthIdx := none
      window := win.requestSizeOnce ⟨ensureMinMaxSize width win.minSize.w win.maxSize.w,
        ensureMinMaxSize height win.minSize.h win.maxSize.h⟩ }

def setWindowHeight (id : Option ℕ) (change : SizeChange) :
    Option FloatingSpace :=
  match s.windowOrActive id with
  | none => some s
  | some id => do
    let idx ← s.idxOf id
    let tile ← s.tiles[idx]?
    let win := tile.window
    let height := changedLength change s.workingArea.size.h tile.tileExpectedOrCurrentSize.h
      (win.expectedSize.getD win.size).h tile.windowHeightForTileHeight
    let width := (win.expectedSize.getD ⟨0, 0⟩).w
    return s.setTile idx { tile with
      floatingPresetHeightIdx := none
      window := win.requestSizeOnce ⟨ensureMinMaxSize width win.minSize.w win.maxSize.w,
        ensureMinMaxSize height win.minSize.h win.maxSize.h⟩ }

/-- The preset to toggle to, when the current one is not known. -/
def nextPresetIdx (presets : List PresetSize) (available currentTile currentWindow : ℚ)
    (forwards : Bool) : ℕ :=
  let resolved := presets.map fun preset => match preset with
    | .proportion p => ResolvedSize.tile (available * p)
    | .fixed f => ResolvedSize.window f
  -- Some allowance for fractional scaling purposes.
  if forwards then
    (resolved.findIdx? fun
      | .tile size => currentTile + 1 < size
      | .window size => currentWindow + 1 < size).getD 0
  else
    match resolved.reverse.findIdx? fun
      | .tile size => size + 1 < currentTile
      | .window size => size + 1 < currentWindow with
    | some i => presets.length - 1 - i
    | none => presets.length - 1

def toggledPresetIdx (current : Option ℕ) (presets : List PresetSize)
    (available currentTile currentWindow : ℚ) (forwards : Bool) : ℕ :=
  match current with
  | some idx => (idx + if forwards then 1 else presets.length - 1) % presets.length
  | none => nextPresetIdx presets available currentTile currentWindow forwards

def toggleWindowWidth (id : Option ℕ) (forwards : Bool) :
    Option FloatingSpace :=
  match s.windowOrActive id with
  | none => some s
  | some id => do
    let idx ← s.idxOf id
    let tile ← s.tiles[idx]?
    let presetIdx := toggledPresetIdx tile.floatingPresetWidthIdx s.options.presetColumnWidths
      s.workingArea.size.w tile.tileExpectedOrCurrentSize.w tile.windowExpectedOrCurrentSize.w forwards
    let preset ← s.options.presetColumnWidths[presetIdx]?
    let s ← s.setWindowWidth (some id) (SizeChange.ofPreset preset)
    let tile ← s.tiles[idx]?
    return (s.setTile idx { tile with floatingPresetWidthIdx := some presetIdx }).interactiveResizeEnd
      (some id)

def toggleWindowHeight (id : Option ℕ) (forwards : Bool) :
    Option FloatingSpace :=
  match s.windowOrActive id with
  | none => some s
  | some id => do
    let idx ← s.idxOf id
    let tile ← s.tiles[idx]?
    let presetIdx := toggledPresetIdx tile.floatingPresetHeightIdx s.options.presetWindowHeights
      s.workingArea.size.h tile.tileExpectedOrCurrentSize.h tile.windowExpectedOrCurrentSize.h forwards
    let preset ← s.options.presetWindowHeights[presetIdx]?
    let s ← s.setWindowHeight (some id) (SizeChange.ofPreset preset)
    let tile ← s.tiles[idx]?
    return (s.setTile idx { tile with floatingPresetHeightIdx := some presetIdx }).interactiveResizeEnd
      (some id)

def resizeHorizontally (resize : InteractiveResize) (dx : ℚ) :
    Option FloatingSpace :=
  if resize.edges.left || resize.edges.right then
    s.setWindowWidth (some resize.window) (.setFixed
      ⌊round (resize.originalWindowSize.w + if resize.edges.left then -dx else dx)⌋)
  else some s

def resizeVertically (resize : InteractiveResize) (dy : ℚ) :
    Option FloatingSpace :=
  if resize.edges.top || resize.edges.bottom then
    s.setWindowHeight (some resize.window) (.setFixed
      ⌊round (resize.originalWindowSize.h + if resize.edges.top then -dy else dy)⌋)
  else some s

def interactiveResizeUpdate (window : ℕ) (delta : Point) :
    Option FloatingSpace :=
  match s.interactiveResize with
  | none => some s
  | some resize =>
    if window ≠ resize.window then some s
    else do
      let s ← s.resizeHorizontally resize delta.x
      s.resizeVertically resize delta.y

/-! Focus. -/

/-- Focus the nearest window in a direction; the distance is positive for windows there. -/
def focusDirectional (distance : Point → Point → ℚ) :
    Option (Bool × FloatingSpace) :=
  match s.activeWindowId with
  | none => some (false, s)
  | some activeId => do
    let activeIdx ← s.idxOf activeId
    let data ← s.data[activeIdx]?
    let dist (td : Tile × FloatingData) : ℚ := distance data.center td.2.center
    let others := (s.tiles.zip s.data).filter fun td => td.1.id != activeId && 0 < dist td
    match minBy dist others with
    | none => some (false, s)
    | some (tile, _) => (s.activateWindow tile.id).map (true, ·)

def focusLeft : Option (Bool × FloatingSpace) :=
  s.focusDirectional fun focus other => focus.x - other.x

def focusRight : Option (Bool × FloatingSpace) :=
  s.focusDirectional fun focus other => other.x - focus.x

def focusUp : Option (Bool × FloatingSpace) :=
  s.focusDirectional fun focus other => focus.y - other.y

def focusDown : Option (Bool × FloatingSpace) :=
  s.focusDirectional fun focus other => other.y - focus.y

/-- Focus the window that is picked from all tiles with their positions. -/
def focusPicked
    (pick : (Tile × FloatingData → ℚ) → List (Tile × FloatingData) → Option (Tile × FloatingData))
    (coord : Point → ℚ) : Option FloatingSpace :=
  match pick (fun td => coord td.2.logicalPos) (s.tiles.zip s.data) with
  | none => some s
  | some (tile, _) => s.activateWindow tile.id

def focusLeftmost : Option FloatingSpace := s.focusPicked minBy Point.x

def focusRightmost : Option FloatingSpace := s.focusPicked maxBy Point.x

def focusTopmost : Option FloatingSpace := s.focusPicked minBy Point.y

def focusBottommost : Option FloatingSpace := s.focusPicked maxBy Point.y

/-! Positions. -/

def moveTo (idx : ℕ) (newPos : Point) : FloatingSpace :=
  interactiveResizeEnd { s with data := s.data.modify idx (·.setLogicalPos newPos) } none

def moveBy (amount : Point) : Option FloatingSpace :=
  match s.activeWindowId with
  | none => some s
  | some activeId => do
    let idx ← s.idxOf activeId
    let data ← s.data[idx]?
    return s.moveTo idx ⟨data.logicalPos.x + amount.x, data.logicalPos.y + amount.y⟩

def moveLeft : Option FloatingSpace := s.moveBy ⟨-directionalMovePx, 0⟩

def moveRight : Option FloatingSpace := s.moveBy ⟨directionalMovePx, 0⟩

def moveUp : Option FloatingSpace := s.moveBy ⟨0, -directionalMovePx⟩

def moveDown : Option FloatingSpace := s.moveBy ⟨0, directionalMovePx⟩

def moveWindow (id : Option ℕ) (x y : PositionChange) : Option FloatingSpace :=
  match s.windowOrActive id with
  | none => some s
  | some id => do
    let idx ← s.idxOf id
    let data ← s.data[idx]?
    let area := s.workingArea
    return s.moveTo idx ⟨x.apply data.logicalPos.x area.loc.x area.size.w,
      y.apply data.logicalPos.y area.loc.y area.size.h⟩

def centerWindow (id : Option ℕ) : Option FloatingSpace :=
  match s.windowOrActive id with
  | none => some s
  | some id => do
    let idx ← s.idxOf id
    let data ← s.data[idx]?
    return s.moveTo idx (centerPreferringTopLeftInArea s.workingArea data.size)

/-! Client commits and periodic updates. -/

def updateWindow (id : ℕ) (commit : Commit) : Option FloatingSpace := do
  let idx ← s.idxOf id
  let tile ← s.tiles[idx]?
  let data ← s.data[idx]?
  let resize := tile.window.interactiveResizeData
  let tile := (tile.onCommit commit).updateWindow
  let updated := data.update tile
  -- When resizing by top/left edge, update the position accordingly.
  let updated := match resize with
    | none => updated
    | some edges =>
      let dx := if edges.left then data.size.w - updated.size.w else 0
      let dy := if edges.top then data.size.h - updated.size.h else 0
      updated.setLogicalPos ⟨updated.logicalPos.x + dx, updated.logicalPos.y + dy⟩
  return { s with tiles := s.tiles.set idx tile, data := s.data.set idx updated }

/-- `refresh`, as far as the layout reads it back. -/
def refresh : FloatingSpace :=
  { s with tiles := s.tiles.map fun tile =>
      tile.setInteractiveResize ((s.interactiveResize.filter (·.window == tile.id)).map (·.edges)) }

end FloatingSpace

end Macniri.Layout
