import Mathlib.Data.List.Sort
import Macniri.Layout.Tile

/-! Columns of the scrolling layout: tiles, their heights and the sizes requested from them. -/
namespace Macniri.Layout

inductive ColumnWidth where
  | proportion (p : ℚ)
  | fixed (px : ℚ)
  deriving DecidableEq, Repr

def ColumnWidth.ofPreset : PresetSize → ColumnWidth
  | .proportion p => .proportion (clamp p 0 10000)
  | .fixed f => .fixed (max 1 (min f 100000) : ℤ)

inductive WindowHeight where
  | auto (weight : ℚ)
  | fixed (px : ℚ)
  | preset (idx : ℕ)
  deriving DecidableEq, Repr

def WindowHeight.auto1 : WindowHeight := .auto 1

def WindowHeight.isAuto : WindowHeight → Bool
  | .auto _ => true
  | _ => false

structure TileData where
  height : WindowHeight
  size : Size
  interactivelyResizingByLeftEdge : Bool
  deriving DecidableEq, Repr

def TileData.update (d : TileData) (t : Tile) : TileData :=
  { d with
    size := t.tileSize
    interactivelyResizingByLeftEdge := t.window.interactiveResizeData.any (·.left) }

def TileData.new (t : Tile) (height : WindowHeight) : TileData :=
  TileData.update ⟨height, ⟨0, 0⟩, false⟩ t

/-- A running animation, seen at the current time of the clock: its value then, and the value it
ends at. The curve in between is up to the clock. -/
structure Animation where
  value : ℚ
  toValue : ℚ
  deriving DecidableEq, Repr

structure MoveAnimation where
  anim : Animation
  frm : ℚ
  deriving DecidableEq, Repr

/-- `uid` is the identity of the column within its space: it is given when the column is inserted
and tells a column apart from the ones before and after it, whatever its tiles and its index. -/
structure Column where
  uid : ℕ
  tiles : List Tile
  data : List TileData
  activeTileIdx : ℕ
  width : ColumnWidth
  presetWidthIdx : Option ℕ
  isFullWidth : Bool
  isPendingFullscreen : Bool
  isPendingMaximized : Bool
  displayMode : ColumnDisplay
  moveAnimation : Option MoveAnimation
  viewSize : Size
  workingArea : Rectangle
  parentArea : Rectangle
  scale : ℚ
  options : Options
  deriving DecidableEq

/-- A tile height while the heights of a column are being distributed. -/
inductive TileHeight where
  | auto (weight : ℚ)
  | fixed (px : ℚ)
  deriving DecidableEq, Repr

/-- A tile during the distribution: its height so far and its minimum height. -/
structure HeightRow where
  height : TileHeight
  tile : Tile
  minH : ℚ

namespace HeightRow

/-- The share of the remaining height, in whole pixels of the window. -/
def roundAuto (r : HeightRow) (auto : ℚ) : ℚ :=
  r.tile.tileHeightForWindowHeight (max (round (r.tile.windowHeightForTileHeight auto)) 1)

/-- The first automatic tile whose share of the height is less than its minimum height. -/
def firstUnsatisfied : List HeightRow → ℚ → ℚ → Option ℕ
  | [], _, _ => none
  | r :: rest, heightLeft, totalWeight =>
    match r.height with
    | .fixed _ => (firstUnsatisfied rest heightLeft totalWeight).map (· + 1)
    | .auto weight =>
      let auto := heightLeft * (weight / totalWeight)
      if auto < r.minH then some 0
      else
        (firstUnsatisfied rest (heightLeft - r.roundAuto auto) (totalWeight - weight)).map (· + 1)

/-- All minimum heights are satisfied: fill the automatic heights in. -/
def fill : List HeightRow → ℚ → ℚ → List ℚ
  | [], _, _ => []
  | r :: rest, heightLeft, totalWeight =>
    match r.height with
    | .fixed h => h :: fill rest heightLeft totalWeight
    | .auto weight =>
      let auto := r.roundAuto (heightLeft * (weight / totalWeight))
      auto :: fill rest (heightLeft - auto) (totalWeight - weight)

/-- The outer loop: every round but the last gives one tile its minimum height, so as many rounds
as there are tiles are enough. -/
def distribute : ℕ → List HeightRow → ℚ → ℚ → List ℚ
  | 0, rows, heightLeft, totalWeight => fill rows heightLeft totalWeight
  | n + 1, rows, heightLeft, totalWeight =>
    match firstUnsatisfied rows heightLeft totalWeight with
    | none => fill rows heightLeft totalWeight
    | some i =>
      match rows[i]? with
      | some ⟨.auto weight, tile, minH⟩ =>
        distribute n (rows.set i ⟨.fixed minH, tile, minH⟩) (heightLeft - minH)
          (totalWeight - weight)
      | _ => fill rows heightLeft totalWeight

def fixedHeight (r : HeightRow) : ℚ :=
  match r.height with
  | .fixed h => h
  | .auto _ => 0

def weight (r : HeightRow) : ℚ :=
  match r.height with
  | .fixed _ => 0
  | .auto weight => weight

end HeightRow

namespace Column

variable (c : Column)

def windowIds : List ℕ := c.tiles.map Tile.id

def isTabbed : Bool := c.displayMode == .tabbed

def pendingSizingMode : SizingMode :=
  if c.isPendingFullscreen then .fullscreen
  else if c.isPendingMaximized then .maximized
  else .normal

/-- A column is fullscreen (or maximized) as long as any of its tiles is. -/
def sizingMode : SizingMode :=
  if c.tiles.any (·.sizingMode == .fullscreen) then .fullscreen
  else if c.tiles.any (·.sizingMode == .maximized) then .maximized
  else .normal

def isNormal : Bool := c.sizingMode == .normal

def renderOffsetX : ℚ :=
  match c.moveAnimation with
  | some m => m.frm * m.anim.value
  | none => 0

def animateMoveFrom (fromXOffset : ℚ) : Column :=
  { c with moveAnimation := some ⟨⟨1, 0⟩, fromXOffset + c.renderOffsetX⟩ }

def offsetMoveAnimCurrent (offset : ℚ) : Column :=
  match c.moveAnimation with
  | some m =>
    if 1 / 1000 < m.anim.value then
      { c with moveAnimation := some { m with frm := m.frm + offset / m.anim.value } }
    else c
  | none => c

def contains (window : ℕ) : Bool := c.tiles.any (·.id == window)

def position (window : ℕ) : Option ℕ := c.tiles.findIdx? (·.id == window)

def activateIdx (idx : ℕ) : Column := { c with activeTileIdx := idx }

def extraSize : Size :=
  if c.isTabbed then c.options.tabIndicator.extraSize c.tiles.length c.scale else ⟨0, 0⟩

def resolvePresetWidth (preset : PresetSize) : ResolvedSize :=
  resolvePresetSize preset c.options c.workingArea.size.w c.extraSize.w

def resolvePresetHeight (preset : PresetSize) : ResolvedSize :=
  resolvePresetSize preset c.options c.workingArea.size.h c.extraSize.h

def resolveColumnWidth : ColumnWidth → ℚ
  | .proportion p =>
    (c.workingArea.size.w - c.options.gaps) * p - c.options.gaps - c.extraSize.w
  | .fixed px => px

/-- The cached actual width: the widest tile, and the tab indicator if it is shown. -/
def actualWidth : ℚ :=
  let tilesWidth := ((c.data.map (·.size.w)).max?).getD 0
  if c.isTabbed && c.isNormal then
    tilesWidth + (c.options.tabIndicator.extraSize c.tiles.length c.scale).w
  else tilesWidth

def minSizes : List Size :=
  c.tiles.map fun t => ⟨max t.minSizeNonfullscreen.w 1, max t.minSizeNonfullscreen.h 1⟩

def maxSizes : List Size := c.tiles.map Tile.maxSizeNonfullscreen

/-- The tile width requested in the normal sizing mode. -/
def requestedWidth : ℚ :=
  let minWidth := ((c.minSizes.map (·.w)).max?).getD 1
  let maxWidth := (((c.maxSizes.map (·.w)).filter (· ≠ 0)).min?).getD 2147483647
  let width := c.resolveColumnWidth (if c.isFullWidth then .proportion 1 else c.width)
  max (min width (max maxWidth minWidth)) minWidth

def maxTileHeight : ℚ :=
  c.workingArea.size.h - c.options.gaps * 2 - c.extraSize.h

/-- With several windows in a column, the non-automatic height is limited by the other windows'
minimum heights. -/
def maxNonAutoWindowHeight : Option ℚ :=
  if c.tiles.length > 1 && !c.isTabbed then
    match c.data.findIdx? (!·.height.isAuto) with
    | none => none
    | some nonAutoIdx =>
      let minHeightTaken := ((c.minSizes.eraseIdx nonAutoIdx).map (·.h + c.options.gaps)).sum
      c.tiles[nonAutoIdx]?.map fun tile =>
        max 1 (round (tile.windowHeightForTileHeight (c.maxTileHeight - minHeightTaken)))
  else none

def presetWindowHeight (tile : Tile) (preset : PresetSize) : ℚ :=
  let h := match c.resolvePresetHeight preset with
    | .tile h => tile.windowHeightForTileHeight h
    | .window h => h
  clamp (round h) 1 100000

/-- Convert a requested window height to a tile height. -/
def tileHeight (tile : Tile) (data : TileData) : TileHeight :=
  match data.height with
  | .auto weight => .auto weight
  | .fixed height =>
    let windowHeight := max (round height) 1
    .fixed (tile.tileHeightForWindowHeight (match c.maxNonAutoWindowHeight with
      | some m => min windowHeight m
      | none => min windowHeight (round (tile.windowHeightForTileHeight c.maxTileHeight))))
  | .preset idx =>
    -- In range by the representation invariant; the code panics otherwise.
    let windowHeight :=
      c.presetWindowHeight tile ((c.options.presetWindowHeights[idx]?).getD (.fixed 1))
    .fixed (tile.tileHeightForWindowHeight (match c.maxNonAutoWindowHeight with
      | some m => min windowHeight m
      | none => windowHeight))

/-- In the tabbed display mode all tiles have the height of the only fixed tile, if any. -/
def tabbedHeight (heights : List TileHeight) : ℚ :=
  let height := (heights.findSome? fun
    | .fixed h => some h
    | .auto _ => none).getD c.maxTileHeight
  max height (min c.maxTileHeight (((c.minSizes.map (·.h)).max?).getD 1))

/-- Apply the exact and the minimum and maximum height constraints of a tile. -/
def constrainHeight (h : TileHeight) (minH maxH : ℚ) : TileHeight :=
  match (if minH = maxH then TileHeight.fixed minH else h) with
  | .fixed px => .fixed (max (if 0 < maxH then min px maxH else px) minH)
  | .auto weight => .auto weight

def heightRows : List HeightRow :=
  let heights := List.zipWith c.tileHeight c.tiles c.data
  (List.zipWith Prod.mk c.tiles heights).map fun (tile, h) =>
    let minH := max tile.minSizeNonfullscreen.h 1
    let h := if c.isTabbed then .fixed (c.tabbedHeight heights) else h
    ⟨constrainHeight h minH tile.maxSizeNonfullscreen.h, tile, minH⟩

/-- The tile heights requested in the normal sizing mode. -/
def requestedHeights : List ℚ :=
  let rows := c.heightRows
  let heightLeft := c.workingArea.size.h - c.options.gaps * (c.tiles.length + 1)
  HeightRow.distribute rows.length rows (heightLeft - (rows.map HeightRow.fixedHeight).sum)
    (rows.map HeightRow.weight).sum

def updateTileSizes : Column :=
  match c.pendingSizingMode with
  | .fullscreen => { c with tiles := c.tiles.map Tile.requestFullscreen }
  | .maximized => { c with tiles := c.tiles.map (·.requestMaximized c.parentArea.size) }
  | .normal =>
    let heights := c.requestedHeights
    { c with tiles := c.tiles.mapIdx fun i t =>
        match heights[i]? with
        | some h => t.requestTileSize ⟨c.requestedWidth, h⟩
        | none => t }

/-- Make all heights automatic, with weights that keep the apparent heights: the median tile
height gets weight 1. -/
def convertHeightsToAuto : Column :=
  let heights := c.tiles.map (·.tileSize.h)
  let sorted := heights.insertionSort (· ≤ ·)
  let median := (sorted[sorted.length / 2]?).getD 1
  { c with data := c.data.mapIdx fun i d =>
      match heights[i]? with
      | some h => { d with height := .auto (h / median) }
      | none => d }

def addTileAt (idx : ℕ) (tile : Tile) : Column :=
  let tile := tile.updateConfig c.viewSize c.scale c.options
  let c := if c.isTabbed then c
    else { c with isPendingFullscreen := false, isPendingMaximized := false }
  updateTileSizes { c with
    data := c.data.insertIdx idx (TileData.new tile .auto1)
    tiles := c.tiles.insertIdx idx tile }

def setFullscreen (isFullscreen : Bool) : Column :=
  if c.isPendingFullscreen = isFullscreen then c
  else updateTileSizes { c with isPendingFullscreen := isFullscreen }

def setMaximized (maximize : Bool) : Column :=
  if c.isPendingMaximized = maximize then c
  else updateTileSizes { c with isPendingMaximized := maximize }

/-- The column of a tile before the tile is in it. -/
def emptyFor (tile : Tile) (viewSize : Size) (workingArea parentArea : Rectangle) (scale : ℚ)
    (width : ColumnWidth) (isFullWidth : Bool) : Column where
  uid := 0
  tiles := []
  data := []
  activeTileIdx := 0
  width := width
  -- We know the width regardless of what size the window opens with: match it to a preset.
  presetWidthIdx := tile.options.presetColumnWidths.findIdx? fun preset =>
    width == ColumnWidth.ofPreset preset
  isFullWidth := isFullWidth
  isPendingFullscreen := false
  isPendingMaximized := false
  displayMode := tile.window.rules.defaultColumnDisplay.getD tile.options.defaultColumnDisplay
  moveAnimation := none
  viewSize := viewSize
  workingArea := workingArea
  parentArea := parentArea
  scale := scale
  options := tile.options

def newWithTile (tile : Tile) (viewSize : Size) (workingArea parentArea : Rectangle) (scale : ℚ)
    (width : ColumnWidth) (isFullWidth : Bool) : Column :=
  let c := (emptyFor tile viewSize workingArea parentArea scale width isFullWidth).addTileAt 0 tile
  match tile.window.pendingSizingMode with
  | .normal => c
  | .maximized => c.setMaximized true
  | .fullscreen => c.setFullscreen true

def updateConfig (viewSize : Size) (workingArea parentArea : Rectangle) (scale : ℚ)
    (options : Options) : Column :=
  let updateSizes :=
    c.viewSize ≠ viewSize ∨ c.workingArea ≠ workingArea ∨ c.parentArea ≠ parentArea ∨
    c.options.presetWindowHeights ≠ options.presetWindowHeights ∨ c.options.gaps ≠ options.gaps ∨
    c.options.border ≠ options.border ∨ c.options.tabIndicator ≠ options.tabIndicator
  let presetWidthIdx :=
    if c.options.presetColumnWidths ≠ options.presetColumnWidths then none else c.presetWidthIdx
  let d := if c.options.presetWindowHeights ≠ options.presetWindowHeights
    then c.convertHeightsToAuto.data else c.data
  let tiles := c.tiles.map (·.updateConfig viewSize scale options)
  let c :=
    { c with
      presetWidthIdx := presetWidthIdx
      tiles := tiles
      data := List.zipWith (fun t d => d.update t) tiles d
      viewSize := viewSize
      workingArea := workingArea
      parentArea := parentArea
      scale := scale
      options := options }
  if updateSizes then c.updateTileSizes else c

def updateWindow (tileIdx : ℕ) (commit : Commit) : Column :=
  match c.tiles[tileIdx]? with
  | none => c
  | some tile =>
    let tile := (tile.onCommit commit).updateWindow
    { c with
      tiles := c.tiles.set tileIdx tile
      data := c.data.modify tileIdx (·.update tile) }

def focusIndex (index : ℕ) : Column :=
  c.activateIdx (min (index - 1) (c.tiles.length - 1))

def focusUp : Column := c.activateIdx (c.activeTileIdx - 1)

def focusDown : Column := c.activateIdx (min (c.activeTileIdx + 1) (c.tiles.length - 1))

def focusTop : Column := c.activateIdx 0

def focusBottom : Column := c.activateIdx (c.tiles.length - 1)

/-- `Vec::swap`, in range. -/
def swapAt {α : Type} (xs : List α) (i j : ℕ) : List α :=
  match xs[i]?, xs[j]? with
  | some a, some b => (xs.set i b).set j a
  | _, _ => xs

/-- Swap the active tile with the one at `newIdx`, keeping it active. -/
def moveActiveTileTo (newIdx : ℕ) : Column :=
  if c.activeTileIdx = newIdx then c
  else
    { c with
      tiles := swapAt c.tiles c.activeTileIdx newIdx
      data := swapAt c.data c.activeTileIdx newIdx
      activeTileIdx := newIdx }

def moveUp : Column := c.moveActiveTileTo (c.activeTileIdx - 1)

def moveDown : Column :=
  c.moveActiveTileTo (min (c.activeTileIdx + 1) (c.tiles.length - 1))

def toggleFullWidth : Column :=
  updateTileSizes
    (if c.isPendingMaximized then { c with isPendingMaximized := false, isFullWidth := false }
    else { c with isFullWidth := !c.isFullWidth })

def setColumnWidth (change : SizeChange) (tileIdx : Option ℕ) : Column :=
  let current := if c.isFullWidth || c.isPendingMaximized then .proportion 1 else c.width
  let currentPx := c.resolveColumnWidth current
  let width : ColumnWidth := match current, change with
    | _, .setFixed fixed =>
      .fixed (match c.tiles[tileIdx.getD c.activeTileIdx]? with
        | some tile => clamp (tile.tileWidthForWindowWidth fixed) 1 100000
        | none => 1)
    | _, .setProportion proportion => .proportion (clamp (proportion / 100) 0 10000)
    | _, .adjustFixed delta => .fixed (clamp (currentPx + delta) 1 100000)
    | .proportion current, .adjustProportion delta =>
      .proportion (clamp (current + delta / 100) 0 10000)
    | .fixed _, .adjustProportion delta =>
      let full := c.workingArea.size.w - c.options.gaps
      let current := if full = 0 then 1 else (currentPx + c.options.gaps + c.extraSize.w) / full
      .proportion (clamp (current + delta / 100) 0 10000)
  updateTileSizes { c with
    width := width
    presetWidthIdx := none
    isFullWidth := false
    isPendingMaximized := false }

/-- The index of the next preset: the one after the current one, cyclically, or else the nearest
one in the given direction among the presets that `isPast` and `isBefore` compare with. -/
def nextPreset (current : Option ℕ) (forwards : Bool) (sizes : List ResolvedSize)
    (isPast isBefore : ResolvedSize → Bool) : ℕ :=
  match current with
  | some idx => (idx + if forwards then 1 else sizes.length - 1) % sizes.length
  | none =>
    if forwards then (sizes.findIdx? isPast).getD 0
    else
      -- `rposition`: the last match.
      match sizes.reverse.findIdx? isBefore with
      | some i => sizes.length - 1 - i
      | none => sizes.length - 1

def toggleWidth (tileIdx : Option ℕ) (forwards : Bool) : Column :=
  let tileIdx := tileIdx.getD c.activeTileIdx
  match c.tiles[tileIdx]? with
  | none => c
  | some tile =>
    let currentWindow := tile.windowExpectedOrCurrentSize.w
    let currentTile := tile.tileExpectedOrCurrentSize.w
    let presetIdx := nextPreset
      (if c.isFullWidth || c.isPendingMaximized then none else c.presetWidthIdx) forwards
      (c.options.presetColumnWidths.map c.resolvePresetWidth)
      (fun
        | .tile resolved => decide (currentTile + 1 < resolved)
        | .window resolved => decide (currentWindow + 1 < resolved))
      (fun
        | .tile resolved => decide (resolved + 1 < currentTile)
        | .window resolved => decide (resolved + 1 < currentWindow))
    match c.options.presetColumnWidths[presetIdx]? with
    | none => c
    | some preset =>
      { c.setColumnWidth (SizeChange.ofPreset preset) (some tileIdx) with
        presetWidthIdx := some presetIdx }

def isAutoAt (tileIdx : ℕ) : Bool := c.data[tileIdx]?.any (·.height.isAuto)

def setHeightAt (tileIdx : ℕ) (height : WindowHeight) : Column :=
  { c with data := c.data.modify tileIdx fun d => { d with height := height } }

/-- Only one window in a column can have a non-automatic height: before a tile with an automatic
height gets one, all heights become automatic. -/
def autoExcept (tileIdx : ℕ) : Column :=
  if c.isAutoAt tileIdx then c.convertHeightsToAuto else c

/-- The new window height for a size change, limited by the other windows and its own bounds. -/
def windowHeightAfter (tileIdx : ℕ) (tile : Tile) (data : TileData)
    (change : SizeChange) : ℚ :=
  let currentWindowPx := match data.height with
    | .fixed height => height
    | .auto _ | .preset _ => tile.windowSize.h
  let currentTilePx := tile.tileHeightForWindowHeight currentWindowPx
  let workingSize := c.workingArea.size.h
  let gaps := c.options.gaps
  let extraSize := c.extraSize.h
  let full := workingSize - gaps
  let currentProp := if full = 0 then 1 else (currentTilePx + gaps) / full
  let windowHeight : ℚ := match change with
    | .setFixed fixed => fixed
    | .setProportion proportion =>
      tile.windowHeightForTileHeight ((workingSize - gaps) * (proportion / 100) - gaps - extraSize)
    | .adjustFixed delta => currentWindowPx + delta
    | .adjustProportion delta =>
      tile.windowHeightForTileHeight
        ((workingSize - gaps) * (currentProp + delta / 100) - gaps - extraSize)
  let minHeightTaken := if c.isTabbed then 0
    else ((c.tiles.eraseIdx tileIdx).map fun t => max 1 t.minSizeNonfullscreen.h + gaps).sum
  let heightLeft := workingSize - extraSize - gaps - minHeightTaken - gaps
  let heightLeft := max 1 (tile.windowHeightForTileHeight heightLeft)
  let windowHeight := min heightLeft windowHeight
  let minH := tile.window.minSize.h
  let maxH := tile.window.maxSize.h
  let windowHeight := if 0 < maxH then min windowHeight maxH else windowHeight
  let windowHeight := if 0 < minH then max windowHeight minH else windowHeight
  clamp windowHeight 1 100000

def setWindowHeight (change : SizeChange) (tileIdx : Option ℕ) : Column :=
  let tileIdx := tileIdx.getD c.activeTileIdx
  let c := c.autoExcept tileIdx
  match c.tiles[tileIdx]?, c.data[tileIdx]? with
  | some tile, some data =>
    updateTileSizes
      { c.setHeightAt tileIdx (.fixed (c.windowHeightAfter tileIdx tile data change)) with
        isPendingMaximized := false }
  | _, _ => c

def resetWindowHeight (tileIdx : Option ℕ) : Column :=
  updateTileSizes
    (if c.isTabbed then { c with data := c.data.map fun d => { d with height := .auto1 } }
    else c.setHeightAt (tileIdx.getD c.activeTileIdx) .auto1)

def toggleWindowHeight (tileIdx : Option ℕ) (forwards : Bool) : Column :=
  let tileIdx := tileIdx.getD c.activeTileIdx
  let c := c.autoExcept tileIdx
  match c.tiles[tileIdx]?, c.data[tileIdx]? with
  | some tile, some data =>
    let current := data.size.h
    let presetIdx := nextPreset
      (match data.height with
        | .preset idx => if c.isPendingMaximized then none else some idx
        | _ => none) forwards
      (c.options.presetWindowHeights.map fun preset =>
        .tile (tile.tileHeightForWindowHeight (c.presetWindowHeight tile preset)))
      (fun
        | .tile resolved | .window resolved => decide (current + 1 < resolved))
      (fun
        | .tile resolved | .window resolved => decide (resolved + 1 < current))
    updateTileSizes
      { c.setHeightAt tileIdx (.preset presetIdx) with isPendingMaximized := false }
  | _, _ => c

def setColumnDisplay (display : ColumnDisplay) : Column :=
  if c.displayMode = display then c else updateTileSizes { c with displayMode := display }

def cancelResize : Column :=
  { c with tiles := c.tiles.map Tile.cancelInteractiveResize }

def tilesOrigin : Point :=
  match c.sizingMode with
  | .maximized => ⟨0, c.parentArea.loc.y⟩
  | .fullscreen => ⟨0, 0⟩
  | .normal =>
    let origin : Point := ⟨0, c.workingArea.loc.y + c.options.gaps⟩
    if c.isTabbed then
      let off := c.options.tabIndicator.contentOffset c.tiles.length c.scale
      ⟨origin.x + off.x, origin.y + off.y⟩
    else origin

end Column

end Macniri.Layout
