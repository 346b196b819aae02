import Macniri.Floating.Space
import Macniri.Layout.Config
import Macniri.Scrolling.Gesture
import Macniri.Scrolling.Ops

/-! Workspaces: a scrolling and a floating space, one of them active. Where the source looks up the
position a tile is drawn at, the operation takes it as an argument. -/
namespace Macniri.Layout

inductive FloatingActive where
  | no
  | noButRaised
  | yes
  deriving DecidableEq, Repr

def FloatingActive.get (a : FloatingActive) : Bool := a == .yes

inductive ActivateWindow where
  | yes
  | smart
  | no
  deriving DecidableEq, Repr

def ActivateWindow.mapSmart (a : ActivateWindow) (smart : Bool) : Bool :=
  match a with
  | .yes => true
  | .smart => smart
  | .no => false

inductive WorkspaceAddWindowTarget where
  | auto
  | newColumnAt (colIdx : ℕ)
  | nextTo (window : ℕ)
  deriving DecidableEq, Repr

namespace ScrollingSpace

variable (s : ScrollingSpace)

def hasWindow (window : ℕ) : Bool := s.columns.any (·.contains window)

def isActivePendingFullscreen : Bool :=
  s.activeColumn.any (·.pendingSizingMode == .fullscreen)

def findTile (window : ℕ) : Option Tile := s.tiles.find? (·.id == window)

/-- Change the tile of a window in a way that does not matter to its column. -/
def modifyTile (window : ℕ) (f : Tile → Tile) : ScrollingSpace :=
  match s.findWindow window with
  | none => s
  | some (colIdx, tileIdx) =>
    { s with columns := s.columns.modify colIdx fun c => { c with tiles := c.tiles.modify tileIdx f } }

/-! What the operations that may do nothing return. -/

def focusedLeft : Bool := s.activeColumnIdx != 0

def focusedRight : Bool := s.activeColumnIdx + 1 < s.columns.length

def focusedDown : Bool :=
  s.activeColumn.any fun c => c.activeTileIdx + 1 < c.tiles.length

def focusedUp : Bool := s.activeColumn.any fun c => c.activeTileIdx != 0

def scrolledByDnd (delta : ℚ) : Bool := s.viewOffset.isDndScroll && delta != 0

/-- Whether a gesture of the given kind is in progress. -/
def hasGesture (isTouchpad : Option Bool) : Bool :=
  match s.viewOffset with
  | .gesture g => !isTouchpad.any (g.isTouchpad != ·)
  | _ => false

/-- Whether a gesture of the given kind, and no DnD scroll, is in progress. -/
def hasViewGesture (isTouchpad : Bool) : Bool :=
  s.hasGesture (some isTouchpad) && !s.viewOffset.isDndScroll

end ScrollingSpace

structure Workspace where
  scrolling : ScrollingSpace
  floating : FloatingSpace
  floatingIsActive : FloatingActive
  originalOutput : OutputId
  output : Option Output
  scale : ℚ
  transform : Transform
  viewSize : Size
  workingArea : Rectangle
  baseOptions : Options
  options : Options
  name : Option String
  layoutConfig : Option LayoutPart
  id : ℕ
  deriving DecidableEq

namespace Workspace

variable (ws : Workspace)

def newWithConfig (id : ℕ) (output : Output) (config : Option WorkspaceConfig) (clock : ℚ)
    (baseOptions : Options) : Workspace :=
  let layoutConfig := config.bind (·.layout)
  let options := (baseOptions.withMergedLayout layoutConfig).adjustedForScale output.scale
  { scrolling := .new output.viewSize output.workingArea output.scale options clock
    floating := .new output.viewSize output.workingArea output.scale options
    floatingIsActive := .no
    originalOutput := ((config.bind (·.openOnOutput)).map OutputId.mk).getD (OutputId.new output)
    output := some output
    scale := output.scale
    transform := output.transform
    viewSize := output.viewSize
    workingArea := output.workingArea
    baseOptions := baseOptions
    options := options
    name := config.map (·.name)
    layoutConfig := layoutConfig
    id := id }

def new (id : ℕ) (output : Output) (clock : ℚ) (options : Options) : Workspace :=
  newWithConfig id output none clock options

def newWithConfigNoOutputs (id : ℕ) (config : Option WorkspaceConfig) (clock : ℚ)
    (baseOptions : Options) : Workspace :=
  let layoutConfig := config.bind (·.layout)
  let options := (baseOptions.withMergedLayout layoutConfig).adjustedForScale 1
  let viewSize : Size := ⟨1280, 720⟩
  let workingArea : Rectangle := ⟨⟨0, 0⟩, viewSize⟩
  { scrolling := .new viewSize workingArea 1 options clock
    floating := .new viewSize workingArea 1 options
    floatingIsActive := .no
    originalOutput := ⟨(config.bind (·.openOnOutput)).getD ""⟩
    output := none
    scale := 1
    transform := .normal
    viewSize := viewSize
    workingArea := workingArea
    baseOptions := baseOptions
    options := options
    name := config.map (·.name)
    layoutConfig := layoutConfig
    id := id }

def newNoOutputs (id : ℕ) (clock : ℚ) (options : Options) : Workspace :=
  newWithConfigNoOutputs id none clock options

def unname : Workspace := { ws with name := none }

def tiles : List Tile := ws.scrolling.tiles ++ ws.floating.tiles

def windowIds : List ℕ := ws.scrolling.windowIds ++ ws.floating.windowIds

def hasWindows : Bool := !ws.tiles.isEmpty

def hasWindowsOrName : Bool := ws.hasWindows || ws.name.isSome

def hasWindow (window : ℕ) : Bool := ws.tiles.any (·.id == window)

def isFloating (window : ℕ) : Bool := ws.floating.hasWindow window

def activeWindow : Option Window :=
  if ws.floatingIsActive.get then ws.floating.activeWindow else ws.scrolling.activeWindow

def isNamed (name : String) : Bool := ws.name.any (eqIgnoreAsciiCase · name)

/-! Config and output. -/

def updateConfig (baseOptions : Options) : Workspace :=
  let options := (baseOptions.withMergedLayout ws.layoutConfig).adjustedForScale ws.scale
  { ws with
    scrolling := ws.scrolling.updateConfig ws.viewSize ws.workingArea ws.scale options
    floating := ws.floating.updateConfig ws.viewSize ws.workingArea ws.scale options
    baseOptions := baseOptions
    options := options }

def updateLayoutConfig (layoutConfig : Option LayoutPart) : Workspace :=
  if ws.layoutConfig = layoutConfig then ws
  else { ws with layoutConfig := layoutConfig }.updateConfig ws.baseOptions

def setViewSize (scale : ℚ) (transform : Transform) (size : Size)
    (workingArea : Rectangle) : Workspace :=
  if ws.transform = transform ∧ ws.scale = scale ∧ ws.viewSize = size ∧ ws.workingArea = workingArea
  then ws
  else
    let resized := { ws with
      scale := scale, transform := transform, viewSize := size, workingArea := workingArea }
    -- Options need to be recomputed for a new scale.
    if ws.scale ≠ scale then resized.updateConfig ws.baseOptions
    else
      { resized with
        scrolling := ws.scrolling.updateConfig size workingArea scale ws.options
        floating := ws.floating.updateConfig size workingArea scale ws.options }

def updateOutputSize : Workspace :=
  match ws.output with
  | none => ws
  | some output => ws.setViewSize output.scale output.transform output.viewSize output.workingArea

def setOutput (output : Option Output) : Workspace :=
  if ws.output.map (·.handle) = output.map (·.handle) then ws
  else
    match output with
    | none => { ws with output := none }
    | some output =>
      updateOutputSize
        { ws with
          output := some output
          -- Possibly replace connector with make/model/serial.
          originalOutput :=
            if ws.originalOutput.matches output then OutputId.new output else ws.originalOutput }

/-! Applying the operations of the spaces. -/

def liftScrolling (f : ScrollingSpace → Option ScrollingSpace) : Option Workspace :=
  (f ws.scrolling).map fun s => { ws with scrolling := s }

def liftFloating (f : FloatingSpace → Option FloatingSpace) : Option Workspace :=
  (f ws.floating).map fun s => { ws with floating := s }

/-- An operation of the active space. -/
def onActiveSpace (f : FloatingSpace → Option FloatingSpace)
    (g : ScrollingSpace → Option ScrollingSpace) : Option Workspace :=
  if ws.floatingIsActive.get then ws.liftFloating f else ws.liftScrolling g

/-- An operation of the scrolling space only, which does nothing while the floating one is active. -/
def onScrolling (g : ScrollingSpace → Option ScrollingSpace) : Option Workspace :=
  ws.onActiveSpace some g

/-- Whether a window argument refers to the floating space. -/
def targetsFloating (window : Option ℕ) : Bool :=
  match window with
  | some id => ws.floating.hasWindow id
  | none => ws.floatingIsActive.get

/-- An operation of the space of a window. -/
def onSpaceOf (window : Option ℕ) (f : FloatingSpace → Option FloatingSpace)
    (g : ScrollingSpace → Option ScrollingSpace) : Option Workspace :=
  if ws.targetsFloating window then ws.liftFloating f else ws.liftScrolling g

/-! Adding and removing. -/

def makeTile (window : Window) : Tile :=
  Tile.new window ws.viewSize ws.scale ws.options

/-- Activate the floating space if its new tile is, or if there is nothing else. -/
def focusAddedFloating (activate : Bool) : Workspace :=
  if activate || ws.scrolling.columns.isEmpty then { ws with floatingIsActive := .yes } else ws

def focusAddedScrolling (activate : Bool) : Workspace :=
  if activate then { ws with floatingIsActive := .no } else ws

def addFloating (tile : Tile) (activate : Bool) : Option Workspace :=
  (ws.liftFloating (·.addTile tile activate)).map (·.focusAddedFloating activate)

def addScrolling (colIdx : Option ℕ) (tile : Tile) (activate : Bool)
    (width : ColumnWidth) (isFullWidth : Bool) : Option Workspace :=
  (ws.liftScrolling (·.addTile colIdx tile activate width isFullWidth)).map
    (·.focusAddedScrolling activate)

/-- Position a tile in the center above another one, like a dialog on top of a window. -/
def floatingPosAbove (nextTo : Tile) (renderPos : Point) (tile : Tile) : Point :=
  let tileSize := tile.tileSize
  ws.floating.logicalToSizeFrac (ws.floating.clampWithinWorkingArea
    ⟨renderPos.x + (nextTo.tileSize.w - tileSize.w) / 2,
      renderPos.y + (nextTo.tileSize.h - tileSize.h) / 2⟩ tileSize)

/-- Whether a window next to another one is activated. -/
def activateNextTo (activate : ActivateWindow) (nextTo : ℕ) : Option Bool :=
  match activate with
  | .yes => some true
  | .no => some false
  | .smart => ws.activeWindow.map (·.id == nextTo)

def addTileNextTo (tile : Tile) (nextTo : ℕ) (activate : Bool)
    (width : ColumnWidth) (isFullWidth isFloating : Bool) (renderPos : Point) : Option Workspace :=
  if isFloating ∧ tile.window.pendingSizingMode = .normal then
    if ws.floating.hasWindow nextTo then
      (ws.liftFloating (·.addTileAbove nextTo tile activate)).map (·.focusAddedFloating activate)
    else do
      let nextToTile ← ws.scrolling.findTile nextTo
      ws.addFloating
        { tile with floatingPos := some (ws.floatingPosAbove nextToTile renderPos tile) } activate
  else if ws.floating.hasWindow nextTo then ws.addScrolling none tile activate width isFullWidth
  else
    (ws.liftScrolling (·.addTileRightOf nextTo tile activate width isFullWidth)).map
      (·.focusAddedScrolling activate)

def addTile (tile : Tile) (target : WorkspaceAddWindowTarget)
    (activate : ActivateWindow) (width : ColumnWidth) (isFullWidth isFloating : Bool)
    (renderPos : Point) : Option Workspace :=
  let tile := { tile with restoreToFloating := isFloating }
  match target with
  | .auto =>
    -- Don't steal focus from an active fullscreen window.
    let activate := activate.mapSmart !ws.scrolling.isActivePendingFullscreen
    -- A pending maximized or fullscreen tile opens in the scrolling layout where it can do that.
    if isFloating ∧ tile.window.pendingSizingMode = .normal then ws.addFloating tile activate
    else ws.addScrolling none tile activate width isFullWidth
  | .newColumnAt colIdx =>
    ws.addScrolling (some colIdx) tile (activate.mapSmart false) width isFullWidth
  | .nextTo nextTo => do
    let activate ← ws.activateNextTo activate nextTo
    ws.addTileNextTo tile nextTo activate width isFullWidth isFloating renderPos

def addTileToColumn (colIdx : ℕ) (tileIdx : Option ℕ) (tile : Tile)
    (activate : Bool) : Option Workspace :=
  (ws.liftScrolling (·.addTileToColumn colIdx tileIdx tile activate)).map
    (·.focusAddedScrolling activate)

def addColumn (column : Column) (activate : Bool) : Option Workspace :=
  (ws.liftScrolling (·.addColumn none column activate)).map (·.focusAddedScrolling activate)

def updateFocusFloatingTilingAfterRemoving (removedFromFloating : Bool) :
    Workspace :=
  if removedFromFloating then
    if ws.floating.isEmpty then { ws with floatingIsActive := .no } else ws
  -- Scrolling should remain focused if both are empty.
  else if ws.scrolling.columns.isEmpty && !ws.floating.isEmpty then
    { ws with floatingIsActive := .yes }
  else ws

def removeFloating (window : ℕ) : Option (RemovedTile × Workspace) := do
  let (removed, floating) ← ws.floating.removeTile window
  return (removed, { ws with floating := floating }.updateFocusFloatingTilingAfterRemoving true)

def removeTile (window : ℕ) : Option (RemovedTile × Workspace) :=
  if ws.floating.hasWindow window then ws.removeFloating window
  else do
    let (removed, scrolling) ← ws.scrolling.removeTile window
    return (removed, { ws with scrolling := scrolling }.updateFocusFloatingTilingAfterRemoving false)

/-- The inner option is empty if there is no active tile. -/
def removeActiveTile : Option (Option (RemovedTile × Workspace)) :=
  if ws.floatingIsActive.get then do
    let removed ← ws.floating.removeActiveTile
    return removed.map fun (removed, floating) =>
      (removed, { ws with floating := floating }.updateFocusFloatingTilingAfterRemoving true)
  else if ws.scrolling.columns.isEmpty then some none
  else do
    let (removed, scrolling) ← ws.scrolling.removeActiveTile
    return some
      (removed, { ws with scrolling := scrolling }.updateFocusFloatingTilingAfterRemoving false)

/-- The inner option is empty if the floating space is active or there is no column. -/
def removeActiveColumn : Option (Option (Column × Workspace)) :=
  if ws.floatingIsActive.get || ws.scrolling.columns.isEmpty then some none
  else do
    let (column, scrolling) ← ws.scrolling.removeActiveColumn
    return some
      (column, { ws with scrolling := scrolling }.updateFocusFloatingTilingAfterRemoving false)

def resolveScrollingWidth (window : Window) (width : Option PresetSize) :
    ColumnWidth :=
  match width.getD (.fixed window.size.w) with
  | .fixed fixed =>
    let border := ws.options.border.mergedWith window.rules.border
    -- Add border width since ColumnWidth includes borders.
    .fixed (if border.off then (fixed : ℚ) else fixed + border.width * 2)
  | .proportion prop => .proportion prop

end Workspace

end Macniri.Layout
