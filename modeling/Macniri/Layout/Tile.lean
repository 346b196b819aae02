import Macniri.Layout.Basic

/-! Windows as the layout sees them, and tiles: a window with its decorations. -/
namespace Macniri.Layout

structure ResizeEdge where
  top : Bool
  bottom : Bool
  left : Bool
  right : Bool
  deriving DecidableEq, Repr

inductive RelativeTo where
  | topLeft
  | topRight
  | bottomLeft
  | bottomRight
  | top
  | bottom
  | left
  | right
  deriving DecidableEq, Repr

structure FloatingPosition where
  x : ℚ
  y : ℚ
  relativeTo : RelativeTo
  deriving DecidableEq, Repr

structure ResolvedWindowRules where
  border : BorderRule
  defaultColumnDisplay : Option ColumnDisplay
  defaultFloatingPosition : Option FloatingPosition
  deriving DecidableEq, Repr

/-- A `LayoutElement`. The size and the sizing mode are those of the last client commit; the
pending sizing mode and the requested size are those of the last request. -/
structure Window where
  id : ℕ
  size : ISize
  minSize : ISize
  maxSize : ISize
  sizingMode : SizingMode
  pendingSizingMode : SizingMode
  isPendingWindowedFullscreen : Bool
  requestedSize : Option ISize
  rules : ResolvedWindowRules
  interactiveResizeData : Option ResizeEdge
  parent : Option ℕ
  deriving DecidableEq, Repr

/-- A request of real fullscreen takes the place of windowed fullscreen. -/
def Window.requestSize (w : Window) (size : ISize) (mode : SizingMode) : Window :=
  { w with
    requestedSize := some size
    pendingSizingMode := mode
    isPendingWindowedFullscreen := mode != .fullscreen && w.isPendingWindowedFullscreen }

def Window.requestSizeOnce (w : Window) (size : ISize) : Window := w.requestSize size .normal

/-- Windowed fullscreen is fullscreen for the client only; the layout goes on as before. -/
def Window.requestWindowedFullscreen (w : Window) (value : Bool) : Window :=
  { w with isPendingWindowedFullscreen := value }

def Window.isChildOf (w parent : Window) : Bool := w.parent == some parent.id

def Window.expectedSize (w : Window) : Option ISize :=
  if w.sizingMode = .fullscreen then none
  else
    let requested := w.requestedSize.getD ⟨0, 0⟩
    some ⟨if requested.w = 0 then w.size.w else requested.w,
      if requested.h = 0 then w.size.h else requested.h⟩

/-- What a client commit, or a change of the window rules, can change in a window. -/
structure Commit where
  size : ISize
  minSize : ISize
  maxSize : ISize
  sizingMode : SizingMode
  rules : ResolvedWindowRules
  interactiveResizeData : Option ResizeEdge
  deriving DecidableEq, Repr

def Window.onCommit (w : Window) (c : Commit) : Window :=
  { w with size := c.size, minSize := c.minSize, maxSize := c.maxSize, sizingMode := c.sizingMode,
           rules := c.rules, interactiveResizeData := c.interactiveResizeData }

structure Tile where
  window : Window
  border : Border
  sizingMode : SizingMode
  restoreToFloating : Bool
  floatingWindowSize : Option ISize
  floatingPos : Option Point
  floatingPresetWidthIdx : Option ℕ
  floatingPresetHeightIdx : Option ℕ
  viewSize : Size
  scale : ℚ
  options : Options
  deriving DecidableEq

namespace Tile

variable (t : Tile)

def id : ℕ := t.window.id

def new (window : Window) (viewSize : Size) (scale : ℚ) (options : Options) : Tile where
  window := window
  border := options.border.mergedWith window.rules.border
  sizingMode := window.sizingMode
  restoreToFloating := false
  floatingWindowSize := none
  floatingPos := none
  floatingPresetWidthIdx := none
  floatingPresetHeightIdx := none
  viewSize := viewSize
  scale := scale
  options := options

/-- The border config of the options and the window rules, with a width in physical pixels. -/
def roundedBorder (options : Options) (window : Window) (scale : ℚ) : Border :=
  let b := options.border.mergedWith window.rules.border
  { b with width := roundLogicalInPhysicalMax1 scale b.width }

def updateConfig (viewSize : Size) (scale : ℚ) (options : Options) : Tile :=
  { t with
    floatingPresetWidthIdx :=
      if t.options.presetColumnWidths ≠ options.presetColumnWidths then none
      else t.floatingPresetWidthIdx
    floatingPresetHeightIdx :=
      if t.options.presetWindowHeights ≠ options.presetWindowHeights then none
      else t.floatingPresetHeightIdx
    viewSize := viewSize
    scale := scale
    options := options
    border := roundedBorder options t.window scale }

def updateWindow : Tile :=
  { t with sizingMode := t.window.sizingMode, border := roundedBorder t.options t.window t.scale }

def effectiveBorderWidth : Option ℚ :=
  if t.sizingMode ≠ .normal then none else if t.border.off then none else some t.border.width

def windowSize : Size := t.window.size.toSize.roundInPhysical t.scale

def windowExpectedOrCurrentSize : Size :=
  (t.window.expectedSize.getD t.window.size).toSize.roundInPhysical t.scale

/-- The tile around a window of the given size, for the current sizing mode. -/
def sizeAround (size : Size) : Size :=
  if t.sizingMode = .fullscreen then ⟨max size.w t.viewSize.w, max size.h t.viewSize.h⟩
  else
    match t.effectiveBorderWidth with
    | some width => ⟨size.w + width * 2, size.h + width * 2⟩
    | none => size

def tileSize : Size := t.sizeAround t.windowSize

def tileExpectedOrCurrentSize : Size := t.sizeAround t.windowExpectedOrCurrentSize

def requestTileSize (size : Size) : Tile :=
  let size : Size :=
    if t.border.off then size
    else ⟨max 1 (size.w - t.border.width * 2), max 1 (size.h - t.border.width * 2)⟩
  { t with window := t.window.requestSize ⟨⌊size.w⌋, ⌊size.h⌋⟩ .normal }

def requestMaximized (size : Size) : Tile :=
  { t with window := t.window.requestSize ⟨⌊round size.w⌋, ⌊round size.h⌋⟩ .maximized }

def requestFullscreen : Tile :=
  { t with
    window := t.window.requestSize ⟨⌊round t.viewSize.w⌋, ⌊round t.viewSize.h⌋⟩ .fullscreen }

def tileWidthForWindowWidth (size : ℚ) : ℚ :=
  if t.border.off then size else size + t.border.width * 2

def tileHeightForWindowHeight (size : ℚ) : ℚ :=
  if t.border.off then size else size + t.border.width * 2

def windowWidthForTileWidth (size : ℚ) : ℚ :=
  if t.border.off then size else size - t.border.width * 2

def windowHeightForTileHeight (size : ℚ) : ℚ :=
  if t.border.off then size else size - t.border.width * 2

def minSizeNonfullscreen : Size :=
  let size := t.window.minSize.toSize
  if t.border.off then size
  else ⟨max 1 size.w + t.border.width * 2, max 1 size.h + t.border.width * 2⟩

def maxSizeNonfullscreen : Size :=
  let size := t.window.maxSize.toSize
  if t.border.off then size
  else ⟨if 0 < size.w then size.w + t.border.width * 2 else size.w,
    if 0 < size.h then size.h + t.border.width * 2 else size.h⟩

def cancelInteractiveResize : Tile :=
  { t with window := { t.window with interactiveResizeData := none } }

/-- `set_interactive_resize`: without data the window keeps the last data it had until it commits
the final size. -/
def setInteractiveResize (data : Option ResizeEdge) : Tile :=
  { t with
    window := { t.window with interactiveResizeData := data.or t.window.interactiveResizeData } }

def onCommit (c : Commit) : Tile := { t with window := t.window.onCommit c }

@[simp] theorem id_updateConfig (v : Size) (scale : ℚ) (o : Options) :
    (t.updateConfig v scale o).id = t.id := rfl

@[simp] theorem id_updateWindow : t.updateWindow.id = t.id := rfl

@[simp] theorem id_requestTileSize (size : Size) : (t.requestTileSize size).id = t.id :=
  rfl

@[simp] theorem id_requestMaximized (size : Size) :
    (t.requestMaximized size).id = t.id := rfl

@[simp] theorem id_requestFullscreen : t.requestFullscreen.id = t.id := rfl

@[simp] theorem id_cancelInteractiveResize : t.cancelInteractiveResize.id = t.id := rfl

@[simp] theorem id_setInteractiveResize (data : Option ResizeEdge) :
    (t.setInteractiveResize data).id = t.id := rfl

@[simp] theorem id_onCommit (c : Commit) : (t.onCommit c).id = t.id := rfl

@[simp] theorem tileSize_requestTileSize (size : Size) :
    (t.requestTileSize size).tileSize = t.tileSize := rfl

@[simp] theorem tileSize_requestMaximized (size : Size) :
    (t.requestMaximized size).tileSize = t.tileSize := rfl

@[simp] theorem tileSize_requestFullscreen :
    t.requestFullscreen.tileSize = t.tileSize := rfl

@[simp] theorem tileSize_cancelInteractiveResize :
    t.cancelInteractiveResize.tileSize = t.tileSize := rfl

@[simp] theorem tileSize_setInteractiveResize (data : Option ResizeEdge) :
    (t.setInteractiveResize data).tileSize = t.tileSize := rfl

end Tile

end Macniri.Layout
