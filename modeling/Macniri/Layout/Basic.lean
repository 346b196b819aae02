import Mathlib.Data.Rat.Floor
import Mathlib.Data.List.Basic

/-! Sizes, rounding and the layout options; floating-point values are exact rationals. -/
namespace Macniri.Layout

structure Point where
  x : ℚ
  y : ℚ
  deriving DecidableEq, Repr

structure Size where
  w : ℚ
  h : ℚ
  deriving DecidableEq, Repr

/-- The `Size<i32, Logical>` that Wayland surfaces use. -/
structure ISize where
  w : ℤ
  h : ℤ
  deriving DecidableEq, Repr

structure Rectangle where
  loc : Point
  size : Size
  deriving DecidableEq, Repr

def ISize.toSize (s : ISize) : Size := ⟨s.w, s.h⟩

/-- `f64::round`: to the nearest integer, ties away from zero. -/
def round (x : ℚ) : ℚ := if 0 ≤ x then (⌊x + 1 / 2⌋ : ℤ) else -(⌊-x + 1 / 2⌋ : ℤ)

def Size.toI32Round (size : Size) : ISize := ⟨⌊round size.w⌋, ⌊round size.h⌋⟩

/-- `f64::clamp`. -/
def clamp (x lo hi : ℚ) : ℚ := if x < lo then lo else if hi < x then hi else x

def roundLogicalInPhysical (scale logical : ℚ) : ℚ := round (logical * scale) / scale

def roundLogicalInPhysicalMax1 (scale logical : ℚ) : ℚ :=
  if logical = 0 then 0 else round (max (logical * scale) 1) / scale

def ceilLogicalInPhysical (scale logical : ℚ) : ℚ := (⌈logical * scale⌉ : ℤ) / scale

def Size.roundInPhysical (s : Size) (scale : ℚ) : Size :=
  ⟨roundLogicalInPhysical scale s.w, roundLogicalInPhysical scale s.h⟩

inductive SizingMode where
  | normal
  | maximized
  | fullscreen
  deriving DecidableEq, Repr

inductive ColumnDisplay where
  | normal
  | tabbed
  deriving DecidableEq, Repr

inductive PresetSize where
  | proportion (p : ℚ)
  | fixed (f : ℤ)
  deriving DecidableEq, Repr

inductive SizeChange where
  | setFixed (fixed : ℤ)
  | setProportion (proportion : ℚ)
  | adjustFixed (delta : ℤ)
  | adjustProportion (delta : ℚ)
  deriving DecidableEq, Repr

/-- `SizeChange::from(PresetSize)`: proportions are stored in percent. -/
def SizeChange.ofPreset : PresetSize → SizeChange
  | .proportion p => .setProportion (p * 100)
  | .fixed f => .setFixed f

inductive CenterFocusedColumn where
  | never
  | always
  | onOverflow
  deriving DecidableEq, Repr

inductive TabIndicatorPosition where
  | left
  | right
  | top
  | bottom
  deriving DecidableEq, Repr

structure Border where
  off : Bool
  width : ℚ
  deriving DecidableEq, Repr

structure BorderRule where
  off : Bool
  on : Bool
  width : Option ℚ
  deriving DecidableEq, Repr

def Border.mergedWith (b : Border) (rule : BorderRule) : Border where
  off := (b.off || rule.off) && !rule.on
  width := rule.width.getD b.width

structure TabIndicator where
  off : Bool
  hideWhenSingleTab : Bool
  placeWithinColumn : Bool
  gap : ℚ
  width : ℚ
  position : TabIndicatorPosition
  deriving DecidableEq, Repr

def TabIndicator.extraSize (c : TabIndicator) (tabCount : ℕ) (scale : ℚ) : Size :=
  if c.off || !c.placeWithinColumn || (c.hideWhenSingleTab && tabCount == 1) then ⟨0, 0⟩
  else
    let size := max 0 (roundLogicalInPhysical scale c.width + roundLogicalInPhysical scale c.gap)
    match c.position with
    | .left | .right => ⟨size, 0⟩
    | .top | .bottom => ⟨0, size⟩

def TabIndicator.contentOffset (c : TabIndicator) (tabCount : ℕ) (scale : ℚ) : Point :=
  match c.position with
  | .left | .top => ⟨(c.extraSize tabCount scale).w, (c.extraSize tabCount scale).h⟩
  | .right | .bottom => ⟨0, 0⟩

structure Struts where
  left : ℚ
  right : ℚ
  top : ℚ
  bottom : ℚ
  deriving DecidableEq, Repr

structure DndEdgeViewScroll where
  delayMs : ℕ
  maxSpeed : ℚ
  deriving DecidableEq, Repr

structure DndEdgeWorkspaceSwitch where
  delayMs : ℕ
  maxSpeed : ℚ
  deriving DecidableEq, Repr

/-- The options the layout reads. An empty preset list in the config is replaced by the default
one when the parts of the config are merged, so neither list is ever empty. -/
structure Options where
  border : Border
  tabIndicator : TabIndicator
  presetColumnWidths : List PresetSize
  presetWindowHeights : List PresetSize
  centerFocusedColumn : CenterFocusedColumn
  alwaysCenterSingleColumn : Bool
  emptyWorkspaceAboveFirst : Bool
  defaultColumnDisplay : ColumnDisplay
  gaps : ℚ
  struts : Struts
  dndEdgeViewScroll : DndEdgeViewScroll
  dndEdgeWorkspaceSwitch : DndEdgeWorkspaceSwitch
  overviewZoom : ℚ
  presetColumnWidths_ne : presetColumnWidths ≠ []
  presetWindowHeights_ne : presetWindowHeights ≠ []
  deriving DecidableEq

def Options.default : Options where
  border := ⟨true, 4⟩
  tabIndicator := ⟨false, false, false, 5, 4, .left⟩
  presetColumnWidths := [.proportion (1 / 3), .proportion (1 / 2), .proportion (2 / 3)]
  presetWindowHeights := [.proportion (1 / 3), .proportion (1 / 2), .proportion (2 / 3)]
  centerFocusedColumn := .never
  alwaysCenterSingleColumn := false
  emptyWorkspaceAboveFirst := false
  defaultColumnDisplay := .normal
  gaps := 16
  struts := ⟨0, 0, 0, 0⟩
  dndEdgeViewScroll := ⟨100, 1500⟩
  dndEdgeWorkspaceSwitch := ⟨100, 1500⟩
  overviewZoom := 1 / 2
  presetColumnWidths_ne := List.cons_ne_nil _ _
  presetWindowHeights_ne := List.cons_ne_nil _ _

inductive ResolvedSize where
  | tile (size : ℚ)
  | window (size : ℚ)
  deriving DecidableEq, Repr

def resolvePresetSize (preset : PresetSize) (o : Options) (viewSize extraSize : ℚ) : ResolvedSize :=
  match preset with
  | .proportion p => .tile ((viewSize - o.gaps) * p - o.gaps - extraSize)
  | .fixed width => .window width

def computeWorkingArea (parentArea : Rectangle) (scale : ℚ) (struts : Struts) : Rectangle :=
  let w := max 0 (parentArea.size.w - struts.left - struts.right)
  let h := max 0 (parentArea.size.h - struts.top - struts.bottom)
  let x := parentArea.loc.x + struts.left
  let y := parentArea.loc.y + struts.top
  -- Round location to start at a physical pixel.
  let loc : Point := ⟨ceilLogicalInPhysical scale x, ceilLogicalInPhysical scale y⟩
  ⟨loc, ⟨w - min w (loc.x - x), h - min h (loc.y - y)⟩⟩

end Macniri.Layout
