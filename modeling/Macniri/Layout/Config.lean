import Macniri.Layout.Basic

/-! Outputs and their names, and the parts of the config that outputs and workspaces override. -/
namespace Macniri.Layout

def eqIgnoreAsciiCase (a b : String) : Bool := a.toList.map Char.toLower == b.toList.map Char.toLower

@[simp] theorem eqIgnoreAsciiCase_self (a : String) : eqIgnoreAsciiCase a a = true := by
  simp [eqIgnoreAsciiCase]

theorem eqIgnoreAsciiCase_comm (a b : String) : eqIgnoreAsciiCase a b = eqIgnoreAsciiCase b a := by
  unfold eqIgnoreAsciiCase
  exact BEq.comm

theorem eqIgnoreAsciiCase_trans {a b c : String} (hab : eqIgnoreAsciiCase a b = true)
    (hbc : eqIgnoreAsciiCase b c = true) : eqIgnoreAsciiCase a c = true := by
  unfold eqIgnoreAsciiCase at *
  exact BEq.trans hab hbc

structure OutputName where
  connector : String
  make : Option String
  model : Option String
  serial : Option String
  deriving DecidableEq, Repr

namespace OutputName

def missingMms (n : OutputName) : Bool := n.make.isNone && n.model.isNone && n.serial.isNone

def formatMakeModelSerial (n : OutputName) : String :=
  n.make.getD "Unknown" ++ " " ++ n.model.getD "Unknown" ++ " " ++ n.serial.getD "Unknown"

def formatMakeModelSerialOrConnector (n : OutputName) : String :=
  if n.missingMms then n.connector else n.formatMakeModelSerial

/-- Strip a field and the space after it from the target. The source compares the first bytes of
the target, as many as the field has; where they agree up to ASCII case, they are as many
characters. -/
def stripField (field target : List Char) : Option (List Char) :=
  if (target.take field.length).map Char.toLower = field.map Char.toLower then
    match target.drop field.length with
    | ' ' :: rest => some rest
    | _ => none
  else none

def «matches» (n : OutputName) (target : String) : Bool :=
  -- Match by connector.
  if eqIgnoreAsciiCase target n.connector then true
  -- If no other fields are available, don't try to match by them.
  else if n.missingMms then false
  else
    match stripField (n.make.getD "Unknown").toList target.toList with
    | none => false
    | some rest =>
      match stripField (n.model.getD "Unknown").toList rest with
      | none => false
      | some rest => rest.map Char.toLower == (n.serial.getD "Unknown").toList.map Char.toLower

theorem stripField_append (field rest : List Char) :
    stripField field (field ++ ' ' :: rest) = some rest := by
  simp [stripField]

/-- Every name matches what an output is remembered by. -/
theorem matches_format (n : OutputName) : n.matches n.formatMakeModelSerialOrConnector = true := by
  unfold formatMakeModelSerialOrConnector
  cases h : n.missingMms with
  | true => simp [«matches»]
  | false =>
    have hlist : n.formatMakeModelSerial.toList = (n.make.getD "Unknown").toList ++
        ' ' :: ((n.model.getD "Unknown").toList ++ ' ' :: (n.serial.getD "Unknown").toList) := by
      simp [formatMakeModelSerial]
    simp only [Bool.false_eq_true, if_false, «matches», h]
    split
    · rfl
    · rw [hlist, stripField_append]
      simp [stripField_append]

end OutputName

inductive Transform where
  | normal
  | rotate90
  | rotate180
  | rotate270
  | flipped
  | flipped90
  | flipped180
  | flipped270
  deriving DecidableEq, Repr

/-- A connected output: what the handle refers to, its name, and its current state. -/
structure Output where
  handle : ℕ
  name : OutputName
  scale : ℚ
  transform : Transform
  viewSize : Size
  workingArea : Rectangle
  deriving DecidableEq, Repr

/-- Outputs are compared as handles. -/
def Output.same (o p : Output) : Bool := o.handle == p.handle

/-- The output a workspace belongs to: a connector, or a make, model and serial. -/
structure OutputId where
  name : String
  deriving DecidableEq, Repr

namespace OutputId

def new (output : Output) : OutputId := ⟨output.name.formatMakeModelSerialOrConnector⟩

def «matches» (id : OutputId) (output : Output) : Bool := output.name.matches id.name

end OutputId

/-! The overridable part of the layout section. -/

structure TabIndicatorPart where
  off : Bool
  on : Bool
  hideWhenSingleTab : Option Bool
  placeWithinColumn : Option Bool
  gap : Option ℚ
  width : Option ℚ
  position : Option TabIndicatorPosition
  deriving DecidableEq, Repr

def TabIndicator.mergeWith (t : TabIndicator) (part : TabIndicatorPart) : TabIndicator where
  off := (t.off || part.off) && !part.on
  hideWhenSingleTab := part.hideWhenSingleTab.getD t.hideWhenSingleTab
  placeWithinColumn := part.placeWithinColumn.getD t.placeWithinColumn
  gap := part.gap.getD t.gap
  width := part.width.getD t.width
  position := part.position.getD t.position

structure LayoutPart where
  border : Option BorderRule
  tabIndicator : Option TabIndicatorPart
  presetColumnWidths : Option (List PresetSize)
  presetWindowHeights : Option (List PresetSize)
  centerFocusedColumn : Option CenterFocusedColumn
  alwaysCenterSingleColumn : Option Bool
  emptyWorkspaceAboveFirst : Option Bool
  defaultColumnDisplay : Option ColumnDisplay
  gaps : Option ℚ
  struts : Option Struts
  deriving DecidableEq, Repr

/-- An empty list of presets is replaced by the default one. -/
def presetsOr (default presets : List PresetSize) : List PresetSize :=
  if presets.isEmpty then default else presets

theorem presetsOr_ne {default : List PresetSize} (h : default ≠ []) (presets : List PresetSize) :
    presetsOr default presets ≠ [] := by
  cases presets with
  | nil => simpa [presetsOr] using h
  | cons => simp [presetsOr]

namespace Options

def mergeWith (o : Options) (part : LayoutPart) : Options :=
  { o with
    border := (part.border.map o.border.mergedWith).getD o.border
    tabIndicator := (part.tabIndicator.map o.tabIndicator.mergeWith).getD o.tabIndicator
    presetColumnWidths := presetsOr Options.default.presetColumnWidths
      (part.presetColumnWidths.getD o.presetColumnWidths)
    presetWindowHeights := presetsOr Options.default.presetWindowHeights
      (part.presetWindowHeights.getD o.presetWindowHeights)
    centerFocusedColumn := part.centerFocusedColumn.getD o.centerFocusedColumn
    alwaysCenterSingleColumn := part.alwaysCenterSingleColumn.getD o.alwaysCenterSingleColumn
    emptyWorkspaceAboveFirst := part.emptyWorkspaceAboveFirst.getD o.emptyWorkspaceAboveFirst
    defaultColumnDisplay := part.defaultColumnDisplay.getD o.defaultColumnDisplay
    gaps := part.gaps.getD o.gaps
    struts := part.struts.getD o.struts
    presetColumnWidths_ne := presetsOr_ne Options.default.presetColumnWidths_ne _
    presetWindowHeights_ne := presetsOr_ne Options.default.presetWindowHeights_ne _ }

def withMergedLayout (o : Options) (part : Option LayoutPart) : Options :=
  match part with
  | some part => o.mergeWith part
  | none => o

def adjustedForScale (o : Options) (scale : ℚ) : Options :=
  { o with gaps := roundLogicalInPhysicalMax1 scale o.gaps }

end Options

/-- A `workspace` section of the config. -/
structure WorkspaceConfig where
  name : String
  openOnOutput : Option String
  layout : Option LayoutPart
  deriving DecidableEq, Repr

/-- What the layout reads of the config. -/
structure Config where
  workspaces : List WorkspaceConfig
  options : Options
  deriving DecidableEq

end Macniri.Layout
