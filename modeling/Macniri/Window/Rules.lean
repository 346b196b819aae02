import Mathlib.Data.List.Induction
import Macniri.Layout.Tile

/-! Which window rules apply to a window, and what they resolve to. -/
namespace Macniri.WindowRules

open List

open Layout (PresetSize ColumnDisplay FloatingPosition)

/-! The parts of a rule, for any types of colors and gradients. -/

section

variable {α γ δ : Type}

/-- A color that a rule sets, and the gradient for the same place. -/
structure PaintRule (γ δ : Type) where
  color : Option γ
  gradient : Option δ
  deriving DecidableEq

structure Paint (γ δ : Type) where
  color : γ
  gradient : Option δ
  deriving DecidableEq

/-- The gradient after `merge_color_gradient`: a color unsets it. -/
def mergeGradient (self : Option δ) (part : PaintRule γ δ) : Option δ :=
  if part.gradient.isSome then part.gradient else if part.color.isSome then none else self

def PaintRule.mergeWith (self part : PaintRule γ δ) : PaintRule γ δ :=
  ⟨part.color.or self.color, mergeGradient self.gradient part⟩

def Paint.mergeWith (self : Paint γ δ) (part : PaintRule γ δ) : Paint γ δ :=
  ⟨part.color.getD self.color, mergeGradient self.gradient part⟩

structure OnOff where
  off : Bool
  on : Bool
  deriving DecidableEq

def OnOff.mergeWith (self part : OnOff) : OnOff :=
  let self := if part.off then ⟨true, false⟩ else self
  if part.on then ⟨false, true⟩ else self

structure BorderRule (γ δ : Type) where
  flags : OnOff
  width : Option ℚ
  active : PaintRule γ δ
  inactive : PaintRule γ δ
  urgent : PaintRule γ δ

def BorderRule.mergeWith (self part : BorderRule γ δ) : BorderRule γ δ where
  flags := self.flags.mergeWith part.flags
  width := part.width.or self.width
  active := self.active.mergeWith part.active
  inactive := self.inactive.mergeWith part.inactive
  urgent := self.urgent.mergeWith part.urgent

structure ShadowRule (γ : Type) where
  flags : OnOff
  offset : Option (ℚ × ℚ)
  softness : Option ℚ
  spread : Option ℚ
  drawBehindWindow : Option Bool
  color : Option γ
  inactiveColor : Option γ

def ShadowRule.mergeWith (self part : ShadowRule γ) : ShadowRule γ where
  flags := self.flags.mergeWith part.flags
  offset := part.offset.or self.offset
  softness := part.softness.or self.softness
  spread := part.spread.or self.spread
  drawBehindWindow := part.drawBehindWindow.or self.drawBehindWindow
  color := part.color.or self.color
  inactiveColor := part.inactiveColor.or self.inactiveColor

structure TabIndicatorRule (γ δ : Type) where
  active : PaintRule γ δ
  inactive : PaintRule γ δ
  urgent : PaintRule γ δ

def TabIndicatorRule.mergeWith (self part : TabIndicatorRule γ δ) : TabIndicatorRule γ δ where
  active := self.active.mergeWith part.active
  inactive := self.inactive.mergeWith part.inactive
  urgent := self.urgent.mergeWith part.urgent

/-- The border of the config, and the focus ring, which merges as a border does. -/
structure Border (γ δ : Type) where
  off : Bool
  width : ℚ
  active : Paint γ δ
  inactive : Paint γ δ
  urgent : Paint γ δ

def Border.mergeWith (self : Border γ δ) (part : BorderRule γ δ) : Border γ δ where
  off := (self.off || part.flags.off) && !part.flags.on
  width := part.width.getD self.width
  active := self.active.mergeWith part.active
  inactive := self.inactive.mergeWith part.inactive
  urgent := self.urgent.mergeWith part.urgent

structure Shadow (γ : Type) where
  on : Bool
  offset : ℚ × ℚ
  softness : ℚ
  spread : ℚ
  drawBehindWindow : Bool
  color : γ
  inactiveColor : Option γ

def Shadow.mergeWith (self : Shadow γ) (part : ShadowRule γ) : Shadow γ where
  on := (self.on || part.flags.on) && !part.flags.off
  offset := part.offset.getD self.offset
  softness := part.softness.getD self.softness
  spread := part.spread.getD self.spread
  drawBehindWindow := part.drawBehindWindow.getD self.drawBehindWindow
  color := part.color.getD self.color
  inactiveColor := part.inactiveColor.or self.inactiveColor

inductive BlockOutFrom where
  | screencast
  | screenCapture

/-- What the rules resolve to. -/
structure ResolvedWindowRules (γ δ : Type) where
  defaultWidth : Option (Option PresetSize)
  defaultHeight : Option (Option PresetSize)
  defaultColumnDisplay : Option ColumnDisplay
  defaultFloatingPosition : Option FloatingPosition
  openOnOutput : Option String
  openOnWorkspace : Option String
  openMaximized : Option Bool
  openMaximizedToEdges : Option Bool
  openFullscreen : Option Bool
  openFloating : Option Bool
  openFocused : Option Bool
  minWidth : Option ℕ
  minHeight : Option ℕ
  maxWidth : Option ℕ
  maxHeight : Option ℕ
  focusRing : BorderRule γ δ
  border : BorderRule γ δ
  shadow : ShadowRule γ
  tabIndicator : TabIndicatorRule γ δ
  drawBorderWithBackground : Option Bool
  opacity : Option ℚ
  geometryCornerRadius : Option (ℚ × ℚ × ℚ × ℚ)
  clipToGeometry : Option Bool
  babaIsFloat : Option Bool
  blockOutFrom : Option BlockOutFrom
  variableRefreshRate : Option Bool
  scrollFactor : Option ℚ
  tiledState : Option Bool

end

variable {α γ δ : Type}

namespace ResolvedWindowRules

def noPaint : PaintRule γ δ := ⟨none, none⟩

def noBorder : BorderRule γ δ := ⟨⟨false, false⟩, none, noPaint, noPaint, noPaint⟩

def default : ResolvedWindowRules γ δ :=
  ⟨none, none, none, none, none, none, none, none, none, none, none, none, none, none, none, noBorder,
    noBorder, ⟨⟨false, false⟩, none, none, none, none, none, none⟩, ⟨noPaint, noPaint, noPaint⟩, none,
    none, none, none, none, none, none, none, none⟩

/-- What a rule that applies sets. -/
def mergeWith (resolved rule : ResolvedWindowRules γ δ) : ResolvedWindowRules γ δ where
  defaultWidth := rule.defaultWidth.or resolved.defaultWidth
  defaultHeight := rule.defaultHeight.or resolved.defaultHeight
  defaultColumnDisplay := rule.defaultColumnDisplay.or resolved.defaultColumnDisplay
  defaultFloatingPosition := rule.defaultFloatingPosition.or resolved.defaultFloatingPosition
  openOnOutput := rule.openOnOutput.or resolved.openOnOutput
  openOnWorkspace := rule.openOnWorkspace.or resolved.openOnWorkspace
  openMaximized := rule.openMaximized.or resolved.openMaximized
  openMaximizedToEdges := rule.openMaximizedToEdges.or resolved.openMaximizedToEdges
  openFullscreen := rule.openFullscreen.or resolved.openFullscreen
  openFloating := rule.openFloating.or resolved.openFloating
  openFocused := rule.openFocused.or resolved.openFocused
  minWidth := rule.minWidth.or resolved.minWidth
  minHeight := rule.minHeight.or resolved.minHeight
  maxWidth := rule.maxWidth.or resolved.maxWidth
  maxHeight := rule.maxHeight.or resolved.maxHeight
  focusRing := resolved.focusRing.mergeWith rule.focusRing
  border := resolved.border.mergeWith rule.border
  shadow := resolved.shadow.mergeWith rule.shadow
  tabIndicator := resolved.tabIndicator.mergeWith rule.tabIndicator
  drawBorderWithBackground := rule.drawBorderWithBackground.or resolved.drawBorderWithBackground
  opacity := rule.opacity.or resolved.opacity
  geometryCornerRadius := rule.geometryCornerRadius.or resolved.geometryCornerRadius
  clipToGeometry := rule.clipToGeometry.or resolved.clipToGeometry
  babaIsFloat := rule.babaIsFloat.or resolved.babaIsFloat
  blockOutFrom := rule.blockOutFrom.or resolved.blockOutFrom
  variableRefreshRate := rule.variableRefreshRate.or resolved.variableRefreshRate
  scrollFactor := rule.scrollFactor.or resolved.scrollFactor
  tiledState := rule.tiledState.or resolved.tiledState

end ResolvedWindowRules

/-! Matching. A regex is the set of texts that it matches. -/

structure Match where
  appId : Option (String → Bool)
  title : Option (String → Bool)
  isActive : Option Bool
  isFocused : Option Bool
  isActiveInColumn : Option Bool
  isFloating : Option Bool
  isWindowCastTarget : Option Bool
  isUrgent : Option Bool
  atStartup : Option Bool

/-- What is known of a mapped window. -/
structure Mapped where
  isFocused : Bool
  isUrgent : Bool
  isActiveInColumn : Bool
  isFloating : Bool
  isWindowCastTarget : Bool

/-- What the client set, and whether the window has a pending activated state. -/
structure Role where
  appId : Option String
  title : Option String
  pendingActivated : Bool

/-- A window that is not mapped yet is active in its column and nothing else. -/
def unmapped : Mapped := ⟨false, false, true, false, false⟩

/-- Without a condition, or if the condition has the value. -/
def agrees (condition : Option Bool) (value : Bool) : Bool := condition.all (· == value)

def matchesText (re : Option (String → Bool)) (text : Option String) : Bool :=
  re.all fun re => text.any re

/-- Without a window, the window is not mapped. -/
def windowMatches (window : Option Mapped) (role : Role) (m : Match) : Bool :=
  let w := window.getD unmapped
  agrees m.isFocused w.isFocused && agrees m.isUrgent w.isUrgent &&
    agrees m.isActive role.pendingActivated && matchesText m.appId role.appId &&
    matchesText m.title role.title && agrees m.isActiveInColumn w.isActiveInColumn &&
    agrees m.isFloating w.isFloating && agrees m.isWindowCastTarget w.isWindowCastTarget

/-- A rule of the config sets the same things that rules resolve to. -/
structure WindowRule (γ δ : Type) extends ResolvedWindowRules γ δ where
  «matches» : List Match
  excludes : List Match

def WindowRule.applies (rule : WindowRule γ δ) (window : Option Mapped) (role : Role)
    (isAtStartup : Bool) : Bool :=
  let matchesNow := fun m : Match => agrees m.atStartup isAtStartup && windowMatches window role m
  (rule.matches.isEmpty || rule.matches.any matchesNow) && !rule.excludes.any matchesNow

def compute (rules : List (WindowRule γ δ)) (window : Option Mapped) (role : Role)
    (isAtStartup : Bool) : ResolvedWindowRules γ δ :=
  rules.foldl (fun resolved rule =>
    if rule.applies window role isAtStartup then resolved.mergeWith rule.toResolvedWindowRules
    else resolved) .default

/-! Merging one rule after another. -/

theorem OnOff.mergeWith_assoc (a b c : OnOff) :
    (a.mergeWith b).mergeWith c = a.mergeWith (b.mergeWith c) := by
  obtain ⟨_ | _, _ | _⟩ := b <;> obtain ⟨_ | _, _ | _⟩ := c <;> rfl

theorem mergeGradient_mergeWith (self : Option δ) (a b : PaintRule γ δ) :
    mergeGradient (mergeGradient self a) b = mergeGradient self (a.mergeWith b) := by
  obtain ⟨_ | _, _ | _⟩ := a <;> obtain ⟨_ | _, _ | _⟩ := b <;> rfl

theorem PaintRule.mergeWith_assoc (a b c : PaintRule γ δ) :
    (a.mergeWith b).mergeWith c = a.mergeWith (b.mergeWith c) := by
  unfold mergeWith
  rw [mergeGradient_mergeWith, Option.or_assoc]
  rfl

theorem Paint.mergeWith_mergeWith (p : Paint γ δ) (a b : PaintRule γ δ) :
    (p.mergeWith a).mergeWith b = p.mergeWith (a.mergeWith b) := by
  unfold mergeWith
  rw [mergeGradient_mergeWith]
  obtain ⟨_ | _, _⟩ := b <;> rfl

theorem BorderRule.mergeWith_assoc (a b c : BorderRule γ δ) :
    (a.mergeWith b).mergeWith c = a.mergeWith (b.mergeWith c) := by
  simp only [mergeWith, OnOff.mergeWith_assoc, Option.or_assoc, PaintRule.mergeWith_assoc]

/-- A border that two rules are applied to, one after the other. -/
theorem Border.mergeWith_mergeWith (base : Border γ δ) (a b : BorderRule γ δ) :
    (base.mergeWith a).mergeWith b = base.mergeWith (a.mergeWith b) := by
  have hoff : ((((base.off || a.flags.off) && !a.flags.on) || b.flags.off) && !b.flags.on) =
      ((base.off || (a.flags.mergeWith b.flags).off) && !(a.flags.mergeWith b.flags).on) := by
    obtain ⟨_ | _, _ | _⟩ := b.flags <;> simp [OnOff.mergeWith]
  simp only [mergeWith, BorderRule.mergeWith, Paint.mergeWith_mergeWith, hoff, Option.getD_or]

namespace ResolvedWindowRules

theorem mergeWith_assoc (a b c : ResolvedWindowRules γ δ) :
    (a.mergeWith b).mergeWith c = a.mergeWith (b.mergeWith c) := by
  simp only [mergeWith, ShadowRule.mergeWith, TabIndicatorRule.mergeWith, BorderRule.mergeWith_assoc,
    OnOff.mergeWith_assoc, Option.or_assoc, PaintRule.mergeWith_assoc]

/-- The rules that apply, in order. -/
def resolve (rules : List (ResolvedWindowRules γ δ)) : ResolvedWindowRules γ δ :=
  rules.foldl mergeWith default

variable (rules : List (ResolvedWindowRules γ δ))

theorem resolve_concat (rule : ResolvedWindowRules γ δ) :
    resolve (rules ++ [rule]) = (resolve rules).mergeWith rule := by
  unfold resolve
  rw [foldl_append]
  rfl

theorem resolve_append (more : List (ResolvedWindowRules γ δ)) :
    resolve (rules ++ more) = (resolve rules).mergeWith (resolve more) := by
  induction more using List.reverseRecOn with
  | nil =>
    rw [append_nil]
    rfl
  | append_singleton more rule ih =>
    rw [← append_assoc, resolve_concat, ih, resolve_concat, mergeWith_assoc]

/-- The border of a window is the one that the rules make of the config's, one after the other. -/
theorem border_resolve {f : ResolvedWindowRules γ δ → BorderRule γ δ} (hdefault : f default = noBorder)
    (hf : ∀ a b, f (a.mergeWith b) = (f a).mergeWith (f b)) (base : Border γ δ) :
    base.mergeWith (f (resolve rules)) = rules.foldl (fun b rule => b.mergeWith (f rule)) base := by
  induction rules using List.reverseRecOn with
  | nil =>
    have hbase : base.mergeWith noBorder = base := by
      simp [Border.mergeWith, noBorder, noPaint, Paint.mergeWith, mergeGradient]
    rw [resolve, foldl_nil, hdefault, hbase, foldl_nil]
  | append_singleton rules rule ih =>
    rw [resolve_concat, hf, ← Border.mergeWith_mergeWith, ih, foldl_append]
    rfl

/-- The rule says something about whether there is a shadow. -/
def setsShadow (rule : ResolvedWindowRules γ δ) : Bool := rule.shadow.flags.off || rule.shadow.flags.on

/-- Everything about a shadow but whether it is on. -/
theorem shadow_resolve (base : Shadow γ) :
    { base.mergeWith (resolve rules).shadow with on := false } =
      { rules.foldl (fun s rule => s.mergeWith rule.shadow) base with on := false } := by
  induction rules using List.reverseRecOn with
  | nil => rfl
  | append_singleton rules rule ih =>
    simp only [Shadow.mergeWith, Shadow.mk.injEq, true_and] at ih
    obtain ⟨hoffset, hsoftness, hspread, hbehind, hcolor, hinactive⟩ := ih
    rw [resolve_concat, foldl_append]
    simp only [mergeWith, ShadowRule.mergeWith, Shadow.mergeWith, Option.getD_or, Option.or_assoc,
      hoffset, hsoftness, hspread, hbehind, hcolor, hinactive, foldl_cons, foldl_nil]

theorem shadow_on_iff (base : Shadow γ) :
    (base.mergeWith (resolve rules).shadow).on =
        (rules.foldl (fun s rule => s.mergeWith rule.shadow) base).on ↔
      ∀ rule, rules.reverse.find? setsShadow = some rule →
        (rule.shadow.flags.off && rule.shadow.flags.on) = false := by
  have hmerged (s : Shadow γ) (part : ShadowRule γ) :
      (s.mergeWith part).on = ((s.on || part.flags.on) && !part.flags.off) := rfl
  induction rules using List.reverseRecOn with
  | nil =>
    have hnone : (resolve ([] : List (ResolvedWindowRules γ δ))).shadow.flags = ⟨false, false⟩ := rfl
    refine iff_of_true ?_ fun rule hrule => ?_
    · rw [hmerged, hnone]
      simp
    · rw [reverse_nil, find?_nil] at hrule
      cases hrule
  | append_singleton rules rule ih =>
    have hflags : (resolve (rules ++ [rule])).shadow.flags =
        (resolve rules).shadow.flags.mergeWith rule.shadow.flags := by
      rw [resolve_concat]
      rfl
    rw [hmerged] at ih
    rw [hmerged, hflags, foldl_append, foldl_cons, foldl_nil, hmerged,
      reverse_append, reverse_singleton, singleton_append, find?_cons]
    unfold setsShadow at ih ⊢
    cases hrule : rule.shadow.flags with
    | mk off on =>
      cases off with
      | false =>
        cases on with
        | false => simpa [OnOff.mergeWith] using ih
        | true => simp [OnOff.mergeWith, hrule]
      | true =>
        cases on with
        | false => simp [OnOff.mergeWith, hrule]
        | true => simp [OnOff.mergeWith, hrule]

end ResolvedWindowRules

/-! The rules of a window. -/

variable (rules : List (WindowRule γ δ)) (window : Option Mapped) (role : Role) (isAtStartup : Bool)

/-- What the rules that apply to a window set. -/
def applying : List (ResolvedWindowRules γ δ) :=
  (rules.filter (·.applies window role isAtStartup)).map (·.toResolvedWindowRules)

theorem compute_eq : compute rules window role isAtStartup =
    .resolve (applying rules window role isAtStartup) := by
  rw [compute, ResolvedWindowRules.resolve, applying, foldl_map, foldl_filter]

/-- Rules can be resolved in parts. -/
theorem compute_append (more : List (WindowRule γ δ)) :
    compute (rules ++ more) window role isAtStartup =
      (compute rules window role isAtStartup).mergeWith (compute more window role isAtStartup) := by
  rw [compute_eq, compute_eq, compute_eq, ← ResolvedWindowRules.resolve_append]
  unfold applying
  rw [filter_append, map_append]

/-- The border and the focus ring of a window are those of the config with the rules that apply merged
one after the other. So is the shadow, exactly if the last rule that switches it does not do both. -/
theorem compute_appearance (border focusRing : Border γ δ) (shadow : Shadow γ) :
    let resolved := compute rules window role isAtStartup
    let applied := applying rules window role isAtStartup
    border.mergeWith resolved.border = applied.foldl (fun b rule => b.mergeWith rule.border) border ∧
      focusRing.mergeWith resolved.focusRing =
        applied.foldl (fun b rule => b.mergeWith rule.focusRing) focusRing ∧
      (shadow.mergeWith resolved.shadow = applied.foldl (fun s rule => s.mergeWith rule.shadow) shadow ↔
        ∀ rule, applied.reverse.find? (·.setsShadow) = some rule →
          (rule.shadow.flags.off && rule.shadow.flags.on) = false) := by
  dsimp only
  rw [compute_eq]
  refine ⟨ResolvedWindowRules.border_resolve _ rfl (fun _ _ => rfl) border,
    ResolvedWindowRules.border_resolve _ rfl (fun _ _ => rfl) focusRing, ?_⟩
  rw [← ResolvedWindowRules.shadow_on_iff _ shadow]
  have hrest := ResolvedWindowRules.shadow_resolve (applying rules window role isAtStartup) shadow
  refine ⟨congrArg Shadow.on, fun hon => ?_⟩
  have hset (s : Shadow γ) : s = { { s with on := false } with on := s.on } := rfl
  rw [hset (shadow.mergeWith _), hset (List.foldl ..), hrest, hon]

end Macniri.WindowRules
