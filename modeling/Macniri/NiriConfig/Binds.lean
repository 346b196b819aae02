import Mathlib.Data.Finset.Basic
import Mathlib.Data.List.Basic

/-! Key binds: how they are looked up, and how the sections of a config are merged. -/
namespace Macniri.NiriConfig

open Option List

inductive Modifier
  | ctrl
  | shift
  | alt
  | super
  | isoLevel3Shift
  | isoLevel5Shift
  | compositor
  deriving DecidableEq

/-- A set of flags. -/
abbrev Modifiers := Finset Modifier

structure ModifiersState where
  ctrl : Bool
  shift : Bool
  alt : Bool
  logo : Bool
  isoLevel3Shift : Bool
  isoLevel5Shift : Bool
  deriving DecidableEq

def modifiersFromState (mods : ModifiersState) : Modifiers :=
  (if mods.ctrl then {.ctrl} else ∅) ∪ (if mods.shift then {.shift} else ∅) ∪
    (if mods.alt then {.alt} else ∅) ∪ (if mods.logo then {.super} else ∅) ∪
    (if mods.isoLevel3Shift then {.isoLevel3Shift} else ∅) ∪
    (if mods.isoLevel5Shift then {.isoLevel5Shift} else ∅)

inductive ModKey
  | ctrl
  | shift
  | alt
  | super
  | isoLevel3Shift
  | isoLevel5Shift
  deriving DecidableEq

def ModKey.toModifiers : ModKey → Modifiers
  | ctrl => {.ctrl}
  | shift => {.shift}
  | alt => {.alt}
  | super => {.super}
  | isoLevel3Shift => {.isoLevel3Shift}
  | isoLevel5Shift => {.isoLevel5Shift}

inductive Trigger
  | keysym (keysym : ℕ)
  | mouseLeft
  | mouseRight
  | mouseMiddle
  | mouseBack
  | mouseForward
  | wheelScrollDown
  | wheelScrollUp
  | wheelScrollLeft
  | wheelScrollRight
  | touchpadScrollDown
  | touchpadScrollUp
  | touchpadScrollLeft
  | touchpadScrollRight
  deriving DecidableEq

structure Key where
  trigger : Trigger
  modifiers : Modifiers
  deriving DecidableEq

structure Bind (α : Type) where
  key : Key
  action : α
  repeats : Bool
  cooldown : Option ℕ
  allowWhenLocked : Bool
  allowInhibiting : Bool
  deriving DecidableEq

variable {α : Type}

/-- The modifiers of a bind, where `Mod` stands for the configured key and the other way around. -/
def Key.bindModifiers (key : Key) (modKey : ModKey) : Modifiers :=
  if .compositor ∈ key.modifiers then key.modifiers ∪ modKey.toModifiers
  else if modKey.toModifiers ⊆ key.modifiers then key.modifiers ∪ {.compositor}
  else key.modifiers

/-- The modifiers that are down, with `Mod` if it is among them. -/
def downModifiers (modKey : ModKey) (mods : ModifiersState) : Modifiers :=
  let modifiers := modifiersFromState mods
  if modKey.toModifiers ⊆ modifiers then modifiers ∪ {.compositor} else modifiers

def Bind.Matches (modKey : ModKey) (trigger : Trigger) (mods : ModifiersState) (bind : Bind α) :
    Bool :=
  bind.key.trigger = trigger ∧ bind.key.bindModifiers modKey = downModifiers modKey mods

def findConfiguredBind (bindings : List (Bind α)) (modKey : ModKey) (trigger : Trigger)
    (mods : ModifiersState) : Option (Bind α) :=
  bindings.find? (Bind.Matches modKey trigger mods)

/-- Conflicting binds are replaced by the new section. -/
def mergeBinds (binds part : List (Bind α)) : List (Bind α) :=
  binds.filter (fun bind => !part.any fun new => new.key = bind.key) ++ part

/-! The sections of a config. -/

variable {sections : List (List (Bind α))} {b : Bind α} {p : Bind α → Bool}

/-- The key of the bind is written in one of the sections. -/
def Rewritten (sections : List (List (Bind α))) (bind : Bind α) : Bool :=
  sections.any fun part => part.any fun new => new.key = bind.key

/-- The binds that no later section replaces, in order. -/
def surviving : List (List (Bind α)) → List (Bind α)
  | [] => []
  | part :: sections => part.filter (fun bind => !Rewritten sections bind) ++ surviving sections

theorem foldl_mergeBinds (binds : List (Bind α)) (sections : List (List (Bind α))) :
    sections.foldl mergeBinds binds =
      binds.filter (fun bind => !Rewritten sections bind) ++ surviving sections := by
  induction sections generalizing binds with
  | nil => simp [surviving, Rewritten]
  | cons part sections ih =>
    rw [foldl_cons, ih, surviving, mergeBinds, filter_append, List.filter_filter,
      append_assoc]
    congr 2
    funext bind
    simp only [Rewritten, any_cons]
    cases sections.any fun part => part.any fun new => decide (new.key = bind.key) <;> simp

theorem mergeSections_eq (sections : List (List (Bind α))) :
    sections.foldl mergeBinds [] = surviving sections :=
  (foldl_mergeBinds [] sections).trans (nil_append _)

/-- The last of the sections that contain a bind satisfying `p`. -/
def lastMatching (p : Bind α → Bool) (sections : List (List (Bind α))) : Option (List (Bind α)) :=
  (sections.filter fun part => part.any p).getLast?

/-- A bind of the last section with a match was found, or there is no match. -/
def FoundInLast (p : Bind α → Bool) (sections : List (List (Bind α))) : Option (Bind α) → Prop
  | none => lastMatching p sections = none
  | some bind => ∃ part, lastMatching p sections = some part ∧ bind ∈ part

/-- Every match before the last matching section is written again later. -/
def EarlierRewritten (p : Bind α → Bool) : List (List (Bind α)) → Prop
  | [] => True
  | part :: sections =>
    ((sections.any fun part => part.any p) = true →
      ∀ bind ∈ part, p bind = true → Rewritten sections bind = true) ∧
      EarlierRewritten p sections

theorem lastMatching_cons_of_any {part : List (Bind α)}
    (h : (sections.any fun part => part.any p) = true) :
    lastMatching p (part :: sections) = lastMatching p sections := by
  obtain ⟨part', hmem, hany⟩ := List.any_eq_true.mp h
  have hne : sections.filter (fun part => part.any p) ≠ [] :=
    ne_nil_of_mem (mem_filter.mpr ⟨hmem, hany⟩)
  unfold lastMatching
  rw [filter_cons]
  split_ifs
  · rw [getLast?_cons, getLast?_eq_some_getLast hne, getD_some]
  · rfl

theorem lastMatching_of_not_any (h : (sections.any fun part => part.any p) = false) :
    lastMatching p sections = none := by
  have hnil : sections.filter (fun part => part.any p) = [] := by
    rw [filter_eq_nil_iff]
    intro part hmem
    simpa using List.any_eq_false.mp h part hmem
  unfold lastMatching
  rw [hnil]
  rfl

theorem lastMatching_mem {part : List (Bind α)} (h : lastMatching p sections = some part) :
    part ∈ sections ∧ part.any p = true :=
  mem_filter.mp (mem_of_getLast? h)

theorem mem_surviving (h : b ∈ surviving sections) : ∃ part ∈ sections, b ∈ part := by
  induction sections with
  | nil => cases h
  | cons part sections ih =>
    rcases mem_append.mp h with h | h
    · exact ⟨part, mem_cons_self .., (mem_filter.mp h).1⟩
    · obtain ⟨part', hmem, hb⟩ := ih h
      exact ⟨part', mem_cons_of_mem _ hmem, hb⟩

/-- With no match in the later sections, a match is not written again there. -/
theorem not_rewritten (hp : ∀ a b : Bind α, a.key = b.key → p a = p b)
    (h : (sections.any fun part => part.any p) = false) (hb : p b = true) :
    Rewritten sections b = false := by
  rw [Rewritten, List.any_eq_false]
  intro part hmem hany
  obtain ⟨new, hnew, hkey⟩ := List.any_eq_true.mp hany
  have hpart := List.any_eq_false.mp h part hmem
  rw [List.any_eq_true] at hpart
  exact hpart ⟨new, hnew, (hp new b (of_decide_eq_true hkey)).trans hb⟩

theorem find_filter_eq_none {part : List (Bind α)} {q : Bind α → Bool} :
    (part.filter q).find? p = none ↔ ∀ bind ∈ part, p bind = true → q bind = false := by
  rw [find?_eq_none]
  constructor
  · intro h bind hmem hbind
    by_contra hq
    exact h bind (mem_filter.mpr ⟨hmem, by simpa using hq⟩) hbind
  · intro h bind hmem hbind
    obtain ⟨hmem, hq⟩ := mem_filter.mp hmem
    rw [h bind hmem hbind] at hq
    cases hq

theorem find_surviving_of_not_any (h : (sections.any fun part => part.any p) = false) :
    (surviving sections).find? p = none := by
  rw [find?_eq_none]
  intro bind hmem hbind
  obtain ⟨part, hpart, hbind'⟩ := mem_surviving hmem
  exact List.any_eq_false.mp h part hpart (List.any_eq_true.mpr ⟨bind, hbind', hbind⟩)

theorem earlierRewritten_of_not_any (h : (sections.any fun part => part.any p) = false) :
    EarlierRewritten p sections := by
  induction sections with
  | nil => trivial
  | cons part sections ih =>
    rw [any_cons, Bool.or_eq_false_iff] at h
    exact ⟨fun hany => absurd hany (by simp [h.2]), ih h.2⟩

/-- The last section with a match: none of its matches is replaced. -/
theorem foundInLast_cons_of_not_any {part : List (Bind α)}
    (hp : ∀ a b : Bind α, a.key = b.key → p a = p b)
    (h : (sections.any fun part => part.any p) = false) :
    FoundInLast p (part :: sections) ((surviving (part :: sections)).find? p) := by
  rw [surviving, find?_append, find_surviving_of_not_any h, or_none]
  cases hfind : (part.filter fun bind => !Rewritten sections bind).find? p with
  | none =>
    refine lastMatching_of_not_any ?_
    rw [any_cons, h, Bool.or_false, List.any_eq_false]
    intro bind hmem hbind
    have := find_filter_eq_none.mp hfind bind hmem hbind
    rw [not_rewritten hp h hbind] at this
    cases this
  | some bind =>
    obtain ⟨hmem, -⟩ := mem_filter.mp (mem_of_find?_eq_some hfind)
    have hany : part.any p = true := List.any_eq_true.mpr ⟨bind, hmem, find?_some hfind⟩
    refine ⟨part, ?_, hmem⟩
    have hnil : sections.filter (fun part => part.any p) = [] := by
      rw [filter_eq_nil_iff]
      exact List.any_eq_false.mp h
    unfold lastMatching
    rw [filter_cons, if_pos hany, hnil]
    rfl

/-- A match that is not written again hides the later sections. -/
theorem not_foundInLast_of_survives {part : List (Bind α)}
    (h : (sections.any fun part => part.any p) = true)
    (hb : Rewritten sections b = false) : ¬FoundInLast p (part :: sections) (some b) := by
  rintro ⟨last, hlast, hmem⟩
  rw [lastMatching_cons_of_any h] at hlast
  have hpart := List.any_eq_false.mp hb last (lastMatching_mem hlast).1
  exact hpart (List.any_eq_true.mpr ⟨b, hmem, decide_eq_true rfl⟩)

theorem foundInLast_cons {part : List (Bind α)} {found : Option (Bind α)}
    (h : (sections.any fun part => part.any p) = true) :
    FoundInLast p (part :: sections) found ↔ FoundInLast p sections found := by
  cases found with
  | none => exact iff_of_eq (congrArg (· = none) (lastMatching_cons_of_any h))
  | some bind =>
    unfold FoundInLast
    rw [lastMatching_cons_of_any h]

/-- The lookup in the merged binds finds a bind of the last section exactly if every earlier match is
written again. -/
theorem foundInLast_iff (hp : ∀ a b : Bind α, a.key = b.key → p a = p b) :
    FoundInLast p sections ((surviving sections).find? p) ↔ EarlierRewritten p sections := by
  induction sections with
  | nil => simp [FoundInLast, surviving, lastMatching, EarlierRewritten]
  | cons part sections ih =>
    cases hlater : sections.any fun part => part.any p with
    | false =>
      refine iff_of_true (foundInLast_cons_of_not_any hp hlater) ?_
      exact ⟨fun hany => absurd hany (by simp [hlater]), earlierRewritten_of_not_any hlater⟩
    | true =>
      rw [surviving, find?_append, EarlierRewritten]
      cases hfind : (part.filter fun bind => !Rewritten sections bind).find? p with
      | none =>
        have hrewritten := find_filter_eq_none.mp hfind
        rw [none_or, foundInLast_cons hlater, ih]
        refine ⟨fun h => ⟨fun _ bind hmem hbind => ?_, h⟩, fun h => h.2⟩
        simpa using hrewritten bind hmem hbind
      | some bind =>
        obtain ⟨hmem, hnot⟩ := mem_filter.mp (mem_of_find?_eq_some hfind)
        have hsurvives : Rewritten sections bind = false := by simpa using hnot
        refine iff_of_false (not_foundInLast_of_survives hlater hsurvives) fun h => ?_
        have hagain := h.1 hlater bind hmem (find?_some hfind)
        rw [hsurvives] at hagain
        cases hagain

theorem matches_congr {modKey : ModKey} {trigger : Trigger} {mods : ModifiersState} (a b : Bind α)
    (h : a.key = b.key) : a.Matches modKey trigger mods = b.Matches modKey trigger mods := by
  unfold Bind.Matches
  rw [h]

end Macniri.NiriConfig
