import Mathlib.Logic.Basic

/-! Runs of a partial step function, and the invariant rules for them. -/
namespace Macniri

open Option List

universe u v

variable {σ : Type u} {α : Type v} {step : σ → α → Option σ} {s t : σ} {a : α} {xs ys : List α}

theorem some_bind {α β : Type u} (a : α) (f : α → Option β) : (some a >>= f) = f a := rfl

/-- What the first of two steps gives when both return. -/
theorem of_bind {α : Type u} {β : Type v} {x : Option α} {f : α → Option β} {b : β}
    (h : x.bind f = some b) : ∃ a, x = some a ∧ f a = some b :=
  bind_eq_some_iff.mp h

theorem of_map {α : Type u} {β : Type v} {x : Option α} {f : α → β} {b : β}
    (h : x.map f = some b) : ∃ a, x = some a ∧ f a = b :=
  map_eq_some_iff.mp h

theorem of_bind_some {α : Type u} {β : Type v} {x : Option α} {f : α → β} {b : β}
    (h : (x.bind fun a => some (f a)) = some b) : ∃ a, x = some a ∧ f a = b := by
  obtain ⟨a, ha, h⟩ := of_bind h
  exact ⟨a, ha, some.inj h⟩

theorem of_guard {α : Type u} {c : Prop} [Decidable c] {a b : α}
    (h : (if c then some a else none) = some b) : c ∧ a = b := by
  obtain ⟨hc, h⟩ := ite_none_right_eq_some.mp h
  exact ⟨hc, some.inj h⟩

theorem pair_inj {α : Type u} {β : Type v} {a c : α} {b d : β} (h : some (a, b) = some (c, d)) :
    a = c ∧ b = d :=
  Prod.mk.inj (some.inj h)

/-- Take the steps in order; `none` as soon as one of them fails. -/
def run (step : σ → α → Option σ) : σ → List α → Option σ
  | s, [] => some s
  | s, a :: xs => (step s a).bind fun t => run step t xs

@[simp] theorem run_nil : run step s [] = some s := rfl

@[simp] theorem run_cons : run step s (a :: xs) = (step s a).bind fun t => run step t xs := rfl

theorem run_append (s : σ) (xs ys : List α) :
    run step s (xs ++ ys) = (run step s xs).bind fun t => run step t ys := by
  induction xs generalizing s with
  | nil => rfl
  | cons a xs ih =>
    cases h : step s a with
    | none => simp [h]
    | some u => simp [h, ih]

/-- What every successful step keeps holds after every successful run. -/
theorem run_invariant {I : σ → Prop} (hstep : ∀ s a t, I s → step s a = some t → I t)
    (hs : I s) (h : run step s xs = some t) : I t := by
  induction xs generalizing s with
  | nil => exact some.inj h ▸ hs
  | cons a xs ih =>
    obtain ⟨u, hu, hrest⟩ := of_bind h
    exact ih (hstep s a u hs hu) hrest

/-- If the allowed steps never fail from a good state, neither does an allowed run. -/
theorem run_total {I : σ → Prop} {P : α → Prop}
    (hstep : ∀ s a, I s → P a → ∃ t, step s a = some t ∧ I t)
    (hs : I s) (hp : ∀ a ∈ xs, P a) : ∃ t, run step s xs = some t ∧ I t := by
  induction xs generalizing s with
  | nil => exact ⟨s, rfl, hs⟩
  | cons a xs ih =>
    obtain ⟨u, hu, hi⟩ := hstep s a hs (hp a (by simp))
    obtain ⟨t, ht, hti⟩ := ih hi (fun b hb => hp b (by simp [hb]))
    exact ⟨t, by simp [hu, ht], hti⟩

/-- Whether every step that the run takes satisfies `p` in the state where it is taken. -/
def along (step : σ → α → Option σ) (p : σ → α → Bool) : σ → List α → Bool
  | _, [] => true
  | s, a :: xs => p s a && (step s a).all fun t => along step p t xs

theorem run_concat : run step s (xs ++ [a]) = some t ↔
    ∃ u, run step s xs = some u ∧ step u a = some t := by
  rw [run_append, bind_eq_some_iff]
  simp

theorem along_concat {p : σ → α → Bool} (h : run step s xs = some t) :
    along step p s (xs ++ [a]) = (along step p s xs && p t a) := by
  induction xs generalizing s with
  | nil =>
    obtain rfl := some.inj h
    cases step s a <;> simp [along]
  | cons b xs ih =>
    obtain ⟨u, hu, hrest⟩ := of_bind h
    simp [along, hu, ih hrest, Bool.and_assoc]

/-- What every step of a kind keeps holds after every run of such steps. -/
theorem run_invariant_along {I : σ → Prop} {p : σ → α → Bool}
    (hstep : ∀ s a t, I s → p s a = true → step s a = some t → I t) (hs : I s)
    (hp : along step p s xs = true) (h : run step s xs = some t) : I t := by
  induction xs generalizing s with
  | nil => exact some.inj h ▸ hs
  | cons a xs ih =>
    obtain ⟨u, hu, hrest⟩ := of_bind h
    obtain ⟨ha, hxs⟩ := Bool.and_eq_true_iff.mp hp
    rw [hu] at hxs
    exact ih (hstep s a u hs ha hu) hxs hrest

/-- Every step that the run takes satisfies `P` in the state where it is taken. -/
def AllAlong (step : σ → α → Option σ) (P : σ → α → Prop) : σ → List α → Prop
  | _, [] => True
  | s, a :: xs => P s a ∧ ∀ t, step s a = some t → AllAlong step P t xs

theorem allAlong_concat {P : σ → α → Prop} (h : run step s xs = some t) :
    AllAlong step P s (xs ++ [a]) ↔ AllAlong step P s xs ∧ P t a := by
  induction xs generalizing s with
  | nil =>
    obtain rfl := some.inj h
    simp [AllAlong]
  | cons b xs ih =>
    obtain ⟨u, hu, hrest⟩ := of_bind h
    simp [AllAlong, hu, ih hrest, and_assoc]

theorem AllAlong.split {P : σ → α → Prop} (h : run step s xs = some t)
    (hp : AllAlong step P s (xs ++ ys)) : AllAlong step P s xs ∧ AllAlong step P t ys := by
  induction xs generalizing s with
  | nil =>
    obtain rfl := some.inj h
    exact ⟨trivial, hp⟩
  | cons b xs ih =>
    obtain ⟨u, hu, hrest⟩ := of_bind h
    obtain ⟨hxs, hys⟩ := ih hrest (hp.2 u hu)
    refine ⟨⟨hp.1, fun v hv => ?_⟩, hys⟩
    obtain rfl := some.inj (hu.symm.trans hv)
    exact hxs

/-- Steps that are fine in every state are fine along the run. -/
theorem allAlong_of_forall {P : σ → α → Prop} (h : ∀ a ∈ xs, ∀ s, P s a) :
    AllAlong step P s xs := by
  induction xs generalizing s with
  | nil => trivial
  | cons a xs ih =>
    exact ⟨h a (mem_cons_self ..) s, fun t _ => ih fun b hb => h b (mem_cons_of_mem a hb)⟩

/-- The steps of a run are checked one by one. -/
theorem allAlong_of_along {P : σ → α → Prop} {p : σ → α → Bool} (hp : ∀ s a, p s a = true → P s a)
    (h : along step p s xs = true) : AllAlong step P s xs := by
  induction xs generalizing s with
  | nil => trivial
  | cons a xs ih =>
    obtain ⟨ha, hxs⟩ := Bool.and_eq_true_iff.mp h
    refine ⟨hp s a ha, fun t ht => ih ?_⟩
    simpa [ht] using hxs

theorem allAlong_of_decide {P : σ → α → Prop} [∀ s a, Decidable (P s a)]
    (h : along step (fun s a => decide (P s a)) s xs = true) : AllAlong step P s xs :=
  allAlong_of_along (fun _ _ => of_decide_eq_true) h

theorem AllAlong.and {P Q : σ → α → Prop} (hp : AllAlong step P s xs) (hq : AllAlong step Q s xs) :
    AllAlong step (fun s a => P s a ∧ Q s a) s xs := by
  induction xs generalizing s with
  | nil => trivial
  | cons a xs ih => exact ⟨⟨hp.1, hq.1⟩, fun t ht => ih (hp.2 t ht) (hq.2 t ht)⟩

/-- What every step of a kind keeps holds after every run of such steps; `I` may depend on the steps
taken so far. -/
theorem run_invariant_allAlong {I : List α → σ → Prop} {P : σ → α → Prop}
    (hstep : ∀ ys s a t, I ys s → P s a → step s a = some t → I (ys ++ [a]) t) (hs : I ys s)
    (hp : AllAlong step P s xs) (h : run step s xs = some t) : I (ys ++ xs) t := by
  induction xs generalizing s ys with
  | nil =>
    obtain rfl := some.inj h
    simpa using hs
  | cons a xs ih =>
    obtain ⟨u, hu, hrest⟩ := of_bind h
    have := ih (hstep ys s a u hs hp.1 hu) (hp.2 u hu) hrest
    simpa using this

/-- `I` may depend on the steps taken so far. -/
theorem run_invariant_prefixes {I : List α → σ → Prop}
    (hstep : ∀ ys s a t, I ys s → step s a = some t → I (ys ++ [a]) t) (hs : I ys s)
    (h : run step s xs = some t) : I (ys ++ xs) t := by
  induction xs generalizing s ys with
  | nil =>
    obtain rfl := some.inj h
    simpa using hs
  | cons a xs ih =>
    obtain ⟨u, hu, hrest⟩ := of_bind h
    have := ih (hstep ys s a u hs hu) hrest
    simpa using this

theorem run_invariant_of_allAlong {I : σ → Prop} {P : σ → α → Prop}
    (hstep : ∀ s a t, I s → P s a → step s a = some t → I t) (hs : I s)
    (hp : AllAlong step P s xs) (h : run step s xs = some t) : I t := by
  induction xs generalizing s with
  | nil => exact some.inj h ▸ hs
  | cons a xs ih =>
    obtain ⟨u, hu, hrest⟩ := of_bind h
    exact ih (hstep s a u hs hp.1 hu) (hp.2 u hu) hrest

/-- If a step keeps the invariant `I` when it meets the condition `P`, and leaves `C` when it does not,
then `C` holds all along exactly the runs whose steps meet the condition. -/
theorem forall_prefix_iff_allAlong {I C : σ → Prop} {E P : σ → α → Prop} (hgood : ∀ s, I s → C s)
    (hstep : ∀ s a, I s → E s a → ∃ t, step s a = some t ∧ (P s a → I t) ∧ (C t → P s a)) (hs : I s)
    (he : AllAlong step E s xs) :
    (∀ pre, pre <+: xs → ∃ t, run step s pre = some t ∧ C t) ↔ AllAlong step P s xs := by
  induction xs generalizing s with
  | nil =>
    refine ⟨fun _ => trivial, fun _ pre hpre => ⟨s, ?_, hgood s hs⟩⟩
    rw [prefix_nil.mp hpre, run_nil]
  | cons a xs ih =>
    obtain ⟨t, ht, hkeep, hleave⟩ := hstep s a hs he.1
    constructor
    · intro h
      obtain ⟨u, hu, hcu⟩ := h [a] ⟨xs, rfl⟩
      obtain rfl : t = u := by simpa [ht] using hu
      have hp := hleave hcu
      refine ⟨hp, fun v hv => ?_⟩
      obtain rfl := some.inj (ht.symm.trans hv)
      refine (ih (hkeep hp) (he.2 t ht)).mp fun pre hpre => ?_
      obtain ⟨w, hw, hcw⟩ := h (a :: pre) ((prefix_cons_inj a).mpr hpre)
      exact ⟨w, by simpa [ht] using hw, hcw⟩
    · rintro ⟨hp, hrest⟩ pre hpre
      cases pre with
      | nil => exact ⟨s, rfl, hgood s hs⟩
      | cons b pre =>
        obtain ⟨rfl, htail⟩ := cons_prefix_cons.mp hpre
        obtain ⟨w, hw, hcw⟩ := (ih (hkeep hp) (he.2 t ht)).mpr (hrest t ht) pre htail
        exact ⟨w, by simpa [ht] using hw, hcw⟩

/-- The run leads to `t`, and every state on the way satisfies `P`. -/
def Through (step : σ → α → Option σ) (P : σ → Prop) : σ → List α → σ → Prop
  | s, [], t => s = t
  | s, a :: xs, t => ∃ u, step s a = some u ∧ P u ∧ Through step P u xs t

namespace Through

variable {P : σ → Prop} {u : σ}

theorem append (h : Through step P s xs u) (h' : Through step P u ys t) :
    Through step P s (xs ++ ys) t := by
  induction xs generalizing s with
  | nil => exact h ▸ h'
  | cons a xs ih =>
    obtain ⟨v, hv, hp, hrest⟩ := h
    exact ⟨v, hv, hp, ih hrest⟩

theorem run_eq (h : Through step P s xs t) : run step s xs = some t := by
  induction xs generalizing s with
  | nil => exact congrArg some h
  | cons a xs ih =>
    obtain ⟨u, hu, -, hrest⟩ := h
    rw [run_cons, hu]
    exact ih hrest

/-- Every part of the run from its start reaches a state that satisfies `P`. -/
theorem of_prefix (h : Through step P s (xs ++ ys) t) (hs : P s) :
    ∃ u, run step s xs = some u ∧ P u := by
  induction xs generalizing s with
  | nil => exact ⟨s, rfl, hs⟩
  | cons a xs ih =>
    obtain ⟨v, hv, hp, hrest⟩ := h
    obtain ⟨u, hu, hpu⟩ := ih hrest hp
    exact ⟨u, by rw [run_cons, hv]; exact hu, hpu⟩

end Through

/-- A run is checked state by state. -/
theorem through_of_along {P : σ → Prop} {q : σ → Bool} (hq : ∀ s, q s = true → P s)
    (h : run step s xs = some t)
    (hall : along step (fun s a => (step s a).all q) s xs = true) : Through step P s xs t := by
  induction xs generalizing s with
  | nil => exact some.inj h
  | cons a xs ih =>
    obtain ⟨u, hu, hrest⟩ := of_bind h
    simp only [along, hu, all_some, Bool.and_eq_true] at hall
    exact ⟨u, hu, hq u hall.1, ih hrest hall.2⟩

/-- A run whose steps keep an invariant passes through states that have it. -/
theorem through_of_invariant {I P : σ → Prop}
    (hstep : ∀ s a t, a ∈ xs → I s → step s a = some t → I t) (hp : ∀ s, I s → P s) (hs : I s)
    (h : run step s xs = some t) : Through step P s xs t := by
  induction xs generalizing s with
  | nil => exact some.inj h
  | cons a xs ih =>
    obtain ⟨u, hu, hrest⟩ := of_bind h
    have hi := hstep s a u (mem_cons_self ..) hs hu
    exact ⟨u, hu, hp u hi, ih (fun s b t hb => hstep s b t (mem_cons_of_mem a hb)) hi hrest⟩

end Macniri
