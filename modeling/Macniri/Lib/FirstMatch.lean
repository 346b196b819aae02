import Mathlib.Data.List.Basic

/-! The first element of a list that satisfies a predicate, and what becomes of it when the list is
edited. -/
namespace Macniri

open Option List

universe u v

variable {α : Type u} {β : Type v} {p : α → Bool} {l : List α} {a b : α} {i : ℕ}

theorem find?_of_findIdx? (h : l.findIdx? p = some i) (ha : l[i]? = some a) : l.find? p = some a := by
  obtain ⟨hi, hp, hbefore⟩ := findIdx?_eq_some_iff_getElem.mp h
  rw [getElem?_eq_getElem hi, some.injEq] at ha
  refine find?_eq_some_iff_getElem.mpr ⟨ha ▸ hp, i, hi, ha, fun j hj => ?_⟩
  simpa using hbefore j hj

theorem exists_of_findIdx? (h : l.findIdx? p = some i) : ∃ a, l[i]? = some a ∧ p a = true := by
  obtain ⟨hi, hp, -⟩ := findIdx?_eq_some_iff_getElem.mp h
  exact ⟨l[i], getElem?_eq_getElem hi, hp⟩

theorem exists_findIdx? (h : ∃ a ∈ l, p a = true) :
    ∃ i a, l.findIdx? p = some i ∧ l[i]? = some a ∧ p a = true := by
  have hsome := findIdx?_eq_some_of_exists h
  obtain ⟨a, ha, hp⟩ := exists_of_findIdx? hsome
  exact ⟨_, a, hsome, ha, hp⟩

/-- Replacing the first match by another match. -/
theorem findIdx?_set (h : l.findIdx? p = some i) (hb : p b = true) :
    (l.set i b).findIdx? p = some i := by
  obtain ⟨hi, -, hbefore⟩ := findIdx?_eq_some_iff_getElem.mp h
  refine findIdx?_eq_some_iff_getElem.mpr ⟨by simpa using hi, by simpa using hb, fun j hj => ?_⟩
  rw [getElem_set_ne (by omega)]
  exact hbefore j hj

theorem find?_set (h : l.findIdx? p = some i) (hb : p b = true) : (l.set i b).find? p = some b :=
  find?_of_findIdx? (findIdx?_set h hb)
    (getElem?_set_self (findIdx?_eq_some_iff_getElem.mp h).1)

/-- The only match is the one that goes in. -/
theorem findIdx?_insertIdx (hl : ∀ a ∈ l, p a = false) (hb : p b = true) (hi : i ≤ l.length) :
    (l.insertIdx i b).findIdx? p = some i := by
  induction l generalizing i with
  | nil =>
    obtain rfl : i = 0 := Nat.le_zero.mp hi
    simp [findIdx?_cons, hb]
  | cons a l ih =>
    cases i with
    | zero => simp [findIdx?_cons, hb]
    | succ i =>
      have hrest := ih (fun x hx => hl x (mem_cons_of_mem a hx)) (Nat.le_of_succ_le_succ hi)
      simp [findIdx?_cons, hl a mem_cons_self, hrest]

theorem findIdx?_set_of_not (hl : ∀ a ∈ l, p a = false) (hb : p b = true) (hi : i < l.length) :
    (l.set i b).findIdx? p = some i := by
  refine findIdx?_eq_some_iff_getElem.mpr ⟨by simpa using hi, by simpa using hb, fun j hj => ?_⟩
  rw [getElem_set_ne (by omega)]
  simpa using hl _ (getElem_mem _)

theorem find?_set_of_not (hl : ∀ a ∈ l, p a = false) (hb : p b = true) (hi : i < l.length) :
    (l.set i b).find? p = some b :=
  find?_of_findIdx? (findIdx?_set_of_not hl hb hi) (getElem?_set_self hi)

/-- What goes in is no match. -/
theorem find?_insertIdx_of_not (hb : p b = false) (i : ℕ) :
    (l.insertIdx i b).find? p = l.find? p := by
  induction l generalizing i with
  | nil => cases i <;> simp [hb]
  | cons a l ih =>
    cases i with
    | zero => simp [hb]
    | succ i => simp [find?_cons, ih]

/-- A change that keeps the matches keeps what the first of them is known to be. -/
theorem exists_find?_modify {f : α → α} {Q : α → Prop} (hp : ∀ a, p (f a) = p a)
    (hq : ∀ a, Q a → Q (f a)) (h : ∃ a, l.find? p = some a ∧ Q a) (i : ℕ) :
    ∃ a, (l.modify i f).find? p = some a ∧ Q a := by
  induction l generalizing i with
  | nil => simp at h
  | cons b l ih =>
    obtain ⟨a, ha, hqa⟩ := h
    rw [find?_cons] at ha
    cases i with
    | zero =>
      rw [modify_zero_cons, find?_cons, hp]
      split at ha
      · obtain rfl := some.inj ha
        exact ⟨f b, rfl, hq b hqa⟩
      · exact ⟨a, ha, hqa⟩
    | succ i =>
      rw [modify_succ_cons, find?_cons]
      split at ha
      · exact ⟨a, ha, hqa⟩
      · exact ih ⟨a, ha, hqa⟩ i

/-- The first match in a list of lists is in the first of them that has one. -/
theorem find?_flatMap {f : β → List α} {ls : List β} {b : β}
    (h : ls.find? (fun b => (f b).any p) = some b) : (ls.flatMap f).find? p = (f b).find? p := by
  induction ls with
  | nil => cases h
  | cons c ls ih =>
    rw [flatMap_cons, find?_append]
    cases hc : (f c).any p with
    | true =>
      rw [find?_cons, hc] at h
      obtain rfl := some.inj h
      obtain ⟨a, ha, hp⟩ := List.any_eq_true.mp hc
      exact or_of_isSome (find?_isSome.mpr ⟨a, ha, hp⟩)
    | false =>
      rw [find?_cons, hc] at h
      have hnone : (f c).find? p = none := by
        rw [find?_eq_none]
        exact List.any_eq_false.mp hc
      rw [hnone, none_or]
      exact ih h

end Macniri
