import Mathlib.Data.List.InsertIdx
import Mathlib.Data.List.Perm.Basic
import Mathlib.Data.List.Forall2
import Mathlib.Data.List.Flatten

/-! Editing a list at an index: what `set`, `modify`, `mapIdx`, `insertIdx` and `eraseIdx` keep. -/
namespace Macniri

open List

universe u v

variable {α : Type u} {β : Type v} {l : List α} {i : ℕ} {a b : α}

theorem mem_of_mem_set (h : a ∈ l.set i b) : a = b ∨ a ∈ l := by
  rcases mem_or_eq_of_mem_set h with h | h
  · exact .inr h
  · exact .inl h

theorem lt_length_of_getElem? (h : l[i]? = some a) : i < l.length :=
  (List.getElem?_eq_some_iff.mp h).1

theorem ne_nil_of_getElem? (h : l[i]? = some a) : l ≠ [] := by
  rintro rfl
  simp at h

theorem modify_eq_set_of_getElem? {f : α → α} (h : l[i]? = some a) :
    l.modify i f = l.set i (f a) := by
  obtain ⟨hi, rfl⟩ := List.getElem?_eq_some_iff.mp h
  apply ext_getElem?
  intro j
  rw [getElem?_modify, getElem?_set]
  by_cases hij : i = j
  · subst hij
    simp [hi]
  · simp [hij]

theorem set_self_of_getElem? (h : l[i]? = some a) : l.set i a = l := by
  obtain ⟨hi, rfl⟩ := List.getElem?_eq_some_iff.mp h
  exact set_getElem_self hi

theorem map_set_of_eq {f : α → β} (h : l[i]? = some a) (hf : f b = f a) :
    (l.set i b).map f = l.map f := by
  rw [map_set, hf]
  exact set_self_of_getElem? (by simp [h])

theorem insertIdx_eraseIdx_self (h : l[i]? = some a) : (l.eraseIdx i).insertIdx i a = l := by
  induction l generalizing i with
  | nil => simp at h
  | cons b l ih =>
    cases i with
    | zero => simpa using h.symm
    | succ i => simpa using ih (by simpa using h)

theorem eraseIdx_middle (l : List α) (a : α) (m : List α) :
    (l ++ a :: m).eraseIdx l.length = l ++ m := by
  rw [eraseIdx_append_of_length_le (Nat.le_refl _), Nat.sub_self, eraseIdx_cons_zero]

theorem insertIdx_middle (l : List α) (a : α) (m : List α) :
    (l ++ m).insertIdx l.length a = l ++ a :: m := by
  induction l with
  | nil => simp
  | cons b l ih => simpa using ih

theorem insertIdx_eq_take_drop (h : i ≤ l.length) (a : α) :
    l.insertIdx i a = l.take i ++ a :: l.drop i := by
  have hins := insertIdx_middle (l.take i) a (l.drop i)
  rwa [take_append_drop, length_take_of_le h] at hins

theorem take_one_of_getElem? (h : l[0]? = some a) : l.take 1 = [a] := by
  cases l with
  | nil => simp at h
  | cons b l => simpa using h

theorem drop_of_getElem?_last (h : l[l.length - 1]? = some a) : l.drop (l.length - 1) = [a] := by
  obtain ⟨hlt, rfl⟩ := List.getElem?_eq_some_iff.mp h
  rw [drop_eq_getElem_cons hlt, drop_eq_nil_of_le (by omega)]

/-- Before the first of the first `n` elements that satisfies `q`, none does. -/
theorem not_of_mem_take_findIdx? (q : α → Bool) {n : ℕ}
    (h : a ∈ l.take (((l.take n).findIdx? q).getD n)) : q a = false := by
  cases hfind : (l.take n).findIdx? q with
  | none =>
    rw [hfind] at h
    exact findIdx?_eq_none_iff.mp hfind a h
  | some i =>
    obtain ⟨hi, -, hbefore⟩ := findIdx?_eq_some_iff_getElem.mp hfind
    rw [hfind, Option.getD_some] at h
    obtain ⟨j, hj, rfl⟩ := mem_take_iff_getElem.mp h
    have hji : j < i := by omega
    have hq := hbefore j hji
    rw [getElem_take] at hq
    exact Bool.eq_false_iff.mpr hq

theorem map_mapIdx_of_eq {f : α → β} {g : ℕ → α → α} (hf : ∀ i a, f (g i a) = f a) :
    (l.mapIdx g).map f = l.map f := by
  apply ext_getElem?
  intro j
  simp only [getElem?_map, getElem?_mapIdx]
  cases l[j]? <;> simp [hf]

theorem map_modify_of_eq {f : α → β} {g : α → α} (hf : ∀ a, f (g a) = f a) :
    (l.modify i g).map f = l.map f := by
  apply ext_getElem?
  intro j
  simp only [getElem?_map, getElem?_modify]
  cases l[j]? <;> simp
  split
  · exact hf _
  · rfl

/-! Pointwise relations. -/

variable {R : α → α → Prop}

theorem forall₂_mapIdx {g : ℕ → α → α} (h : ∀ i a, a ∈ l → R a (g i a)) :
    Forall₂ R l (l.mapIdx g) := by
  rw [forall₂_iff_get]
  refine ⟨by simp, fun i h₁ h₂ => ?_⟩
  simpa using h i l[i] (getElem_mem h₁)

theorem forall₂_map {g : α → α} (h : ∀ a, a ∈ l → R a (g a)) : Forall₂ R l (l.map g) := by
  rw [forall₂_iff_get]
  refine ⟨by simp, fun i h₁ h₂ => ?_⟩
  simpa using h l[i] (getElem_mem h₁)

theorem forall₂_set (hr : ∀ a, R a a) (h : l[i]? = some a) (hab : R a b) :
    Forall₂ R l (l.set i b) := by
  rw [forall₂_iff_get]
  refine ⟨by simp, fun j h₁ h₂ => ?_⟩
  obtain ⟨hi, rfl⟩ := List.getElem?_eq_some_iff.mp h
  simp only [get_eq_getElem, getElem_set]
  split
  · rename_i hij
    subst hij
    exact hab
  · exact hr _

theorem forall₂_modify {g : α → α} (hr : ∀ a, R a a) (h : ∀ a, a ∈ l → R a (g a)) :
    Forall₂ R l (l.modify i g) := by
  cases hi : l[i]? with
  | none =>
    rw [modify_eq_self (by simpa using hi)]
    exact forall₂_same.mpr fun a _ => hr a
  | some a =>
    rw [modify_eq_set_of_getElem? hi]
    exact forall₂_set hr hi (h a (mem_of_getElem? hi))

theorem Forall₂.getElem? {m : List α} (h : Forall₂ R l m) (hi : l[i]? = some a) :
    ∃ b, m[i]? = some b ∧ R a b := by
  obtain ⟨hlen, hget⟩ := forall₂_iff_get.mp h
  obtain ⟨hl, rfl⟩ := List.getElem?_eq_some_iff.mp hi
  exact ⟨m[i], getElem?_eq_getElem (hlen ▸ hl), hget i hl (hlen ▸ hl)⟩

theorem Forall₂.exists_of_mem {S : α → β → Prop} {m : List β} (h : Forall₂ S l m) (ha : a ∈ l) :
    ∃ b ∈ m, S a b := by
  induction h with
  | nil => exact absurd ha not_mem_nil
  | cons hab _ ih =>
    rcases mem_cons.mp ha with rfl | ha
    · exact ⟨_, mem_cons_self, hab⟩
    · obtain ⟨b, hb, hr⟩ := ih ha
      exact ⟨b, mem_cons_of_mem _ hb, hr⟩

theorem Forall₂.map_eq {m : List α} {f : α → β} (h : Forall₂ R l m)
    (hf : ∀ a b, R a b → f b = f a) : m.map f = l.map f := by
  induction h with
  | nil => rfl
  | cons hab _ ih => simp [hf _ _ hab, ih]

theorem Forall₂.forall_mem {m : List α} {P Q : α → Prop} (h : Forall₂ R l m)
    (hf : ∀ a b, R a b → P a → Q b) (hl : ∀ a ∈ l, P a) : ∀ b ∈ m, Q b := by
  induction h with
  | nil => simp
  | cons hab _ ih =>
    intro b hb
    rcases mem_cons.mp hb with rfl | hb
    · exact hf _ _ hab (hl _ (by simp))
    · exact ih (fun a ha => hl a (by simp [ha])) b hb

theorem Forall₂.eraseIdx {m : List α} (h : Forall₂ R l m) (i : ℕ) :
    Forall₂ R (l.eraseIdx i) (m.eraseIdx i) := by
  induction h generalizing i with
  | nil => simp
  | cons hab hrest ih =>
    cases i with
    | zero => simpa using hrest
    | succ i => simpa using ⟨hab, ih i⟩

theorem Forall₂.trans_of {m n : List α} (hr : ∀ a b c, R a b → R b c → R a c)
    (h : Forall₂ R l m) (h' : Forall₂ R m n) : Forall₂ R l n := by
  induction h generalizing n with
  | nil => exact h'
  | cons hab _ ih =>
    cases h' with
    | cons hbc hrest => exact .cons (hr _ _ _ hab hbc) (ih hrest)

theorem Forall₂.flatten_perm {ls ms : List (List α)} (h : Forall₂ Perm ls ms) :
    ls.flatten.Perm ms.flatten := by
  induction h with
  | nil => exact .refl _
  | cons hab _ ih => simpa using hab.append ih

theorem perm_move {j : ℕ} (ha : l[i]? = some a) (hj : j < l.length) :
    ((l.eraseIdx i).insertIdx j a).Perm l := by
  obtain ⟨hi, rfl⟩ := List.getElem?_eq_some_iff.mp ha
  have hlen := length_eraseIdx_of_lt hi
  exact (perm_insertIdx _ _ (by omega)).trans (getElem_cons_eraseIdx_perm hi)

/-! The elements of a list of lists after an edit. -/

variable {ls : List (List α)} {x y : List α}

theorem flatten_insertIdx_perm (h : i ≤ ls.length) :
    (ls.insertIdx i x).flatten.Perm (x ++ ls.flatten) := by
  simpa using (perm_insertIdx x ls h).flatten

theorem perm_flatten_eraseIdx (h : ls[i]? = some x) :
    ls.flatten.Perm (x ++ (ls.eraseIdx i).flatten) := by
  obtain ⟨hi, rfl⟩ := List.getElem?_eq_some_iff.mp h
  simpa using (getElem_cons_eraseIdx_perm hi).flatten.symm

theorem flatten_set_perm (h : i < ls.length) :
    (ls.set i x).flatten.Perm (x ++ (ls.eraseIdx i).flatten) := by
  simpa using (set_perm_cons_eraseIdx h x).flatten

theorem flatten_set_perm_cons (h : ls[i]? = some x) (hy : y.Perm (a :: x)) :
    (ls.set i y).flatten.Perm (a :: ls.flatten) := by
  have h₁ := flatten_set_perm (x := y) (lt_length_of_getElem? h)
  have h₂ := perm_flatten_eraseIdx h
  exact h₁.trans ((hy.append_right _).trans (by simpa using (h₂.symm.cons a)))

theorem perm_cons_flatten_set (h : ls[i]? = some x) (hy : x.Perm (a :: y)) :
    ls.flatten.Perm (a :: (ls.set i y).flatten) := by
  have h₁ := flatten_set_perm (x := y) (lt_length_of_getElem? h)
  have h₂ := perm_flatten_eraseIdx h
  exact h₂.trans ((hy.append_right _).trans (by simpa using (h₁.symm.cons a)))

theorem flatten_set_perm_of_perm (h : ls[i]? = some x) (hy : y.Perm x) :
    (ls.set i y).flatten.Perm ls.flatten := by
  have h₁ := flatten_set_perm (x := y) (lt_length_of_getElem? h)
  exact h₁.trans ((hy.append_right _).trans (perm_flatten_eraseIdx h).symm)

end Macniri
