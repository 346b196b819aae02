import Mathlib.Data.List.MinMax
import Mathlib.Data.List.TakeWhile

/-! Searches by index in a list of positions: the nearest one, and the last one before some point. -/
namespace Macniri

open List

universe u v

variable {α : Type u} {β : Type v} {xs : List α} {a b : α} {i j : ℕ}

theorem mem_zipIdx_iff : (a, i) ∈ xs.zipIdx ↔ xs[i]? = some a := mem_zipIdx_iff_getElem?

section Argmin

variable [LinearOrder β] {f : α → β}

/-- The index of a least element, and nothing is below it. -/
theorem argmin_zipIdx (h : xs.zipIdx.argmin (fun p => f p.1) = some (a, i)) :
    xs[i]? = some a ∧ ∀ (j : ℕ) b, xs[j]? = some b → f a ≤ f b := by
  refine ⟨mem_zipIdx_iff.mp (argmin_mem h), fun j b hb => ?_⟩
  have hmem : (b, j) ∈ xs.zipIdx := mem_zipIdx_iff.mpr hb
  exact le_of_mem_argmin (f := fun p : α × ℕ => f p.1) hmem h

theorem exists_argmin (h : xs ≠ []) (f : α → β) :
    ∃ a i, xs.zipIdx.argmin (fun p => f p.1) = some (a, i) := by
  have hsome : xs.zipIdx.argmin (fun p => f p.1) ≠ none := fun hnone =>
    h (zipIdx_eq_nil_iff.mp (argmin_eq_none.mp hnone))
  obtain ⟨⟨a, i⟩, hp⟩ := Option.ne_none_iff_exists'.mp hsome
  exact ⟨a, i, hp⟩

end Argmin

section TakeWhile

variable {p : α → Bool}

/-- The last element of the part of the list where `p` holds, and the one behind it. -/
theorem getLast?_takeWhile_zipIdx
    (h : (xs.zipIdx.takeWhile fun q => p q.1).getLast? = some (a, i)) :
    xs[i]? = some a ∧ p a = true ∧ ∀ b, xs[i + 1]? = some b → p b = false := by
  obtain ⟨init, hinit⟩ := getLast?_eq_some_iff.mp h
  have hsplit := takeWhile_append_dropWhile (p := fun q : α × ℕ => p q.1) (l := xs.zipIdx)
  rw [hinit, append_assoc, singleton_append] at hsplit
  have hat : xs.zipIdx[init.length]? = some (a, i) := by
    rw [← hsplit, getElem?_append_right le_rfl, Nat.sub_self, getElem?_cons_zero]
  have hmem : (a, i) ∈ xs.zipIdx.takeWhile fun q => p q.1 := mem_of_getLast? h
  obtain rfl : init.length = i := by
    rw [getElem?_zipIdx] at hat
    obtain ⟨b, -, hb⟩ := Option.map_eq_some_iff.mp hat
    simpa using (Prod.mk.inj hb).2
  have hp : p a = true := by simpa using mem_takeWhile_imp hmem
  refine ⟨mem_zipIdx_iff.mp (mem_of_getElem? hat), hp, fun b hb => ?_⟩
  have hnext : (xs.zipIdx.dropWhile fun q => p q.1).head? = some (b, init.length + 1) := by
    have hget : xs.zipIdx[init.length + 1]? = some (b, init.length + 1) := by
      rw [getElem?_zipIdx, hb]
      simp
    rw [← hsplit, getElem?_append_right (by omega), Nat.add_sub_cancel_left,
      getElem?_cons_succ] at hget
    rwa [head?_eq_getElem?]
  have hnot := head?_dropWhile_not (fun q : α × ℕ => p q.1) xs.zipIdx
  rw [hnext] at hnot
  simpa using hnot

theorem exists_getLast?_takeWhile (h : xs.head?.any p = true) :
    ∃ a i, (xs.zipIdx.takeWhile fun q => p q.1).getLast? = some (a, i) := by
  cases xs with
  | nil => cases h
  | cons x xs =>
    have hx : p x = true := h
    have hne : ((x :: xs).zipIdx.takeWhile fun q => p q.1) ≠ [] := by
      simp [zipIdx_cons, hx]
    exact ⟨_, _, getLast?_eq_some_getLast hne⟩

end TakeWhile

end Macniri
