import Mathlib.Data.List.Induction

/-! `Vec::swap_remove`, and the removal of several indices from the highest down. -/
namespace Macniri

open List

variable {α β : Type} {p : α → Bool}

/-- Replace the element at `i` by the last one and drop the last. -/
def swapRemove (l : List α) (i : ℕ) : List α :=
  match l.getLast? with
  | none => l
  | some last => (l.set i last).dropLast

theorem swapRemove_snoc (l : List α) (x : α) : swapRemove (l ++ [x]) l.length = l := by
  simp [swapRemove]

theorem swapRemove_middle (l r : List α) (x y : α) :
    swapRemove (l ++ x :: (r ++ [y])) l.length = l ++ y :: r := by
  have h : l ++ x :: (r ++ [y]) = (l ++ x :: r) ++ [y] := by simp
  have hset : (l ++ x :: (r ++ [y])).set l.length y = (l ++ y :: r) ++ [y] := by simp
  unfold swapRemove
  rw [h, getLast?_concat, ← h]
  simp only [hset, dropLast_concat]

theorem swapRemove_map (f : α → β) (l : List α) (i : ℕ) :
    swapRemove (l.map f) i = (swapRemove l i).map f := by
  unfold swapRemove
  cases h : l.getLast? with
  | none => simp [h]
  | some last => simp [h, map_set, map_dropLast]

theorem foldl_swapRemove_map (f : α → β) (is : List ℕ) (l : List α) :
    is.foldl swapRemove (l.map f) = (is.foldl swapRemove l).map f := by
  induction is generalizing l with
  | nil => rfl
  | cons i is ih => rw [foldl_cons, foldl_cons, swapRemove_map, ih]

/-- The ascending indices of the elements satisfying `p`. -/
def indicesOf (p : α → Bool) (l : List α) : List ℕ :=
  (l.zipIdx.filter fun e => p e.1).map Prod.snd

theorem indicesOf_snoc (l : List α) (x : α) :
    indicesOf p (l ++ [x]) = indicesOf p l ++ if p x then [l.length] else [] := by
  cases h : p x <;> simp [indicesOf, zipIdx_append, filter_append, h]

/-- Removing from the highest index down never moves an element still to be removed. -/
theorem foldl_swapRemove_append (l r : List α) :
    Perm ((indicesOf p l).reverse.foldl swapRemove (l ++ r))
      (l.filter (fun x => !p x) ++ r) := by
  induction l using List.reverseRecOn generalizing r with
  | nil => simp [indicesOf]
  | append_singleton l x ih =>
    rw [indicesOf_snoc, filter_append]
    cases h : p x with
    | false => simpa [h] using ih (x :: r)
    | true =>
      have hx : List.filter (fun x => !p x) [x] = [] := by simp [h]
      simp only [hx, if_true, reverse_append, reverse_singleton, singleton_append,
        foldl_cons, append_assoc, nil_append]
      rcases eq_nil_or_concat r with rfl | ⟨r, y, rfl⟩
      · rw [swapRemove_snoc]
        simpa using ih []
      · rw [concat_eq_append, swapRemove_middle]
        refine (ih (y :: r)).trans (Perm.append_left _ ?_)
        exact (perm_append_singleton y r).symm

theorem foldl_swapRemove_perm (l : List α) :
    Perm ((indicesOf p l).reverse.foldl swapRemove l) (l.filter fun x => !p x) := by
  simpa using foldl_swapRemove_append (p := p) l []

end Macniri
