import Macniri.Lib.ListEdit

/-! An element that moves to another index of its list. -/
namespace Macniri

open List

universe u

variable {α : Type u} {l : List α} {a b : α} {i j : ℕ}

/-- Where the element at `k` is after the one at `i` moved to `j`. -/
def indexAfterMove (i j k : ℕ) : ℕ :=
  if k = i then j
  else if j ≤ k ∧ k < i then k + 1
  else if k ≤ j ∧ i < k then k - 1
  else k

theorem indexAfterMove_lt {n k : ℕ} (hi : i < n) (hj : j < n) (hk : k < n) :
    indexAfterMove i j k < n := by
  unfold indexAfterMove
  split_ifs <;> omega

theorem getElem?_indexAfterMove (hi : i < l.length) (hj : j < l.length) (ha : l[i]? = some a) (k : ℕ) :
    ((l.eraseIdx i).insertIdx j a)[indexAfterMove i j k]? = l[k]? := by
  have hlen : (l.eraseIdx i).length = l.length - 1 := length_eraseIdx_of_lt hi
  unfold indexAfterMove
  split_ifs with hself hdown hup
  · subst hself
    rw [getElem?_insertIdx_self, if_pos (by omega), ha]
  · rw [getElem?_insertIdx_of_gt (by omega), Nat.add_sub_cancel,
      getElem?_eraseIdx_of_lt hdown.2]
  · rw [getElem?_insertIdx_of_lt (by omega), getElem?_eraseIdx_of_ge (by omega),
      Nat.sub_add_cancel (by omega)]
  · rcases Nat.lt_or_ge k i with hlt | hge
    · rw [getElem?_insertIdx_of_lt (by omega), getElem?_eraseIdx_of_lt hlt]
    · rw [getElem?_insertIdx_of_gt (by omega), getElem?_eraseIdx_of_ge (by omega),
        Nat.sub_add_cancel (by omega)]

/-- To swap neighbours is to move one of them past the other. -/
theorem swap_eq_move (ha : l[i]? = some a) (hb : l[j]? = some b) (hij : j = i + 1 ∨ i = j + 1) :
    (l.set i b).set j a = (l.eraseIdx i).insertIdx j a := by
  have hi := lt_length_of_getElem? ha
  have hj := lt_length_of_getElem? hb
  have hlen : (l.eraseIdx i).length = l.length - 1 := length_eraseIdx_of_lt hi
  apply ext_getElem?
  intro k
  rcases Nat.lt_trichotomy k j with hlt | rfl | hgt
  · rw [getElem?_set_ne (by omega), getElem?_insertIdx_of_lt hlt]
    rcases Nat.lt_trichotomy k i with hlt' | rfl | hgt'
    · rw [getElem?_set_ne (by omega), getElem?_eraseIdx_of_lt hlt']
    · obtain rfl : j = k + 1 := by omega
      rw [getElem?_set_self hi, getElem?_eraseIdx_of_ge (Nat.le_refl _), hb]
    · omega
  · rw [getElem?_set_self (by simpa using hj), getElem?_insertIdx_self, if_pos (by omega)]
  · rw [getElem?_set_ne (by omega), getElem?_insertIdx_of_gt hgt]
    rcases Nat.lt_trichotomy k i with hlt' | rfl | hgt'
    · omega
    · obtain rfl : k = j + 1 := by omega
      rw [getElem?_set_self hi, Nat.add_sub_cancel, getElem?_eraseIdx_of_lt (by omega), hb]
    · rw [getElem?_set_ne (by omega), getElem?_eraseIdx_of_ge (by omega),
        Nat.sub_add_cancel (by omega)]

theorem filter_insertIdx_of_false {p : α → Bool} (ha : p a = false) (l : List α) (i : ℕ) :
    (l.insertIdx i a).filter p = l.filter p := by
  induction l generalizing i with
  | nil => cases i <;> simp [ha]
  | cons x l ih =>
    cases i with
    | zero => simp [ha]
    | succ i => simp [filter_cons, ih]

/-- The other elements keep their order. -/
theorem sublist_filter_move {p : α → Bool} (ha : p a = false) :
    (((l.eraseIdx i).insertIdx j a).filter p).Sublist l := by
  rw [filter_insertIdx_of_false ha]
  exact filter_sublist.trans (eraseIdx_sublist _ _)

end Macniri
