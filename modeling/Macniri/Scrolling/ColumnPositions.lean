import Macniri.Scrolling.Columns

/-! Where the columns are, and where the view onto them is. -/
namespace Macniri.Layout

open List Option

/-! The X positions of the columns as sums of widths and gaps. -/

def columnXAt (gaps : ℚ) (ds : List ColumnData) (i : ℕ) : ℚ := ((columnXs gaps 0 ds)[i]?).getD 0

section

variable {gaps : ℚ} {ds : List ColumnData} {d : ColumnData} {i n : ℕ}

theorem columnXs_getElem? (x : ℚ) (h : i ≤ ds.length) :
    (columnXs gaps x ds)[i]? = some (x + ((ds.take i).map (·.width + gaps)).sum) := by
  induction ds generalizing x i with
  | nil =>
    obtain rfl := Nat.le_zero.mp h
    simp [columnXs]
  | cons d ds ih =>
    cases i with
    | zero => simp [columnXs]
    | succ i =>
      rw [columnXs, getElem?_cons_succ, ih _ (Nat.le_of_succ_le_succ h)]
      simp only [take_succ_cons, map_cons, sum_cons]
      rw [add_assoc]

theorem length_columnXs (x : ℚ) (ds : List ColumnData) : (columnXs gaps x ds).length = ds.length + 1 := by
  induction ds generalizing x with
  | nil => rfl
  | cons d ds ih => exact congrArg (· + 1) (ih _)

theorem columnXAt_eq (h : i ≤ ds.length) :
    columnXAt gaps ds i = ((ds.take i).map (·.width + gaps)).sum := by
  rw [columnXAt, columnXs_getElem? 0 h, getD_some, zero_add]

theorem columnXAt_succ (h : ds[i]? = some d) :
    columnXAt gaps ds (i + 1) = columnXAt gaps ds i + (d.width + gaps) := by
  have hlt := lt_length_of_getElem? h
  rw [columnXAt_eq hlt, columnXAt_eq hlt.le, take_add_one, h]
  simp

/-- Columns to the left of a position determine it. -/
theorem columnXAt_congr {es : List ColumnData} (hi : i ≤ ds.length) (h : es.take i = ds.take i)
    (hlen : i ≤ es.length) : columnXAt gaps es i = columnXAt gaps ds i := by
  rw [columnXAt_eq hi, columnXAt_eq hlen, h]

theorem columnXAt_insertIdx_le (hn : n ≤ ds.length) (hi : i ≤ n) :
    columnXAt gaps (ds.insertIdx n d) i = columnXAt gaps ds i := by
  refine columnXAt_congr (hi.trans hn) ?_ ?_
  · rw [insertIdx_eq_take_drop hn, take_append_of_le_length (by simpa using ⟨hi, hi.trans hn⟩),
      take_take, min_eq_left hi]
  · rw [length_insertIdx_of_le_length hn]
    omega

theorem columnXAt_insertIdx_gt (hn : n ≤ ds.length) (hi : n ≤ i) (hlen : i ≤ ds.length) :
    columnXAt gaps (ds.insertIdx n d) (i + 1) = columnXAt gaps ds i + (d.width + gaps) := by
  have hlen' : i + 1 ≤ (ds.insertIdx n d).length := by
    rw [length_insertIdx_of_le_length hn]
    omega
  have hsplit : ds.take i = ds.take n ++ (ds.drop n).take (i - n) := by
    rw [← take_add, Nat.add_sub_cancel' hi]
  rw [columnXAt_eq hlen', columnXAt_eq hlen, insertIdx_eq_take_drop hn, take_append,
    length_take_of_le hn, take_of_length_le (by rw [length_take_of_le hn]; omega),
    show i + 1 - n = i - n + 1 by omega, take_succ_cons, hsplit]
  simp only [map_append, map_cons, sum_append, sum_cons]
  ring

theorem columnXAt_eraseIdx_le (h : ds[n]? = some d) (hi : i ≤ n) :
    columnXAt gaps (ds.eraseIdx n) i = columnXAt gaps ds i := by
  have hlt := lt_length_of_getElem? h
  have hlen : n ≤ (ds.eraseIdx n).length := by rw [length_eraseIdx_of_lt hlt]; omega
  calc columnXAt gaps (ds.eraseIdx n) i
      = columnXAt gaps ((ds.eraseIdx n).insertIdx n d) i := (columnXAt_insertIdx_le hlen hi).symm
    _ = columnXAt gaps ds i := by rw [insertIdx_eraseIdx_self h]

theorem columnXAt_eraseIdx_gt (h : ds[n]? = some d) (hi : n < i) (hlen : i < ds.length) :
    columnXAt gaps (ds.eraseIdx n) (i - 1) = columnXAt gaps ds i - (d.width + gaps) := by
  have hlen' : (ds.eraseIdx n).length = ds.length - 1 :=
    length_eraseIdx_of_lt (lt_length_of_getElem? h)
  have hinsert : columnXAt gaps ((ds.eraseIdx n).insertIdx n d) (i - 1 + 1) = _ :=
    columnXAt_insertIdx_gt (by omega) (by omega) (by omega)
  rw [insertIdx_eraseIdx_self h, Nat.sub_add_cancel (by omega)] at hinsert
  rw [hinsert, add_sub_cancel_right]

end

/-! The view offset after a change of its target. -/

namespace ViewOffset

/-- What animating to an offset adds at once: the correction of an inaccuracy below a pixel. -/
def correction (v : ViewOffset) (newViewOffset pixel : ℚ) : ℚ :=
  if |newViewOffset - v.target| < pixel then newViewOffset - v.target else 0

@[simp] theorem current_offset (v : ViewOffset) (x : ℚ) : (v.offset x).current = v.current + x := by
  cases v with
  | static o => rfl
  | animation a => rfl
  | gesture g => exact add_right_comm ..

@[simp] theorem target_offset (v : ViewOffset) (x : ℚ) : (v.offset x).target = v.target + x := by
  cases v <;> rfl

/-- The target is exactly the new offset, whatever the view was doing. -/
@[simp] theorem target_animateTo (v : ViewOffset) (x pixel : ℚ) : (v.animateTo x pixel).target = x := by
  unfold animateTo
  dsimp only
  split
  · rw [target_offset, add_sub_cancel]
  · cases v with
    | static o => rfl
    | animation a => rfl
    | gesture g =>
      dsimp only
      split <;> rfl

/-- The view does not jump, but for the correction. -/
theorem current_animateTo (v : ViewOffset) (x pixel : ℚ) :
    (v.animateTo x pixel).current = v.current + v.correction x pixel := by
  unfold animateTo correction
  dsimp only
  split
  · rw [current_offset]
  · cases v with
    | static o => simp [current]
    | animation a => simp [current]
    | gesture g =>
      dsimp only
      split
      · simp only [current, ViewGesture.animateFrom, map_some, getD_some]
        ring
      · simp [current]

end ViewOffset

namespace ScrollingSpace

variable {s : ScrollingSpace} {i : ℕ} {o : ℚ}

theorem activateColumn_of_ne (h : s.activeColumnIdx ≠ i) : s.activateColumn i =
    { s.animateViewOffsetToColumn none i (some s.activeColumnIdx) with
      activeColumnIdx := i
      activatePrevColumnOnRemoval := none
      viewOffsetToRestore := none
      interactiveResize := none } := by
  unfold activateColumn
  rw [if_neg fun hsame => h hsame.1]
  exact if_neg h

/-- Outside of a DnD scroll nothing happens when the active column is activated. -/
theorem activateColumn_self (h : s.viewOffset.isDndScroll = false) :
    s.activateColumn s.activeColumnIdx = s := by
  unfold activateColumn
  exact if_pos ⟨rfl, .inr h⟩

theorem target_animateViewOffset (s : ScrollingSpace) (i : ℕ) (o : ℚ) :
    (s.animateViewOffset i o).viewOffset.target = o :=
  ViewOffset.target_animateTo ..

end ScrollingSpace

end Macniri.Layout
