import Macniri.Scrolling.ViewOffset

/-! Where the view goes to show a column: to the nearest position that does. -/
namespace Macniri.Layout

/-- The point of an interval that is nearest to `c`. -/
theorem abs_nearest_le {α : Type} [AddCommGroup α] [LinearOrder α] [IsOrderedAddMonoid α] {a b c y : α}
    (hy : a ≤ y ∧ y ≤ b) : |max a (min b c) - c| ≤ |y - c| := by
  obtain hc | hc := le_total c a
  · have hmin : min b c = c := min_eq_right (hc.trans (hy.1.trans hy.2))
    rw [hmin, max_eq_left hc, abs_of_nonneg (sub_nonneg.mpr hc),
      abs_of_nonneg (sub_nonneg.mpr (hc.trans hy.1))]
    exact sub_le_sub_right hy.1 c
  · obtain hbc | hbc := le_total b c
    · rw [min_eq_left hbc, max_eq_right (hy.1.trans hy.2), abs_sub_comm, abs_sub_comm y,
        abs_of_nonneg (sub_nonneg.mpr hbc), abs_of_nonneg (sub_nonneg.mpr (hy.2.trans hbc))]
      exact sub_le_sub_left hy.2 c
    · rw [min_eq_right hbc, max_eq_right hc, sub_self, abs_zero]
      exact abs_nonneg _

variable {curX viewWidth colX colWidth gaps x y p : ℚ}

/-- The padding on both sides of a column, as far as the view has room for it. -/
def viewPadding (viewWidth colWidth gaps : ℚ) : ℚ := clamp ((viewWidth - colWidth) / 2) 0 gaps

/-- The view at `x` shows the column with the given padding. -/
def Shows (viewWidth colX colWidth p x : ℚ) : Prop :=
  x ≤ colX - p ∧ colX + colWidth + p ≤ x + viewWidth

theorem viewPadding_nonneg (hgaps : 0 ≤ gaps) : 0 ≤ viewPadding viewWidth colWidth gaps := by
  unfold viewPadding clamp
  split
  · exact le_rfl
  · split
    · exact hgaps
    · rename_i h _
      exact not_lt.mp h

theorem viewPadding_le (h : colWidth ≤ viewWidth) :
    viewPadding viewWidth colWidth gaps ≤ (viewWidth - colWidth) / 2 := by
  have hroom : 0 ≤ (viewWidth - colWidth) / 2 := by linarith
  unfold viewPadding clamp
  rw [if_neg (not_lt.mpr hroom)]
  split
  · rename_i h
    exact h.le
  · exact le_rfl

theorem computeNewViewOffset_wide (h : viewWidth ≤ colWidth) :
    computeNewViewOffset curX viewWidth colX colWidth gaps = 0 := if_pos h

/-- The positions that show the column are an interval, and the view goes to its nearest point. -/
theorem computeNewViewOffset_eq (h : colWidth < viewWidth) :
    colX + computeNewViewOffset curX viewWidth colX colWidth gaps =
      max (colX + colWidth + viewPadding viewWidth colWidth gaps - viewWidth)
        (min (colX - viewPadding viewWidth colWidth gaps) curX) := by
  have hle : viewPadding viewWidth colWidth gaps ≤ _ := viewPadding_le h.le
  unfold computeNewViewOffset
  rw [if_neg (not_le.mpr h)]
  dsimp only
  unfold viewPadding at hle ⊢
  generalize clamp ((viewWidth - colWidth) / 2) 0 gaps = p at hle ⊢
  split
  · rename_i hshown
    rw [min_eq_right hshown.1, max_eq_right (by linarith [hshown.2])]
    ring
  · rename_i hhidden
    obtain hleft | hleft := lt_or_ge (colX - p) curX
    · have hright : |curX - (colX - p)| ≤ |curX + viewWidth - (colX + colWidth + p)| := by
        rw [abs_of_pos (by linarith), abs_of_nonneg (by linarith)]
        linarith
      rw [if_pos hright, min_eq_left hleft.le, max_eq_right (by linarith)]
      ring
    · have hright : curX + viewWidth < colX + colWidth + p := by
        by_contra hge
        exact hhidden ⟨hleft, not_lt.mp hge⟩
      rw [min_eq_right hleft, max_eq_left (by linarith)]
      have hdist : |curX - (colX - p)| = colX - p - curX := by
        rw [abs_of_nonpos (by linarith)]
        ring
      have hdist' : |curX + viewWidth - (colX + colWidth + p)| =
          colX + colWidth + p - (curX + viewWidth) := by
        rw [abs_of_neg (by linarith)]
        ring
      rw [hdist, hdist']
      split
      · linarith
      · ring

theorem shows_iff : Shows viewWidth colX colWidth p x ↔
    colX + colWidth + p - viewWidth ≤ x ∧ x ≤ colX - p := by
  unfold Shows
  constructor
  · exact fun h => ⟨by linarith [h.2], h.1⟩
  · exact fun h => ⟨h.2, by linarith [h.1]⟩

theorem shows_computeNewViewOffset (h : colWidth < viewWidth) :
    Shows viewWidth colX colWidth (viewPadding viewWidth colWidth gaps)
      (colX + computeNewViewOffset curX viewWidth colX colWidth gaps) := by
  have hle : viewPadding viewWidth colWidth gaps ≤ _ := viewPadding_le h.le
  rw [computeNewViewOffset_eq h, shows_iff]
  exact ⟨le_max_left .., max_le (by linarith) (min_le_left ..)⟩

/-- A view that shows the column stays. -/
theorem computeNewViewOffset_of_shows (h : colWidth < viewWidth)
    (hshown : Shows viewWidth colX colWidth (viewPadding viewWidth colWidth gaps) curX) :
    colX + computeNewViewOffset curX viewWidth colX colWidth gaps = curX := by
  obtain ⟨hlo, hhi⟩ := shows_iff.mp hshown
  rw [computeNewViewOffset_eq h, min_eq_right hhi, max_eq_right hlo]

/-- Where the view goes to show a column. -/
def newViewX (curX viewWidth colX colWidth gaps : ℚ) : ℚ :=
  colX + computeNewViewOffset curX viewWidth colX colWidth gaps

/-- The view goes to the nearest position that shows the column in full, or else to its left edge,
and stays there. -/
theorem newViewX_nearest (curX viewWidth colX colWidth gaps : ℚ) :
    (colWidth < viewWidth →
      Shows viewWidth colX colWidth (viewPadding viewWidth colWidth gaps)
        (newViewX curX viewWidth colX colWidth gaps) ∧
      (∀ y, Shows viewWidth colX colWidth (viewPadding viewWidth colWidth gaps) y →
        |newViewX curX viewWidth colX colWidth gaps - curX| ≤ |y - curX|) ∧
      (Shows viewWidth colX colWidth (viewPadding viewWidth colWidth gaps) curX →
        newViewX curX viewWidth colX colWidth gaps = curX)) ∧
    (viewWidth ≤ colWidth → newViewX curX viewWidth colX colWidth gaps = colX) ∧
    newViewX (newViewX curX viewWidth colX colWidth gaps) viewWidth colX colWidth gaps =
      newViewX curX viewWidth colX colWidth gaps := by
  refine ⟨fun h => ⟨shows_computeNewViewOffset h, fun y hy => ?_, computeNewViewOffset_of_shows h⟩,
    fun h => ?_, ?_⟩
  · rw [newViewX, computeNewViewOffset_eq h]
    exact abs_nearest_le (shows_iff.mp hy)
  · rw [newViewX, computeNewViewOffset_wide h, add_zero]
  · obtain h | h := lt_or_ge colWidth viewWidth
    · exact computeNewViewOffset_of_shows h (shows_computeNewViewOffset h)
    · simp only [newViewX, computeNewViewOffset_wide h]

end Macniri.Layout
