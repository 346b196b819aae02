import Macniri.Scrolling.InsertPosition
import Macniri.Scrolling.SizingEffects
import Macniri.Scrolling.ViewFit
import Mathlib.Algebra.BigOperators.Intervals

/-! Expanding a column: it takes the width that the columns in view leave free. -/
namespace Macniri.Layout

open Finset

namespace ScrollingSpace

variable {s t : ScrollingSpace} {c d : Column} {i j k l : ℕ} {v : VisibleColumns}

/-! The columns in view. -/

/-- The column is in the working area at the target view position, with the gaps around it. -/
def FullyVisible (s : ScrollingSpace) (i : ℕ) : Prop :=
  s.targetViewPos + s.workingArea.loc.x ≤ s.columnX i - s.options.gaps ∧
    s.columnX i + s.dataWidth i + s.options.gaps ≤
      s.targetViewPos + s.workingArea.loc.x + s.workingArea.size.w

instance (s : ScrollingSpace) : DecidablePred s.FullyVisible :=
  fun _ => inferInstanceAs (Decidable (_ ∧ _))

def visibleBelow (s : ScrollingSpace) (k : ℕ) : Finset ℕ := (range k).filter s.FullyVisible

def fullyVisible (s : ScrollingSpace) : Finset ℕ := s.visibleBelow s.columns.length

theorem mem_visibleBelow : i ∈ s.visibleBelow k ↔ i < k ∧ s.FullyVisible i := by
  rw [visibleBelow, mem_filter, mem_range]

theorem columnX_succ (hi : i < s.data.length) :
    s.columnX (i + 1) = s.columnX i + (s.dataWidth i + s.options.gaps) := by
  have hd := List.getElem?_eq_getElem hi
  have hnext : s.columnX (i + 1) = s.columnX i + (s.data[i].width + s.options.gaps) :=
    columnXAt_succ hd
  rw [hnext, dataWidth, hd]
  rfl

theorem length_data (hs : s.Inv) : s.data.length = s.columns.length := by
  rw [hs.data, List.length_map]

theorem visibleBelow_succ_of_mem (h : s.FullyVisible k) :
    s.visibleBelow (k + 1) = insert k (s.visibleBelow k) := by
  rw [visibleBelow, range_add_one, filter_insert, if_pos h]
  rfl

theorem visibleBelow_succ_of_not (h : ¬ s.FullyVisible k) :
    s.visibleBelow (k + 1) = s.visibleBelow k := by
  rw [visibleBelow, range_add_one, filter_insert, if_neg h]
  rfl

/-- What the scan has found out about the first `k` columns. -/
structure Scanned (s : ScrollingSpace) (k : ℕ) (v : VisibleColumns) : Prop where
  taken : v.widthTaken = ∑ i ∈ s.visibleBelow k, (s.dataWidth i + s.options.gaps)
  hidden : v.leftmostColX = none → ∀ i < k,
    s.columnX i - s.options.gaps < s.targetViewPos + s.workingArea.loc.x
  leftmost : ∀ x, v.leftmostColX = some x → ∃ l < k, s.columnX l = x ∧
    s.targetViewPos + s.workingArea.loc.x ≤ s.columnX l - s.options.gaps ∧
    ∀ i < l, s.columnX i - s.options.gaps < s.targetViewPos + s.workingArea.loc.x
  active : v.activeColX =
    if s.activeColumnIdx ∈ s.visibleBelow k then some (s.columnX s.activeColumnIdx) else none
  counted : v.countedNonActive = true ↔ ∃ i ∈ s.visibleBelow k, i ≠ s.activeColumnIdx

theorem scanned_zero (s : ScrollingSpace) : s.Scanned 0 ⟨0, none, none, false⟩ where
  taken := rfl
  hidden _ _ hi := (Nat.not_lt_zero _ hi).elim
  leftmost := nofun
  active := rfl
  counted := by simp [visibleBelow]

/-- The column goes off-screen to the left. -/
theorem Scanned.skip (h : s.Scanned k v)
    (hleft : s.columnX k - s.options.gaps < s.targetViewPos + s.workingArea.loc.x) :
    s.Scanned (k + 1) v := by
  have hsame := visibleBelow_succ_of_not (s := s) fun hk => not_le.mpr hleft hk.1
  refine ⟨hsame ▸ h.taken, fun hnone i hi => ?_, fun x hx => ?_, hsame ▸ h.active, hsame ▸ h.counted⟩
  · rcases Nat.lt_succ_iff_lt_or_eq.mp hi with hi | rfl
    · exact h.hidden hnone i hi
    · exact hleft
  · obtain ⟨l, hl, hrest⟩ := h.leftmost x hx
    exact ⟨l, Nat.lt_succ_of_lt hl, hrest⟩

/-- The leftmost column that is not off-screen to the left is known once there is one. -/
theorem Scanned.leftmost_or (h : s.Scanned k v)
    (hleft : s.targetViewPos + s.workingArea.loc.x ≤ s.columnX k - s.options.gaps) {x : ℚ}
    (hx : v.leftmostColX.or (some (s.columnX k)) = some x) : ∃ l < k + 1, s.columnX l = x ∧
      s.targetViewPos + s.workingArea.loc.x ≤ s.columnX l - s.options.gaps ∧
      ∀ i < l, s.columnX i - s.options.gaps < s.targetViewPos + s.workingArea.loc.x := by
  cases hnone : v.leftmostColX with
  | none =>
    rw [hnone] at hx
    exact ⟨k, k.lt_succ_self, Option.some.inj hx, hleft, h.hidden hnone⟩
  | some y =>
    rw [hnone] at hx
    obtain rfl := Option.some.inj hx
    obtain ⟨l, hl, hrest⟩ := h.leftmost y hnone
    exact ⟨l, Nat.lt_succ_of_lt hl, hrest⟩

/-- The column is in view. -/
theorem Scanned.take (h : s.Scanned k v) (hk : s.FullyVisible k) {w : VisibleColumns}
    (htaken : w.widthTaken = v.widthTaken + (s.dataWidth k + s.options.gaps))
    (hleftmost : w.leftmostColX = v.leftmostColX.or (some (s.columnX k)))
    (hactive : w.activeColX = if k = s.activeColumnIdx then some (s.columnX k) else v.activeColX)
    (hcounted : w.countedNonActive = if k = s.activeColumnIdx then v.countedNonActive else true) :
    s.Scanned (k + 1) w := by
  have hnext := visibleBelow_succ_of_mem hk
  have hnot : k ∉ s.visibleBelow k := fun hmem => (mem_visibleBelow.mp hmem).1.false
  refine ⟨?_, fun hnone => ?_, fun x hx => h.leftmost_or hk.1 (hleftmost ▸ hx), ?_, ?_⟩
  · rw [hnext, sum_insert hnot, htaken, h.taken, add_comm]
  · rw [hleftmost] at hnone
    cases hv : v.leftmostColX <;> simp [hv] at hnone
  · rw [hactive, hnext, h.active]
    by_cases hsame : k = s.activeColumnIdx
    · simp [hsame]
    · simp [hsame, Ne.symm hsame]
  · rw [hcounted, hnext]
    by_cases hsame : k = s.activeColumnIdx
    · rw [if_pos hsame, h.counted]
      simp [hsame]
    · rw [if_neg hsame]
      simp [hsame]

/-- A column goes off-screen to the right, and so do those behind it. -/
theorem Scanned.stop (h : s.Scanned k v) (hk : k < s.columns.length)
    (hleft : s.targetViewPos + s.workingArea.loc.x ≤ s.columnX k - s.options.gaps)
    (hrest : ∀ i, k ≤ i → i < s.columns.length → ¬ s.FullyVisible i) :
    s.Scanned s.columns.length { v with leftmostColX := v.leftmostColX.or (some (s.columnX k)) } := by
  have hsame : s.visibleBelow s.columns.length = s.visibleBelow k := by
    ext i
    rw [mem_visibleBelow, mem_visibleBelow]
    refine ⟨fun ⟨hi, hv⟩ => ⟨?_, hv⟩, fun ⟨hi, hv⟩ => ⟨hi.trans hk, hv⟩⟩
    by_contra hge
    exact hrest i (Nat.not_lt.mp hge) hi hv
  refine ⟨hsame ▸ h.taken, fun hnone => ?_, fun x hx => ?_, hsame ▸ h.active, hsame ▸ h.counted⟩
  · dsimp only at hnone
    cases hv : v.leftmostColX <;> simp [hv] at hnone
  · obtain ⟨l, hl, hat⟩ := h.leftmost_or hleft hx
    exact ⟨l, by omega, hat⟩

theorem dataWidth_of_getElem? {d : ColumnData} (hd : s.data[i]? = some d) : s.dataWidth i = d.width := by
  rw [dataWidth, hd]
  rfl

/-- Columns behind one that goes off-screen to the right do so too. -/
theorem not_fullyVisible_behind (h : s.Spread) (hs : s.Inv)
    (hright : s.targetViewPos + s.workingArea.loc.x + s.workingArea.size.w <
      s.columnX k + s.dataWidth k + s.options.gaps) (hki : k ≤ i) (hi : i < s.columns.length) :
    ¬ s.FullyVisible i := by
  intro hv
  have hmono := h.columnX_mono hs (Nat.succ_le_succ hki) hi
  have hlen := length_data hs
  have hk : s.columnX (k + 1) = _ := columnX_succ (by omega)
  have hi' : s.columnX (i + 1) = _ := columnX_succ (by omega)
  have := hv.2
  linarith

theorem scanned_go (h : s.Spread) (hs : s.Inv) {ds : List ColumnData} (hds : s.data.drop k = ds)
    (hv : s.Scanned k v) (hk : k ≤ s.columns.length) : s.Scanned s.columns.length
      (visibleColumns.go s (s.targetViewPos + s.workingArea.loc.x) k ds v (s.columnX k)) := by
  have hlen := length_data hs
  induction ds generalizing k v with
  | nil =>
    obtain rfl : k = s.columns.length := by
      have := List.drop_eq_nil_iff.mp hds
      omega
    exact hv
  | cons d ds ih =>
    have hlt : k < s.columns.length := by
      have := congrArg List.length hds
      rw [List.length_drop, List.length_cons] at this
      omega
    have hd : s.data[k]? = some d := by
      have hhead := congrArg List.head? hds
      rwa [List.head?_drop] at hhead
    have hrest : s.data.drop (k + 1) = ds := by
      rw [← List.drop_drop, hds]
      rfl
    have hnext : s.columnX k + (d.width + s.options.gaps) = s.columnX (k + 1) := by
      rw [columnX_succ (hlen ▸ hlt), dataWidth_of_getElem? hd]
    unfold visibleColumns.go
    dsimp only
    rw [hnext]
    split
    · exact ih hrest (hv.skip (by linarith)) hlt
    · rename_i hleft
      have hleft : s.targetViewPos + s.workingArea.loc.x ≤ s.columnX k - s.options.gaps := by linarith
      split
      · rename_i hright
        rw [← dataWidth_of_getElem? hd] at hright
        exact hv.stop hlt hleft fun i hki hi => not_fullyVisible_behind h hs hright hki hi
      · rename_i hright
        refine ih hrest (hv.take ⟨hleft, ?_⟩ ?_ ?_ ?_ ?_) hlt
        · rw [dataWidth_of_getElem? hd]
          exact not_lt.mp hright
        · rw [dataWidth_of_getElem? hd]
          split <;> rfl
        · split <;> rfl
        · split <;> rfl
        · split <;> rfl

theorem scanned_visibleColumns (h : s.Spread) (hs : s.Inv) :
    s.Scanned s.columns.length s.visibleColumns := by
  have hscan := scanned_go h hs (k := 0) rfl s.scanned_zero (Nat.zero_le _)
  rwa [columnX_zero] at hscan

end ScrollingSpace

/-! The width that is requested. -/

namespace Column

variable {c : Column} {px : ℚ}

/-- No constraint of a window binds at the given tile width. -/
structure Admits (c : Column) (px : ℚ) : Prop where
  min : ∀ t ∈ c.tiles, max t.minSizeNonfullscreen.w 1 ≤ px
  max : ∀ t ∈ c.tiles, t.maxSizeNonfullscreen.w ≠ 0 → px ≤ t.maxSizeNonfullscreen.w
  limit : px ≤ 2147483647

/-- The width of the column once its windows have the requested width. -/
def requestedColumnWidth (c : Column) : ℚ := c.requestedWidth + c.extraSize.w

/-- The column with a fixed width, requested from its windows. -/
def expanded (c : Column) (px : ℚ) : Column :=
  Column.updateTileSizes
    { c.cancelResize with
      width := .fixed px
      presetWidthIdx := none
      isFullWidth := false }

theorem requestedWidth_of_admits (hne : c.tiles ≠ []) (h : c.Admits px) (hwidth : c.width = .fixed px)
    (hpart : c.isFullWidth = false) : c.requestedWidth = px := by
  have hmin : ((c.minSizes.map (·.w)).max?).getD 1 ≤ px := by
    cases hmax : (c.minSizes.map (·.w)).max? with
    | none =>
      have hnil : c.minSizes.map (·.w) = [] := List.max?_eq_none_iff.mp hmax
      simp [minSizes, hne] at hnil
    | some x =>
      obtain ⟨size, hsize, rfl⟩ := List.mem_map.mp (List.max?_mem hmax)
      obtain ⟨t, ht, rfl⟩ := List.mem_map.mp hsize
      exact h.min t ht
  have hmax : px ≤ (((c.maxSizes.map (·.w)).filter (· ≠ 0)).min?).getD 2147483647 := by
    cases hmin : ((c.maxSizes.map (·.w)).filter (· ≠ 0)).min? with
    | none => exact h.limit
    | some x =>
      obtain ⟨hx, hx0⟩ := List.mem_filter.mp (List.min?_mem hmin)
      obtain ⟨size, hsize, rfl⟩ := List.mem_map.mp hx
      obtain ⟨t, ht, rfl⟩ := List.mem_map.mp hsize
      exact h.max t ht (by simpa using hx0)
  unfold requestedWidth
  rw [hpart, hwidth]
  dsimp only [Bool.false_eq_true, if_false, resolveColumnWidth]
  rw [if_neg Bool.false_ne_true]
  dsimp only [resolveColumnWidth]
  rw [min_eq_left (hmax.trans (le_max_left ..)), max_eq_left hmin]

end Column

end Macniri.Layout
