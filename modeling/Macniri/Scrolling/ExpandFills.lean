import Macniri.Scrolling.Expand
import Macniri.Scrolling.Step
import Mathlib.Algebra.Order.BigOperators.Group.Finset

/-! An expanded column and the other columns in view fill the working area. -/
namespace Macniri.Layout

open Option

open Finset

namespace Column

variable {c : Column} {px : ℚ}

theorem extraSize_w_nonneg (c : Column) : 0 ≤ c.extraSize.w := by
  unfold extraSize
  split
  · exact extraSize_nonneg ..
  · exact le_rfl

/-! The column after the request. -/

theorem seen_expanded (c : Column) (px : ℚ) : c.Seen (c.expanded px) := by
  have hfixed : c.cancelResize.Seen { c.cancelResize with
      width := .fixed px
      presetWidthIdx := none
      isFullWidth := false } := seen_of_tiles rfl rfl rfl rfl rfl rfl
  exact c.like_cancelResize.toSeen.trans (hfixed.trans (seen_updateTileSizes _))

theorem map_tiles_expanded {β : Type} (f : Tile → β)
    (hf : ∀ (t : Tile) size mode, f { t with window := t.window.requestSize size mode } = f t)
    (hcancel : ∀ t : Tile, f t.cancelInteractiveResize = f t) (c : Column) (px : ℚ) :
    (c.expanded px).tiles.map f = c.tiles.map f := by
  unfold expanded
  rw [map_tiles_updateTileSizes f hf]
  dsimp only [cancelResize]
  rw [List.map_map]
  exact List.map_congr_left fun t _ => hcancel t

theorem mem_tiles_of_map {β : Type} {f : Tile → β} {l m : List Tile} (h : l.map f = m.map f) {t : Tile}
    (ht : t ∈ l) : ∃ u ∈ m, f u = f t :=
  List.mem_map.mp (h ▸ List.mem_map_of_mem (f := f) ht)

theorem Admits.expanded (h : c.Admits px) (x : ℚ) : (c.expanded x).Admits px where
  min t ht := by
    obtain ⟨u, hu, hsize⟩ := mem_tiles_of_map
      (map_tiles_expanded Tile.minSizeNonfullscreen (fun _ _ _ => rfl) (fun _ => rfl) c x) ht
    exact hsize ▸ h.min u hu
  max t ht := by
    obtain ⟨u, hu, hsize⟩ := mem_tiles_of_map
      (map_tiles_expanded Tile.maxSizeNonfullscreen (fun _ _ _ => rfl) (fun _ => rfl) c x) ht
    exact hsize ▸ h.max u hu
  limit := h.limit

theorem width_expanded (c : Column) (px : ℚ) : (c.expanded px).width = .fixed px := by
  unfold expanded updateTileSizes
  split <;> rfl

theorem isFullWidth_expanded (c : Column) (px : ℚ) : (c.expanded px).isFullWidth = false := by
  unfold expanded updateTileSizes
  split <;> rfl

theorem extraSize_expanded (c : Column) (px : ℚ) : (c.expanded px).extraSize = c.extraSize := by
  have hlen : (c.expanded px).tiles.length = c.tiles.length := by
    simp [expanded, cancelResize]
  unfold extraSize isTabbed
  rw [hlen]
  simp [expanded, cancelResize]

theorem requestedColumnWidth_expanded (hne : c.tiles ≠ []) (h : c.Admits px) :
    (c.expanded px).requestedColumnWidth = px + c.extraSize.w := by
  have hne' : (c.expanded px).tiles ≠ [] := fun hnil => hne (by simpa [hnil] using
    (map_tiles_expanded (fun _ => ()) (fun _ _ _ => rfl) (fun _ => rfl) c px).symm)
  rw [requestedColumnWidth, extraSize_expanded,
    requestedWidth_of_admits hne' (h.expanded px) (c.width_expanded px) (c.isFullWidth_expanded px)]

end Column

/-- A view that shows the column with the gaps around it stays. -/
theorem computeNewViewOffset_of_inside {curX viewWidth colX colWidth gaps : ℚ} (hgaps : 0 ≤ gaps)
    (hleft : curX ≤ colX - gaps) (hright : colX + colWidth + gaps ≤ curX + viewWidth) :
    colX + computeNewViewOffset curX viewWidth colX colWidth gaps = curX := by
  obtain hlt | hge := lt_or_ge colWidth viewWidth
  · have hpadding : viewPadding viewWidth colWidth gaps ≤ gaps := by
      unfold viewPadding clamp
      split
      · exact hgaps
      · split
        · exact le_rfl
        · rename_i h
          exact not_lt.mp h
    exact computeNewViewOffset_of_shows hlt ⟨by linarith, by linarith⟩
  · rw [computeNewViewOffset_wide hge]
    linarith

namespace ScrollingSpace

variable {s t r : ScrollingSpace} {c d : Column} {i j k l n : ℕ} {N : ℚ}

/-! The columns in view are side by side. -/

theorem mem_fullyVisible : i ∈ s.fullyVisible ↔ i < s.columns.length ∧ s.FullyVisible i :=
  mem_visibleBelow

/-- The columns in view are those from `l` up to `n`. -/
structure Block (s : ScrollingSpace) (l n : ℕ) : Prop where
  eq : s.fullyVisible = Ico l n
  lt : l < n
  le : n ≤ s.columns.length

theorem exists_block (h : s.Spread) (hs : s.Inv) (ha : i ∈ s.fullyVisible) : ∃ l n, s.Block l n := by
  have hne : s.fullyVisible.Nonempty := ⟨i, ha⟩
  obtain ⟨hlo, hleft, -⟩ := mem_fullyVisible.mp (s.fullyVisible.min'_mem hne)
  obtain ⟨hhi, -, hright⟩ := mem_fullyVisible.mp (s.fullyVisible.max'_mem hne)
  have hlen := length_data hs
  refine ⟨s.fullyVisible.min' hne, s.fullyVisible.max' hne + 1, ?_, ?_, hhi⟩
  · ext j
    rw [mem_Ico]
    refine ⟨fun hj => ⟨min'_le _ j hj, Nat.lt_succ_of_le (le_max' _ j hj)⟩, fun ⟨hlj, hjm⟩ => ?_⟩
    have hj : j < s.columns.length := hjm.trans_le hhi
    have hbefore := h.columnX_mono hs hlj hj.le
    have hbehind := h.columnX_mono hs hjm hhi
    have hnext : s.columnX (j + 1) = _ := columnX_succ (by omega)
    have hlast : s.columnX (s.fullyVisible.max' hne + 1) = _ := columnX_succ (by omega)
    exact mem_fullyVisible.mpr ⟨hj, by linarith, by linarith⟩
  · exact Nat.lt_succ_of_le (min'_le_max' _ hne)

theorem Block.fullyVisible (h : s.Block l n) (hl : l ≤ i) (hn : i < n) : s.FullyVisible i :=
  (mem_fullyVisible.mp (h.eq ▸ mem_Ico.mpr ⟨hl, hn⟩)).2

theorem sum_widths (hn : n ≤ s.data.length) (hln : l ≤ n) :
    ∑ i ∈ Ico l n, (s.dataWidth i + s.options.gaps) = s.columnX n - s.columnX l := by
  induction n, hln using Nat.le_induction with
  | base => simp
  | succ n hln ih =>
    rw [sum_Ico_succ_top hln, ih (Nat.le_of_succ_le hn), columnX_succ hn]
    ring

/-- The width that the columns in view leave free. -/
def freeWidth (s : ScrollingSpace) : ℚ :=
  s.workingArea.size.w - s.options.gaps - ∑ i ∈ s.fullyVisible, (s.dataWidth i + s.options.gaps)

theorem Block.freeWidth_eq (h : s.Block l n) (hs : s.Inv) :
    s.freeWidth = s.workingArea.size.w - s.options.gaps - (s.columnX n - s.columnX l) := by
  rw [freeWidth, h.eq, sum_widths (length_data hs ▸ h.le) h.lt.le]

/-- The view is at least as far left as the leftmost column in view, and what is free is right of the
columns in view or left of them. -/
theorem Block.bounds (h : s.Block l n) (hs : s.Inv) :
    s.targetViewPos + s.workingArea.loc.x ≤ s.columnX l - s.options.gaps ∧
      s.columnX n ≤ s.targetViewPos + s.workingArea.loc.x + s.workingArea.size.w := by
  obtain ⟨k, rfl⟩ : ∃ k, n = k + 1 := ⟨n - 1, by have := h.lt; omega⟩
  have hlast := (h.fullyVisible (Nat.le_of_lt_succ h.lt) k.lt_succ_self).2
  have hnext : s.columnX (k + 1) = _ := columnX_succ (by rw [length_data hs]; exact h.le)
  exact ⟨(h.fullyVisible le_rfl h.lt).1, by linarith⟩

theorem Block.freeWidth_nonneg (h : s.Block l n) (hs : s.Inv) : 0 ≤ s.freeWidth := by
  have := h.bounds hs
  rw [h.freeWidth_eq hs]
  linarith

theorem Block.leftmost (h : s.Block l n) (hspread : s.Spread) (hs : s.Inv) :
    s.visibleColumns.leftmostColX = some (s.columnX l) := by
  have hscan := scanned_visibleColumns hspread hs
  have hl := h.fullyVisible le_rfl h.lt
  have hlen : l < s.columns.length := h.lt.trans_le h.le
  have hdata := length_data hs
  cases hx : s.visibleColumns.leftmostColX with
  | none => exact absurd (hscan.hidden hx l hlen) (not_lt.mpr hl.1)
  | some x =>
    obtain ⟨k, -, rfl, hk, hbefore⟩ := hscan.leftmost x hx
    have hkl : k ≤ l := by
      by_contra hlt
      exact not_lt.mpr hl.1 (hbefore l (Nat.not_le.mp hlt))
    -- It is in view too, so it is the first one that is.
    have hbehind := hspread.columnX_mono hs (Nat.succ_le_succ hkl) hlen
    have hnext : s.columnX (k + 1) = _ := columnX_succ (by omega)
    have hnext' : s.columnX (l + 1) = _ := columnX_succ (by omega)
    have hright := hl.2
    have hmem : k ∈ s.fullyVisible := mem_fullyVisible.mpr ⟨by omega, hk, by linarith⟩
    rw [h.eq, mem_Ico] at hmem
    rw [hkl.antisymm hmem.1]

/-! The space once the active column has another width. -/

/-- The space with another width of the active column. -/
def resized (s : ScrollingSpace) (N : ℚ) : ScrollingSpace :=
  { s with data := s.data.set s.activeColumnIdx ⟨N⟩ }

theorem dataWidth_resized (ha : s.activeColumnIdx < s.data.length) :
    (s.resized N).dataWidth i = if i = s.activeColumnIdx then N else s.dataWidth i := by
  unfold dataWidth resized
  dsimp only
  by_cases h : i = s.activeColumnIdx
  · rw [h, if_pos rfl, List.getElem?_set_self ha]
    rfl
  · rw [if_neg h, List.getElem?_set_ne (Ne.symm h)]

theorem columnX_resized (ha : s.activeColumnIdx < s.data.length) (hk : k ≤ s.data.length) :
    (s.resized N).columnX k =
      s.columnX k + if s.activeColumnIdx < k then N - s.dataWidth s.activeColumnIdx else 0 := by
  induction k with
  | zero => rw [columnX_zero, columnX_zero, if_neg (Nat.not_lt_zero _), add_zero]
  | succ k ih =>
    have hgaps : (s.resized N).options.gaps = s.options.gaps := rfl
    have hlen : k < (s.resized N).data.length := by
      rw [resized, List.length_set]
      exact hk
    rw [columnX_succ hlen, columnX_succ hk, ih (Nat.le_of_succ_le hk), dataWidth_resized ha, hgaps]
    obtain hlt | rfl | hgt := Nat.lt_trichotomy k s.activeColumnIdx
    · rw [if_neg (by omega), if_neg (by omega), if_neg (by omega)]
      ring
    · rw [if_neg (by omega), if_pos rfl, if_pos (by omega)]
      ring
    · rw [if_pos hgt, if_neg (by omega), if_pos (by omega)]
      ring

theorem targetViewPos_resized (ha : s.activeColumnIdx < s.data.length) :
    (s.resized N).targetViewPos = s.targetViewPos := by
  have hx := columnX_resized (N := N) ha ha.le
  rw [if_neg (Nat.lt_irrefl _), add_zero] at hx
  exact congrArg (· + s.viewOffset.target) hx

/-- A view that shows the active column stays when it is fitted again. -/
theorem computeNewViewOffsetForColumn_of_fullyVisible (hgaps : 0 ≤ s.options.gaps)
    (hcenter : s.isCenteringFocusedColumn = false) (hc : s.activeColumn = some c)
    (hnormal : c.isNormal) (hwidth : c.actualWidth = s.dataWidth s.activeColumnIdx)
    (hv : s.FullyVisible s.activeColumnIdx) :
    s.computeNewViewOffsetForColumn none s.activeColumnIdx none = s.viewOffset.target := by
  have hmode : c.sizingMode = .normal := eq_of_beq hnormal
  have hnot : s.options.centerFocusedColumn ≠ .always := fun halways => by
    rw [isCenteringFocusedColumn, halways] at hcenter
    exact absurd hcenter (by simp)
  have hfit : s.computeNewViewOffsetForColumn none s.activeColumnIdx none =
      s.computeNewViewOffsetForColumnFit none s.activeColumnIdx := by
    unfold computeNewViewOffsetForColumn
    rw [hcenter, if_neg Bool.false_ne_true]
    cases hwhen : s.options.centerFocusedColumn with
    | always => exact absurd hwhen hnot
    | never => rfl
    | onOverflow => rfl
  have hkeeps := computeNewViewOffset_of_inside hgaps hv.1 hv.2
  have htarget : s.targetViewPos = s.columnX s.activeColumnIdx + s.viewOffset.target := rfl
  rw [hfit, computeNewViewOffsetForColumnFit, show s.columns[s.activeColumnIdx]? = some c from hc]
  dsimp only
  rw [computeNewViewOffsetFit, hmode, hwidth]
  dsimp only [areaFor]
  rw [if_neg nofun, if_neg nofun, if_neg nofun, getD_none]
  linarith

/-! The operation. -/

/-- A space at rest whose active column can be expanded among other columns in view. -/
structure Expandable (s : ScrollingSpace) (c : Column) : Prop where
  inv : s.Inv
  spread : s.Spread
  active : s.activeColumn = some c
  notCentering : s.isCenteringFocusedColumn = false
  pending : c.pendingSizingMode = .normal
  normal : c.isNormal
  notFullWidth : c.isFullWidth = false
  visible : s.activeColumnIdx ∈ s.fullyVisible
  other : ∃ i ∈ s.fullyVisible, i ≠ s.activeColumnIdx
  admits : c.Admits (s.dataWidth s.activeColumnIdx + s.freeWidth - c.extraSize.w)

theorem availableWidth_eq (h : s.Spread) (hs : s.Inv) (x : ℚ) :
    s.workingArea.size.w - s.options.gaps - s.visibleColumns.widthTaken - x = s.freeWidth - x := by
  rw [(scanned_visibleColumns h hs).taken]
  rfl

/-- Nowhere to expand. -/
theorem expandColumnToAvailableWidth_of_le (h : s.Spread) (hs : s.Inv) (hc : s.activeColumn = some c)
    (hcenter : s.isCenteringFocusedColumn = false) (hfree : s.freeWidth ≤ c.extraSize.w) :
    s.expandColumnToAvailableWidth = s := by
  unfold expandColumnToAvailableWidth
  rw [hc]
  dsimp only
  split
  · rfl
  · rw [hcenter, if_neg Bool.false_ne_true]
    cases s.visibleColumns.activeColX with
    | none => rfl
    | some x =>
      dsimp only
      rw [availableWidth_eq h hs, if_pos (sub_nonpos.mpr hfree)]

/-- The active column gets a fixed width and the view goes to the given offset. -/
def grown (s : ScrollingSpace) (px x : ℚ) : ScrollingSpace :=
  let s := s.modifyActiveColumn fun col =>
    Column.updateTileSizes
      { col with
        width := .fixed px
        presetWidthIdx := none
        isFullWidth := false }
  let s := s.animateViewOffset s.activeColumnIdx x
  s.animateViewOffsetToColumn none s.activeColumnIdx none

theorem workingArea_cancelResizeForColumn (s : ScrollingSpace) (i : ℕ) :
    (s.cancelResizeForColumn i).workingArea = s.workingArea := by
  unfold cancelResizeForColumn
  split <;> rfl

theorem options_cancelResizeForColumn (s : ScrollingSpace) (i : ℕ) :
    (s.cancelResizeForColumn i).options = s.options := by
  unfold cancelResizeForColumn
  split <;> rfl

theorem dataWidth_cancelResizeForColumn (s : ScrollingSpace) (i j : ℕ) :
    (s.cancelResizeForColumn i).dataWidth j = s.dataWidth j := by
  rw [dataWidth, data_cancelResizeForColumn]
  rfl

theorem expandColumnToAvailableWidth_of_lt (h : s.Expandable c) (hb : s.Block l n)
    (hfree : c.extraSize.w < s.freeWidth) :
    s.expandColumnToAvailableWidth = (s.cancelResizeForColumn s.activeColumnIdx).grown
      (s.dataWidth s.activeColumnIdx + (s.freeWidth - c.extraSize.w))
      (s.columnX l - s.options.gaps - s.workingArea.loc.x - s.columnX s.activeColumnIdx) := by
  have hscan := scanned_visibleColumns h.spread h.inv
  have hactive : s.visibleColumns.activeColX = some (s.columnX s.activeColumnIdx) := by
    rw [hscan.active]
    exact if_pos h.visible
  unfold expandColumnToAvailableWidth
  rw [h.active]
  dsimp only
  rw [if_neg (by simp [h.pending, h.notFullWidth]), h.notCentering, if_neg Bool.false_ne_true, hactive]
  dsimp only
  rw [availableWidth_eq h.spread h.inv, if_neg (not_le.mpr (sub_pos.mpr hfree)),
    hscan.counted.mpr h.other, hb.leftmost h.spread h.inv]
  rw [if_neg (by decide), activeColumnIdx_cancelResizeForColumn, dataWidth_cancelResizeForColumn,
    ← workingArea_cancelResizeForColumn s s.activeColumnIdx]
  rfl

/-- The space has the columns' widths and positions of `s`; the active column is now `c` and the view
goes to the offset `x`. -/
structure Reframed (s t : ScrollingSpace) (c : Column) (x : ℚ) : Prop where
  data : t.data = s.data
  options : t.options = s.options
  workingArea : t.workingArea = s.workingArea
  idx : t.activeColumnIdx = s.activeColumnIdx
  length : t.columns.length = s.columns.length
  active : t.activeColumn = some c
  target : t.viewOffset.target = x

theorem Reframed.refl (hc : s.activeColumn = some c) : s.Reframed s c s.viewOffset.target :=
  ⟨rfl, rfl, rfl, rfl, rfl, hc, rfl⟩

section reframed

variable {x : ℚ} (h : s.Reframed t c x)
include h

theorem Reframed.columnX (i : ℕ) : t.columnX i = s.columnX i := by
  rw [ScrollingSpace.columnX, h.data, h.options]
  rfl

theorem Reframed.dataWidth (i : ℕ) : t.dataWidth i = s.dataWidth i := by
  rw [ScrollingSpace.dataWidth, h.data]
  rfl

theorem Reframed.targetViewPos : t.targetViewPos = s.columnX s.activeColumnIdx + x := by
  rw [ScrollingSpace.targetViewPos, h.columnX, h.idx, h.target]

theorem Reframed.isCenteringFocusedColumn :
    t.isCenteringFocusedColumn = s.isCenteringFocusedColumn := by
  rw [ScrollingSpace.isCenteringFocusedColumn, h.options, h.length]
  rfl

theorem Reframed.fullyVisible_iff (i : ℕ) : t.FullyVisible i ↔
    s.columnX s.activeColumnIdx + x + s.workingArea.loc.x ≤ s.columnX i - s.options.gaps ∧
      s.columnX i + s.dataWidth i + s.options.gaps ≤
        s.columnX s.activeColumnIdx + x + s.workingArea.loc.x + s.workingArea.size.w := by
  rw [FullyVisible, h.targetViewPos, h.columnX, h.dataWidth, h.workingArea, h.options]

end reframed

theorem dataWidth_active (hs : s.Inv) (hc : s.activeColumn = some c) :
    s.dataWidth s.activeColumnIdx = c.actualWidth :=
  dataWidth_of_getElem? (hs.data_getElem? hc)

/-- The re-fit of the view after the request finds the column in view. -/
theorem grown_reframed (h : s.Expandable c) (hb : s.Block l n) (px : ℚ) (hfree : 0 ≤ s.freeWidth) :
    s.Reframed ((s.cancelResizeForColumn s.activeColumnIdx).grown px
      (s.columnX l - s.options.gaps - s.workingArea.loc.x - s.columnX s.activeColumnIdx))
      (c.expanded px) (s.columnX l - s.options.gaps - s.workingArea.loc.x - s.columnX s.activeColumnIdx) := by
  let u := (s.cancelResizeForColumn s.activeColumnIdx).modifyActiveColumn fun col =>
    Column.updateTileSizes
      { col with
        width := .fixed px
        presetWidthIdx := none
        isFullWidth := false }
  let x := s.columnX l - s.options.gaps - s.workingArea.loc.x - s.columnX s.activeColumnIdx
  have hactive : u.activeColumn = some (c.expanded px) := by
    have hcols : u.columns = _ := congrArg (List.modify · _ _)
      (columns_cancelResizeForColumn (i := s.activeColumnIdx) h.active)
    have hidx : u.activeColumnIdx = s.activeColumnIdx := activeColumnIdx_cancelResizeForColumn ..
    have hlt : s.activeColumnIdx < s.columns.length := (mem_fullyVisible.mp h.visible).1
    rw [activeColumn, hcols, hidx, activeColumnIdx_cancelResizeForColumn]
    simp [hlt]
    rfl
  have hu : s.Reframed (u.animateViewOffset u.activeColumnIdx x) (c.expanded px) x := by
    refine ⟨data_cancelResizeForColumn .., options_cancelResizeForColumn ..,
      workingArea_cancelResizeForColumn .., activeColumnIdx_cancelResizeForColumn .., ?_, hactive,
      target_animateViewOffset ..⟩
    have hlen : u.columns.length = (s.cancelResizeForColumn s.activeColumnIdx).columns.length :=
      List.length_modify ..
    rw [columns_cancelResizeForColumn h.active, List.length_set] at hlen
    exact hlen
  have hrefit : (u.animateViewOffset u.activeColumnIdx x).computeNewViewOffsetForColumn none
      (u.animateViewOffset u.activeColumnIdx x).activeColumnIdx none =
      (u.animateViewOffset u.activeColumnIdx x).viewOffset.target := by
    have hseen := c.seen_expanded px
    refine computeNewViewOffsetForColumn_of_fullyVisible (hu.options ▸ h.spread.gaps)
      (hu.isCenteringFocusedColumn.trans h.notCentering) hu.active (hseen.normal.trans h.normal) ?_ ?_
    · rw [hu.dataWidth, hu.idx, hseen.width, dataWidth_active h.inv h.active]
    · have hin := h.visible
      rw [hb.eq, mem_Ico] at hin
      have hlen := hb.le
      have hlt : s.activeColumnIdx < s.data.length := length_data h.inv ▸ hin.2.trans_le hlen
      have hbefore := h.spread.columnX_mono h.inv hin.1 (hin.2.le.trans hlen)
      have hbehind := h.spread.columnX_mono h.inv hin.2 hlen
      have hnext : s.columnX (s.activeColumnIdx + 1) = _ := columnX_succ hlt
      have hroom := hb.freeWidth_eq h.inv
      rw [hu.idx, hu.fullyVisible_iff]
      exact ⟨by linarith, by linarith⟩
  exact ⟨hu.data, hu.options, hu.workingArea, hu.idx, hu.length, hu.active,
    (target_animateViewOffset ..).trans (hrefit.trans hu.target)⟩

/-! Filling the working area. -/

/-- The space has the widths, the positions and the view of `r`, and the windows of its active column
have the size that gives this width. -/
structure Settled (r t : ScrollingSpace) : Prop where
  inv : t.Inv
  spread : t.Spread
  data : t.data = r.data
  options : t.options = r.options
  workingArea : t.workingArea = r.workingArea
  idx : t.activeColumnIdx = r.activeColumnIdx
  target : t.viewOffset.target = r.viewOffset.target
  active : ∃ d, t.activeColumn = some d ∧ d.isNormal

/-- In `t` the active column has requested a width that fills the working area of `s` together with the
other columns in view and the gaps. At this width all of them are in view, and once the active column
has it neither another fit of the view nor another expansion changes anything. -/
def Fills (s t : ScrollingSpace) : Prop :=
  ∃ c, t.activeColumn = some c ∧
    c.requestedColumnWidth + ∑ i ∈ s.fullyVisible.erase s.activeColumnIdx, s.dataWidth i +
      (s.fullyVisible.card + 1) * s.options.gaps = s.workingArea.size.w ∧
    (∀ i ∈ s.fullyVisible, (t.resized c.requestedColumnWidth).FullyVisible i) ∧
    ∀ u, (t.resized c.requestedColumnWidth).Settled u →
      u.expandColumnToAvailableWidth = u ∧
      u.computeNewViewOffsetForColumn none u.activeColumnIdx none = u.viewOffset.target

theorem sum_others_iff (ha : s.activeColumnIdx ∈ s.fullyVisible) :
    N + ∑ i ∈ s.fullyVisible.erase s.activeColumnIdx, s.dataWidth i +
      (s.fullyVisible.card + 1) * s.options.gaps = s.workingArea.size.w ↔
    N = s.dataWidth s.activeColumnIdx + s.freeWidth := by
  have hsum := add_sum_erase s.fullyVisible s.dataWidth ha
  have hgaps : ∑ i ∈ s.fullyVisible, (s.dataWidth i + s.options.gaps) =
      ∑ i ∈ s.fullyVisible, s.dataWidth i + s.fullyVisible.card * s.options.gaps := by
    rw [sum_add_distrib, sum_const, nsmul_eq_mul]
  rw [freeWidth, hgaps]
  constructor <;> intro h <;> linarith

theorem Settled.fullyVisible_iff (h : r.Settled t) : t.FullyVisible i ↔ r.FullyVisible i := by
  have hx (j : ℕ) : t.columnX j = r.columnX j := by
    rw [columnX, h.data, h.options]
    rfl
  have hwidth : t.dataWidth i = r.dataWidth i := by
    rw [dataWidth, h.data]
    rfl
  have hview : t.targetViewPos = r.targetViewPos := by
    rw [targetViewPos, hx, h.idx, h.target]
    rfl
  rw [FullyVisible, hview, hx, hwidth, h.workingArea, h.options]
  rfl

/-- The columns up to `n` are where they were, but those behind the active one make room for it. -/
theorem Reframed.columnX_resized {x : ℚ} (h : s.Reframed t c x) (hs : s.Inv)
    (ha : s.activeColumnIdx < s.columns.length) (hk : k ≤ s.columns.length) :
    (t.resized N).columnX k =
      s.columnX k + if s.activeColumnIdx < k then N - s.dataWidth s.activeColumnIdx else 0 := by
  have hlen := length_data hs
  rw [ScrollingSpace.columnX_resized (by rw [h.idx, h.data]; omega) (by rw [h.data]; omega), h.columnX,
    h.idx, h.dataWidth]

theorem Reframed.targetViewPos_resized {x : ℚ} (h : s.Reframed t c x) (hs : s.Inv)
    (ha : s.activeColumnIdx < s.columns.length) :
    (t.resized N).targetViewPos = s.columnX s.activeColumnIdx + x := by
  rw [ScrollingSpace.targetViewPos_resized (by rw [h.idx, h.data, length_data hs]; exact ha),
    h.targetViewPos]

/-- Where the columns in view end at the new width of the active one. -/
theorem Reframed.end_resized {x : ℚ} (hr : s.Reframed t d x) (hs : s.Inv) (hb : s.Block l n)
    (hN : N = s.dataWidth s.activeColumnIdx + s.freeWidth)
    (ha : s.activeColumnIdx ∈ s.fullyVisible)
    (hv : ∀ i ∈ s.fullyVisible, (t.resized N).FullyVisible i) :
    s.columnX n + s.freeWidth ≤
      s.columnX s.activeColumnIdx + x + s.workingArea.loc.x + s.workingArea.size.w := by
  rw [hb.eq, mem_Ico] at ha
  have hle := hb.le
  have hlen := length_data hs
  have hcol := hr.columnX_resized (N := N) hs (ha.2.trans_le hle) hle
  obtain ⟨k, rfl⟩ : ∃ k, n = k + 1 := ⟨n - 1, by omega⟩
  have hdata : k < (t.resized N).data.length := by
    rw [resized, List.length_set, hr.data]
    omega
  have hnext : (t.resized N).columnX (k + 1) = _ := columnX_succ hdata
  have hlast := (hv k (hb.eq ▸ mem_Ico.mpr ⟨by omega, k.lt_succ_self⟩)).2
  have hwork : (t.resized N).workingArea = s.workingArea := hr.workingArea
  rw [hr.targetViewPos_resized hs (ha.2.trans_le hle), hwork] at hlast
  rw [if_pos ha.2] at hcol
  linarith

section filled

variable {x : ℚ} (h : s.Expandable c) (hb : s.Block l n) (hr : s.Reframed t d x)
include h hb hr

/-- Every column of the block is in view at the new width of the active one. -/
theorem fullyVisible_resized (hN : N = s.dataWidth s.activeColumnIdx + s.freeWidth)
    (hx : s.columnX s.activeColumnIdx + x + s.workingArea.loc.x = s.columnX l - s.options.gaps)
    (hi : i ∈ s.fullyVisible) : (t.resized N).FullyVisible i := by
  have hin := h.visible
  rw [hb.eq, mem_Ico] at hi hin
  have hlen := length_data h.inv
  have hle := hb.le
  have ha : s.activeColumnIdx < s.columns.length := by omega
  have hdata : i < (t.resized N).data.length := by
    rw [resized, List.length_set, hr.data]
    omega
  have hgaps : (t.resized N).options.gaps = s.options.gaps := congrArg Options.gaps hr.options
  have hnext : (t.resized N).columnX (i + 1) = _ := columnX_succ hdata
  have hbefore := h.spread.columnX_mono h.inv hi.1 (hi.2.le.trans hle)
  have hbehind := h.spread.columnX_mono h.inv hi.2 hle
  have hroom := hb.freeWidth_eq h.inv
  have hfree := hb.freeWidth_nonneg h.inv
  have hcol := hr.columnX_resized (N := N) h.inv ha (k := i) (by omega)
  have hcol' := hr.columnX_resized (N := N) h.inv ha (k := i + 1) (by omega)
  have hwork : (t.resized N).workingArea = s.workingArea := hr.workingArea
  rw [FullyVisible, hr.targetViewPos_resized h.inv ha, hwork, hgaps, hx]
  rw [hgaps] at hnext
  refine ⟨?_, ?_⟩
  · rw [hcol]
    split <;> linarith
  · have hright : (t.resized N).columnX (i + 1) ≤ s.columnX n + s.freeWidth := by
      rw [hcol']
      split <;> linarith
    linarith

/-- At the new width of the active column nothing is left. -/
theorem freeWidth_settled {u : ScrollingSpace} (hN : N = s.dataWidth s.activeColumnIdx + s.freeWidth)
    (hx : s.columnX s.activeColumnIdx + x + s.workingArea.loc.x = s.columnX l - s.options.gaps)
    (hu : (t.resized N).Settled u) : u.freeWidth ≤ 0 := by
  have hin := h.visible
  rw [hb.eq, mem_Ico] at hin
  have hlen := length_data h.inv
  have hlen' := length_data hu.inv
  have hle := hb.le
  have ha : s.activeColumnIdx < s.columns.length := by omega
  have hdata : u.data.length = s.data.length := by rw [hu.data, resized, List.length_set, hr.data]
  have hsub : s.fullyVisible ⊆ u.fullyVisible := fun i hi => by
    have hv := fullyVisible_resized h hb hr hN hx hi
    rw [mem_fullyVisible] at hi
    exact mem_fullyVisible.mpr ⟨by omega, hu.fullyVisible_iff.mpr hv⟩
  have hsum : ∑ i ∈ s.fullyVisible, (u.dataWidth i + u.options.gaps) ≤
      ∑ i ∈ u.fullyVisible, (u.dataWidth i + u.options.gaps) := by
    refine sum_le_sum_of_subset_of_nonneg hsub fun i hi _ => ?_
    have hlt := (mem_fullyVisible.mp hi).1
    have hget := List.getElem?_eq_getElem (l := u.data) (i := i) (by omega)
    rw [dataWidth_of_getElem? hget]
    exact add_nonneg (hu.spread.width_nonneg hu.inv (List.getElem_mem _)) hu.spread.gaps
  have hxs (k : ℕ) : u.columnX k = (t.resized N).columnX k := by
    rw [columnX, hu.data, hu.options]
    rfl
  have hbefore := hr.columnX_resized (N := N) h.inv ha (k := l) (by omega)
  have hbehind := hr.columnX_resized (N := N) h.inv ha hle
  have hroom := hb.freeWidth_eq h.inv
  have hgaps : u.options.gaps = s.options.gaps :=
    congrArg Options.gaps (hu.options.trans hr.options)
  have hwork : u.workingArea = s.workingArea := hu.workingArea.trans hr.workingArea
  rw [if_neg (by omega)] at hbefore
  rw [if_pos (by omega)] at hbehind
  rw [hb.eq, sum_widths (by omega) hb.lt.le, hxs, hxs, hbefore, hbehind] at hsum
  rw [freeWidth, hwork]
  linarith

theorem fills_of_requested (hN : d.requestedColumnWidth = s.dataWidth s.activeColumnIdx + s.freeWidth)
    (hx : s.columnX s.activeColumnIdx + x + s.workingArea.loc.x = s.columnX l - s.options.gaps) :
    s.Fills t := by
  refine ⟨d, hr.active, (sum_others_iff h.visible).mpr hN,
    fun i hi => fullyVisible_resized h hb hr hN hx hi, fun u hu => ?_⟩
  obtain ⟨e, he, hnormal⟩ := hu.active
  have hfree := freeWidth_settled h hb hr hN hx hu
  have hcolumns : u.columns.length = s.columns.length := by
    rw [← length_data hu.inv, ← length_data h.inv, hu.data, resized, List.length_set, hr.data]
  have hcenter : u.isCenteringFocusedColumn = false := by
    have hoptions : u.options = s.options := hu.options.trans hr.options
    rw [isCenteringFocusedColumn, hoptions, hcolumns]
    exact h.notCentering
  have hidx : u.activeColumnIdx = s.activeColumnIdx := hu.idx.trans hr.idx
  refine ⟨expandColumnToAvailableWidth_of_le hu.spread hu.inv he hcenter
    (hfree.trans e.extraSize_w_nonneg), ?_⟩
  refine computeNewViewOffsetForColumn_of_fullyVisible hu.spread.gaps hcenter he hnormal
    (dataWidth_active hu.inv he).symm (hu.fullyVisible_iff.mpr ?_)
  rw [hidx]
  exact fullyVisible_resized h hb hr hN hx h.visible

end filled

/-- The width that the active column already requests fills the view, which starts at the leftmost of
the columns in view. -/
def AlreadyFills (s : ScrollingSpace) (c : Column) : Prop :=
  c.requestedColumnWidth = s.dataWidth s.activeColumnIdx + s.freeWidth ∧
    ∃ l ∈ s.fullyVisible, s.targetViewPos + s.workingArea.loc.x = s.columnX l - s.options.gaps

/-- Expanding the active column fills the screen, unless less is left than the tab indicator takes. -/
theorem expandColumnToAvailableWidth_fills (h : s.Expandable c) :
    (s.Fills s.expandColumnToAvailableWidth ↔
      c.extraSize.w < s.freeWidth ∨ s.AlreadyFills c) ∧
    (c.requestedColumnWidth = s.dataWidth s.activeColumnIdx →
      (s.AlreadyFills c ↔ s.freeWidth = 0)) := by
  obtain ⟨l, n, hb⟩ := exists_block h.spread h.inv h.visible
  have hfree := hb.freeWidth_nonneg h.inv
  have hbounds := hb.bounds h.inv
  have hroom := hb.freeWidth_eq h.inv
  have hrefl := Reframed.refl (s := s) h.active
  have hview : s.targetViewPos = s.columnX s.activeColumnIdx + s.viewOffset.target := rfl
  have hl : l ∈ s.fullyVisible := hb.eq ▸ mem_Ico.mpr ⟨le_rfl, hb.lt⟩
  refine ⟨?_, fun hrest => ⟨fun hfills => by have := hfills.1; linarith, fun hzero => ?_⟩⟩
  · obtain hlt | hle := lt_or_ge c.extraSize.w s.freeWidth
    · refine iff_of_true ?_ (.inl hlt)
      rw [expandColumnToAvailableWidth_of_lt h hb hlt]
      refine fills_of_requested h hb (grown_reframed h hb _ hfree) ?_ (by ring)
      have hne : c.tiles ≠ [] := (h.inv.columns c (List.mem_of_getElem? h.active)).nonempty
      have hadmits := h.admits
      rw [add_sub_assoc] at hadmits
      rw [Column.requestedColumnWidth_expanded hne hadmits]
      ring
    · rw [expandColumnToAvailableWidth_of_le h.spread h.inv h.active h.notCentering hle]
      constructor
      · rintro ⟨d, hd, hsum, hvisible, -⟩
        obtain rfl := some.inj (hd.symm.trans h.active)
        have hN := (sum_others_iff h.visible).mp hsum
        refine .inr ⟨hN, l, hl, ?_⟩
        -- The right edge of the last column in view is where the free width ends.
        have hright := hrefl.end_resized h.inv hb hN h.visible hvisible
        linarith
      · rintro (hlt | ⟨hN, k, hk, hat⟩)
        · exact absurd hlt (not_lt.mpr hle)
        · refine fills_of_requested h hb hrefl hN ?_
          have hlk : l ≤ k := (mem_Ico.mp (hb.eq ▸ hk)).1
          have hmono := h.spread.columnX_mono h.inv hlk (mem_fullyVisible.mp hk).1.le
          linarith
  · refine ⟨by rw [hrest, hzero, add_zero], l, hl, ?_⟩
    linarith

/-! A tabbed column whose tab indicator takes 9 pixels, beside another column. -/

def tabSpace : ScrollingSpace :=
  new ⟨1280, 720⟩ ⟨⟨0, 0⟩, ⟨1280, 720⟩⟩ 1
    { Options.default with tabIndicator := ⟨false, false, true, 5, 4, .left⟩ } 0

/-- A window is given a fixed width and commits it. -/
def fixedWidth (id : ℕ) (width : ℤ) : List Op :=
  [.size (.setWindowWidth (some id) (.setFixed width)),
    .updateWindow id ⟨⟨width, 600⟩, ⟨0, 0⟩, ⟨0, 0⟩, .normal, ⟨⟨false, false, none⟩, none, none⟩, none⟩
      false]

def tabbedBeside (width : ℤ) : List Op :=
  openOp 1 :: fixedWidth 1 600 ++ openOp 2 :: .size .toggleColumnTabbedDisplay :: fixedWidth 2 width ++
    [.focus .focusLeft, .focus .focusRight]

/-- What is asked for of a space before its active column can be expanded. -/
def restsBeside (s : ScrollingSpace) (c : Column) (i : ℕ) : Bool :=
  let px := s.dataWidth s.activeColumnIdx + s.freeWidth - c.extraSize.w
  decide (0 ≤ s.options.gaps) && s.tiles.all (fun t => 0 ≤ t.tileSize.w) &&
    !s.isCenteringFocusedColumn && c.pendingSizingMode == .normal && c.isNormal && !c.isFullWidth &&
    decide (s.activeColumnIdx ∈ s.fullyVisible ∧ i ∈ s.fullyVisible ∧ i ≠ s.activeColumnIdx) &&
    c.tiles.all (fun t => max t.minSizeNonfullscreen.w 1 ≤ px) &&
    c.tiles.all (fun t => t.maxSizeNonfullscreen.w ≠ 0 → px ≤ t.maxSizeNonfullscreen.w) &&
    decide (px ≤ 2147483647)

theorem expandable_of_restsBeside (hs : s.Inv) (hc : s.activeColumn = some c)
    (h : s.restsBeside c i = true) : s.Expandable c := by
  unfold restsBeside at h
  simp only [Bool.and_eq_true, List.all_eq_true, decide_eq_true_eq, Bool.not_eq_true',
    beq_iff_eq] at h
  obtain ⟨⟨⟨⟨⟨⟨⟨⟨⟨hgaps, hwidths⟩, hcenter⟩, hpending⟩, hnormal⟩, hfull⟩, ha, hi, hne⟩, hmin⟩,
    hmax⟩, hlimit⟩ := h
  exact ⟨hs, ⟨hgaps, hwidths⟩, hc, hcenter, hpending, hnormal, hfull, ha, ⟨i, hi, hne⟩,
    ⟨hmin, hmax, hlimit⟩⟩

theorem exists_expandable {ops : List Op} {p : ScrollingSpace → Column → Bool}
    (h : (run step tabSpace ops).any (fun s => s.activeColumn.any fun c =>
      s.restsBeside c 0 && p s c) = true) :
    ∃ s c, run step tabSpace ops = some s ∧ s.Expandable c ∧ p s c = true := by
  obtain ⟨s, hs, hc⟩ := (Option.any_eq_true _ _).mp h
  obtain ⟨c, hc, hp⟩ := (Option.any_eq_true _ _).mp hc
  obtain ⟨hrests, hp⟩ := Bool.and_eq_true_iff.mp hp
  exact ⟨s, c, hs, expandable_of_restsBeside (inv_run inv_new hs) hc hrests, hp⟩

theorem expandColumnToAvailableWidth_fills_tabbed : ∃ s c,
    run step tabSpace (tabbedBeside 500) = some s ∧ s.Expandable c ∧
      s.Fills s.expandColumnToAvailableWidth := by
  have hrun : (run step tabSpace (tabbedBeside 500)).any (fun s => s.activeColumn.any fun c =>
      s.restsBeside c 0 && decide (c.extraSize.w < s.freeWidth)) = true := by
    decide +kernel
  obtain ⟨s, c, hs, hc, hfree⟩ := exists_expandable hrun
  exact ⟨s, c, hs, hc,
    (expandColumnToAvailableWidth_fills hc).1.mpr (.inl (of_decide_eq_true hfree))⟩

/-- With 5 pixels left, less than the 9 of the tab indicator, the column stays as it is. -/
theorem expandColumnToAvailableWidth_leaves : ∃ s c,
    run step tabSpace (tabbedBeside 618) = some s ∧ s.Expandable c ∧
      c.requestedColumnWidth = s.dataWidth s.activeColumnIdx ∧ s.freeWidth = 5 ∧
      s.expandColumnToAvailableWidth = s ∧ ¬ s.Fills s.expandColumnToAvailableWidth := by
  have hrun : (run step tabSpace (tabbedBeside 618)).any (fun s => s.activeColumn.any fun c =>
      s.restsBeside c 0 && decide (c.requestedColumnWidth = s.dataWidth s.activeColumnIdx ∧
        s.freeWidth = 5 ∧ c.extraSize.w = 9)) = true := by
    decide +kernel
  obtain ⟨s, c, hs, hc, hfacts⟩ := exists_expandable hrun
  obtain ⟨hrest, hfree, hextra⟩ := of_decide_eq_true hfacts
  have hsame := expandColumnToAvailableWidth_of_le hc.spread hc.inv hc.active hc.notCentering
    (by rw [hfree, hextra]; norm_num)
  refine ⟨s, c, hs, hc, hrest, hfree, hsame, fun hfills => ?_⟩
  rw [hsame] at hfills
  obtain ⟨d, hd, hsum, -⟩ := hfills
  obtain rfl := some.inj (hd.symm.trans hc.active)
  have hN := (sum_others_iff hc.visible).mp hsum
  linarith

end ScrollingSpace

end Macniri.Layout
