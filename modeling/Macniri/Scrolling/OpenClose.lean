import Macniri.Scrolling.ColumnPositions
import Macniri.Scrolling.Step
import Macniri.Scrolling.ViewFit

/-! Opening a column next to the active one and closing it again restores the view. -/
namespace Macniri.Layout.ScrollingSpace

open List Option

variable {s s' t t' u : ScrollingSpace} {a i n : ℕ} {o x colX width : ℚ} {mode : SizingMode}
variable {c col : Column}

/-- The spaces place a column of some X and width in the same way. -/
structure SameFrame (s u : ScrollingSpace) : Prop where
  options : u.options = s.options
  workingArea : u.workingArea = s.workingArea
  parentArea : u.parentArea = s.parentArea

theorem computeNewViewOffsetFit_congr (h : SameFrame s u) (x colX width : ℚ) (mode : SizingMode) :
    u.computeNewViewOffsetFit (some x) colX width mode =
      s.computeNewViewOffsetFit (some x) colX width mode := by
  unfold computeNewViewOffsetFit areaFor
  rw [h.options, h.workingArea, h.parentArea]
  rfl

theorem computeNewViewOffsetCentered_congr (h : SameFrame s u) (x colX width : ℚ) (mode : SizingMode) :
    u.computeNewViewOffsetCentered (some x) colX width mode =
      s.computeNewViewOffsetCentered (some x) colX width mode := by
  unfold computeNewViewOffsetCentered
  simp only [computeNewViewOffsetFit_congr h]
  unfold areaFor
  rw [h.workingArea, h.parentArea]

/-- A centered column stays where it is when it is fitted. -/
theorem fit_of_centered (s : ScrollingSpace) (x colX width : ℚ) (mode : SizingMode) :
    s.computeNewViewOffsetFit (some (colX + s.computeNewViewOffsetCentered (some x) colX width mode))
      colX width mode = s.computeNewViewOffsetCentered (some x) colX width mode := by
  unfold computeNewViewOffsetCentered
  by_cases hmode : mode = .fullscreen
  · rw [if_pos hmode]
    unfold computeNewViewOffsetFit
    rw [if_pos hmode, if_pos hmode]
  · rw [if_neg hmode]
    dsimp only
    by_cases hwide : (s.areaFor mode).size.w ≤ width
    · rw [if_pos hwide]
      unfold computeNewViewOffsetFit
      rw [if_neg hmode, if_neg hmode]
      dsimp only
      rw [computeNewViewOffset_wide hwide, computeNewViewOffset_wide hwide]
    · rw [if_neg hwide]
      have hlt := not_le.mp hwide
      unfold computeNewViewOffsetFit
      rw [if_neg hmode]
      dsimp only [getD_some]
      have hpadding : viewPadding _ width (if mode = .maximized then 0 else s.options.gaps) ≤ _ :=
        viewPadding_le hlt.le
      have hshown : Shows (s.areaFor mode).size.w colX width
          (viewPadding (s.areaFor mode).size.w width (if mode = .maximized then 0 else s.options.gaps))
          (colX + (-((s.areaFor mode).size.w - width) / 2 - (s.areaFor mode).loc.x) +
            (s.areaFor mode).loc.x) :=
        ⟨by linarith, by linarith⟩
      linarith [computeNewViewOffset_of_shows hlt hshown]

theorem computeNewViewOffsetForColumn_none (s : ScrollingSpace) (a : ℕ) (prev : Option ℕ) :
    s.computeNewViewOffsetForColumn none a prev =
      s.computeNewViewOffsetForColumn (some s.targetViewPos) a prev := by
  unfold computeNewViewOffsetForColumn computeNewViewOffsetForColumnFit
    computeNewViewOffsetForColumnCentered computeNewViewOffsetCentered computeNewViewOffsetFit
  rfl

/-- The view offset for a column is one of the two. -/
theorem computeNewViewOffsetForColumn_cases (s : ScrollingSpace) (x : Option ℚ) (a : ℕ)
    (prev : Option ℕ) :
    s.computeNewViewOffsetForColumn x a prev = s.computeNewViewOffsetForColumnCentered x a ∨
      (s.isCenteringFocusedColumn = false ∧
        s.computeNewViewOffsetForColumn x a prev = s.computeNewViewOffsetForColumnFit x a) := by
  unfold computeNewViewOffsetForColumn
  cases hcentering : s.isCenteringFocusedColumn with
  | true => exact .inl rfl
  | false =>
    rw [if_neg Bool.false_ne_true]
    cases s.options.centerFocusedColumn with
    | never => exact .inr ⟨rfl, rfl⟩
    | always => exact .inl rfl
    | onOverflow =>
      cases prev with
      | none => exact .inr ⟨rfl, rfl⟩
      | some prev =>
        dsimp only
        split
        · exact .inr ⟨rfl, rfl⟩
        · exact (ite_eq_or_eq _ _ _).symm.imp id fun hfit => ⟨rfl, hfit⟩

theorem computeNewViewOffsetForColumn_of_none (s : ScrollingSpace) (x : Option ℚ) (a : ℕ) :
    s.computeNewViewOffsetForColumn x a none = if s.isCenteringFocusedColumn
      then s.computeNewViewOffsetForColumnCentered x a
      else s.computeNewViewOffsetForColumnFit x a := by
  unfold computeNewViewOffsetForColumn
  split
  · rfl
  · rename_i hcentering
    cases halways : s.options.centerFocusedColumn with
    | always => simp [isCenteringFocusedColumn, halways] at hcentering
    | never => rfl
    | onOverflow => rfl

/-- A space with the same column at the same place, and possibly more columns. -/
structure SameColumn (s u : ScrollingSpace) (a : ℕ) : Prop extends SameFrame s u where
  length : s.columns.length ≤ u.columns.length
  columnX : u.columnX a = s.columnX a
  column : ∃ c c', s.columns[a]? = some c ∧ u.columns[a]? = some c' ∧
    c'.actualWidth = c.actualWidth ∧ c'.sizingMode = c.sizingMode

theorem SameColumn.fit (h : SameColumn s u a) (x : ℚ) :
    u.computeNewViewOffsetForColumnFit (some x) a = s.computeNewViewOffsetForColumnFit (some x) a := by
  obtain ⟨c, c', hc, hc', hwidth, hmode⟩ := h.column
  unfold computeNewViewOffsetForColumnFit
  rw [hc, hc']
  dsimp only
  rw [computeNewViewOffsetFit_congr h.toSameFrame, h.columnX, hwidth, hmode]

theorem SameColumn.centered (h : SameColumn s u a) (x : ℚ) :
    u.computeNewViewOffsetForColumnCentered (some x) a =
      s.computeNewViewOffsetForColumnCentered (some x) a := by
  obtain ⟨c, c', hc, hc', hwidth, hmode⟩ := h.column
  unfold computeNewViewOffsetForColumnCentered
  rw [hc, hc']
  dsimp only
  rw [computeNewViewOffsetCentered_congr h.toSameFrame, h.columnX, hwidth, hmode]

theorem isCentering_mono (h : SameFrame s u) (hlen : s.columns.length ≤ u.columns.length)
    (hu : u.isCenteringFocusedColumn = true) : s.isCenteringFocusedColumn = true := by
  unfold isCenteringFocusedColumn at hu ⊢
  rw [h.options] at hu
  simp only [Bool.or_eq_true, Bool.and_eq_true, decide_eq_true_eq] at hu ⊢
  exact hu.imp id fun hone => ⟨hone.1, hlen.trans hone.2⟩

/-- A view offset that was computed for a column stays when it is computed again from there. -/
theorem SameColumn.refit (h : SameColumn s u a) {prev : Option ℕ}
    (ho : s.computeNewViewOffsetForColumn (some (s.columnX a + o)) a prev = o) :
    u.computeNewViewOffsetForColumn (some (s.columnX a + o)) a none = o := by
  have hcentered : s.computeNewViewOffsetForColumnCentered (some (s.columnX a + o)) a = o →
      s.computeNewViewOffsetForColumnFit (some (s.columnX a + o)) a = o := by
    obtain ⟨c, -, hc, -⟩ := h.column
    unfold computeNewViewOffsetForColumnCentered computeNewViewOffsetForColumnFit
    rw [hc]
    dsimp only
    intro heq
    have hfit := s.fit_of_centered (s.columnX a + o) (s.columnX a) c.actualWidth c.sizingMode
    rwa [heq] at hfit
  have hs := s.computeNewViewOffsetForColumn_cases (some (s.columnX a + o)) a prev
  rw [computeNewViewOffsetForColumn_of_none]
  split
  · rename_i hu
    have hcentering := isCentering_mono h.toSameFrame h.length hu
    rw [h.centered, ← hs.resolve_right fun hfit => by simp [hcentering] at hfit, ho]
  · rw [h.fit]
    obtain hs | ⟨-, hs⟩ := hs
    · exact hcentered (hs ▸ ho)
    · exact hs ▸ ho

/-! What the operations between the opening and the closing leave alone. -/

def uids (s : ScrollingSpace) : List ℕ := s.columns.map (·.uid)

theorem uids_eq (s : ScrollingSpace) : s.uids = (s.columns.map still).map (·.uid) := by
  simp [uids, still]

/-- The columns left of `n` stay, `n` is the same column, and the columns that were there before
some time stay in order. -/
structure Keeps (n : ℕ) (t t' : ScrollingSpace) : Prop extends SameFrame t t' where
  columns : (t'.columns.map still).take n = (t.columns.map still).take n
  data : t'.data.take n = t.data.take n
  length : t.columns.length ≤ t'.columns.length
  uid : t'.uids[n]? = t.uids[n]?
  active : t'.activeColumnIdx = t.activeColumnIdx
  prev : t'.activatePrevColumnOnRemoval = t.activatePrevColumnOnRemoval
  nextUid : t.nextUid ≤ t'.nextUid
  older : ∀ m ≤ t.nextUid, t'.uids.filter (· < m) = t.uids.filter (· < m)
  sized : t.data.length = t.columns.length → t'.data.length = t'.columns.length

theorem Keeps.refl (n : ℕ) (t : ScrollingSpace) : Keeps n t t :=
  ⟨⟨rfl, rfl, rfl⟩, rfl, rfl, le_rfl, rfl, rfl, rfl, le_rfl, fun _ _ => rfl, id⟩

theorem Keeps.trans (h : Keeps n t u) (h' : Keeps n u t') : Keeps n t t' :=
  ⟨⟨h'.options.trans h.options, h'.workingArea.trans h.workingArea,
      h'.parentArea.trans h.parentArea⟩,
    h'.columns.trans h.columns, h'.data.trans h.data, h.length.trans h'.length,
    h'.uid.trans h.uid, h'.active.trans h.active, h'.prev.trans h.prev, h.nextUid.trans h'.nextUid,
    fun m hm => (h'.older m (hm.trans h.nextUid)).trans (h.older m hm), h'.sized ∘ h.sized⟩

/-- Only the view and the animations change. -/
theorem Keeps.of_still (hcolumns : t'.columns.map still = t.columns.map still)
    (hdata : t'.data = t.data) (hframe : SameFrame t t')
    (hactive : t'.activeColumnIdx = t.activeColumnIdx)
    (hprev : t'.activatePrevColumnOnRemoval = t.activatePrevColumnOnRemoval)
    (hnext : t'.nextUid = t.nextUid) : Keeps n t t' := by
  have huids : t'.uids = t.uids := by rw [uids_eq, uids_eq, hcolumns]
  have hlen : t'.columns.length = t.columns.length := by
    simpa using congrArg List.length hcolumns
  exact ⟨hframe, by rw [hcolumns], by rw [hdata], hlen.ge, by rw [huids], hactive, hprev,
    hnext.ge, fun m _ => by rw [huids], fun hsized => by rw [hdata, hsized, hlen]⟩

/-- A column from `n` on is replaced. -/
theorem Keeps.of_set {d : ColumnData} (hi : n ≤ i) (hc : t.columns[i]? = some c)
    (huid : col.uid = c.uid) (hcolumns : t'.columns.map still = (t.columns.map still).set i (still col))
    (hdata : t'.data = t.data ∨ t'.data = t.data.set i d) (hframe : SameFrame t t')
    (hactive : t'.activeColumnIdx = t.activeColumnIdx)
    (hprev : t'.activatePrevColumnOnRemoval = t.activatePrevColumnOnRemoval)
    (hnext : t'.nextUid = t.nextUid) : Keeps n t t' := by
  have huids : t'.uids = t.uids := by
    rw [uids_eq, uids_eq, hcolumns]
    refine map_set_of_eq (a := still c) (by simp [hc]) ?_
    simpa [still] using huid
  have hlen : t'.columns.length = t.columns.length := by
    simpa using congrArg List.length hcolumns
  refine ⟨hframe, ?_, ?_, hlen.ge, by rw [huids], hactive, hprev, hnext.ge,
    fun m _ => by rw [huids], fun hsized => ?_⟩
  · rw [hcolumns, take_set_of_le hi]
  · obtain hsame | hset := hdata
    · rw [hsame]
    · rw [hset, take_set_of_le hi]
  · obtain hsame | hset := hdata
    · rw [hsame, hsized, hlen]
    · rw [hset, length_set, hsized, hlen]

/-- What a commit of the active column changes besides the column. -/
theorem updateViewAfterCommit_eq (s : ScrollingSpace) (i : ℕ) (wasNormal isNormal : Bool)
    (resize : Option ResizeEdge) (offset : ℚ) :
    ∃ v r, s.updateViewAfterCommit i wasNormal isNormal resize offset =
      { s with viewOffset := v, viewOffsetToRestore := r } := by
  have hfollow : ∃ v, s.followInteractiveResize i resize offset = { s with viewOffset := v } := by
    unfold followInteractiveResize
    split
    · exact ⟨_, rfl⟩
    · exact ⟨_, rfl⟩
  obtain ⟨v, hv⟩ := hfollow
  have hstore (t : ScrollingSpace) :
      ∃ r, t.storeViewOffset wasNormal isNormal = { t with viewOffsetToRestore := r } := by
    unfold storeViewOffset
    split
    · exact ⟨_, rfl⟩
    · split
      · exact ⟨_, rfl⟩
      · exact ⟨_, rfl⟩
  unfold updateViewAfterCommit
  dsimp only
  rw [hv]
  obtain ⟨r, hr⟩ := hstore { s with viewOffset := v }
  rw [hr]
  split
  · split
    · exact ⟨_, _, rfl⟩
    · exact ⟨_, _, rfl⟩
  · exact ⟨_, _, rfl⟩

theorem still_moved (c : Column) (ongoing : Bool) (x : ℚ) :
    still (if ongoing then c.animateMoveFrom x else c.offsetMoveAnimCurrent x) = still c := by
  unfold Column.offsetMoveAnimCurrent
  split
  · rfl
  · split
    · split
      · rfl
      · rfl
    · rfl

theorem followResize_eq (s : ScrollingSpace) (i : ℕ) (offset : ℚ) (ongoing : Bool) :
    ∃ cs, s.followResize i offset ongoing = { s with columns := cs } ∧
      cs.map still = s.columns.map still := by
  unfold followResize
  split
  · exact ⟨s.columns, rfl, rfl⟩
  · refine ⟨_, rfl, map_mapIdx_of_eq fun n c => ?_⟩
    split
    · split
      · exact still_moved ..
      · rfl
    · split
      · exact still_moved ..
      · rfl

/-- A commit of a window in a column from `n` on. -/
theorem keeps_updateWindow {w k : ℕ} {commit : Commit} {ongoing : Bool}
    (hw : t.findWindow w = some (i, k)) (hi : n ≤ i)
    (h : t.updateWindow w commit ongoing = some t') : Keeps n t t' := by
  unfold updateWindow at h
  obtain ⟨⟨i', k'⟩, hw', h⟩ := of_bind h
  obtain ⟨rfl, rfl⟩ := pair_inj (hw.symm.trans hw')
  obtain ⟨c, hc, h⟩ := of_bind h
  obtain ⟨tile, ht, rfl⟩ := of_bind_some h
  have huid : (c.updateWindow k commit).updateTileSizes.uid = c.uid := by
    rw [Column.uid_updateTileSizes]
    exact Column.uid_updateWindow
  generalize (c.updateWindow k commit).updateTileSizes = col at huid ⊢
  obtain ⟨cs, hfollow, hstill⟩ := followResize_eq
    ((t.setColumn i col).updateData i (c.updateWindow k commit)) i
    (t.dataWidth i - ((t.setColumn i col).updateData i (c.updateWindow k commit)).dataWidth i) ongoing
  rw [hfollow]
  have hcolumns : cs.map still = (t.columns.map still).set i (still col) := by
    rw [hstill, ← map_set]
    rfl
  split
  · obtain ⟨v, r, heq⟩ := updateViewAfterCommit_eq
      { (t.setColumn i col).updateData i (c.updateWindow k commit) with columns := cs } i
      c.isNormal (c.updateWindow k commit).isNormal tile.window.interactiveResizeData
      (t.dataWidth i - ((t.setColumn i col).updateData i (c.updateWindow k commit)).dataWidth i)
    rw [heq]
    exact .of_set hi hc huid hcolumns (.inr rfl) ⟨rfl, rfl, rfl⟩ rfl rfl rfl
  · exact .of_set hi hc huid hcolumns (.inr rfl) ⟨rfl, rfl, rfl⟩ rfl rfl rfl

theorem uid_cancelResize (c : Column) : c.cancelResize.uid = c.uid := rfl

/-- A request to resize a column from `n` on. -/
theorem keeps_resizeWindow {f : Column → Option ℕ → Column} {window : Option ℕ} {k : Option ℕ}
    (hf : ∀ c k, (f c k).uid = c.uid) (hw : t.columnAndTile window = some (i, k)) (hi : n ≤ i)
    (h : resizeWindow f t window = some t') : Keeps n t t' := by
  unfold resizeWindow at h
  split at h
  · obtain rfl := some.inj h
    exact .refl n t
  · obtain ⟨⟨i', k'⟩, hw', h⟩ := of_bind h
    obtain ⟨rfl, rfl⟩ := pair_inj (hw.symm.trans hw')
    obtain ⟨c, hc, rfl⟩ := of_bind_some h
    have hget : (t.setColumn i (f c k)).columns[i]? = some (f c k) :=
      getElem?_set_self (lt_length_of_getElem? hc)
    unfold cancelResizeForColumn
    rw [hget]
    have huid : ((f c k).cancelResize).uid = c.uid := (uid_cancelResize _).trans (hf c k)
    refine .of_set (d := ⟨0⟩) hi hc huid ?_ (.inl rfl) ⟨rfl, rfl, rfl⟩ rfl rfl rfl
    rw [← map_set]
    exact congrArg (List.map still) (List.set_set _)

theorem filter_insertIdx_of_not {α : Type} {p : α → Bool} {l : List α} {b : α} (h : p b = false)
    (k : ℕ) : (l.insertIdx k b).filter p = l.filter p := by
  induction l generalizing k with
  | nil => cases k <;> simp [h]
  | cons a l ih =>
    cases k with
    | zero => simp [h]
    | succ k => simp [filter_cons, ih]

theorem take_insertIdx {α : Type} {l : List α} {b : α} (hi : n ≤ i) (hl : i ≤ l.length) :
    (l.insertIdx i b).take n = l.take n := by
  rw [insertIdx_eq_take_drop hl,
    take_append_of_le_length (by rw [length_take_of_le hl]; exact hi),
    take_take, min_eq_left hi]

/-- A column is inserted right of the active one without being activated. -/
theorem addColumn_right {column : Column} (hi : t.activeColumnIdx < i)
    (h : t.addColumn (some i) column false = some t') :
    ∃ cs, t' = { t.insertColumn i column with columns := cs } := by
  unfold addColumn at h
  dsimp only [insertionIdx, getD_some] at h
  split at h
  · cases h
  obtain rfl := some.inj h
  have hleft : (!t.columns.isEmpty && decide (i ≤ t.activeColumnIdx)) = false := by
    simp [Nat.not_le.mpr hi]
  have hidx : (t.insertColumn i column).activeColumnIdx = t.activeColumnIdx := rfl
  rw [hidx, hleft]
  dsimp only [Bool.false_eq_true, if_false]
  simp only [Bool.false_eq_true, if_false]
  split
  · exact ⟨_, rfl⟩
  · exact ⟨_, rfl⟩

theorem keeps_addColumn {column : Column} (hactive : t.activeColumnIdx = n)
    (hdata : t.data.length = t.columns.length) (hi : n < i)
    (h : t.addColumn (some i) column false = some t') : Keeps n t t' := by
  have hmap := map_addColumn still_ignores_animation h
  have hle : i ≤ t.columns.length := (addColumn_spec h).1
  have huids : t'.uids = t.uids.insertIdx i t.nextUid := by
    rw [uids_eq, hmap, map_insertIdx, ← uids_eq]
    rfl
  have hlen : t'.columns.length = t.columns.length + 1 := by
    have := congrArg List.length hmap
    rwa [length_map, insertionIdx, getD_some, length_insertIdx_of_le_length
      (by rwa [length_map]), length_map] at this
  obtain ⟨cs, rfl⟩ := addColumn_right (hactive ▸ hi) h
  refine ⟨⟨rfl, rfl, rfl⟩, ?_, take_insertIdx hi.le (hdata ▸ hle), by omega, ?_, rfl, rfl,
    Nat.le_succ _, fun m hm => ?_, fun _ => ?_⟩
  · rw [hmap]
    exact take_insertIdx hi.le (by rwa [length_map])
  · rw [huids, getElem?_insertIdx_of_lt hi]
  · rw [huids, filter_insertIdx_of_not (by simpa using hm)]
  · rw [hlen, ← hdata]
    exact length_insertIdx_of_le_length (hdata ▸ hle) ..

theorem keeps_setClock (now viewValue : ℚ) (moveValue : ℕ → ℚ) :
    Keeps n t (t.setClock now viewValue moveValue) :=
  .of_still (map_mapIdx_of_eq fun _ _ => rfl) rfl ⟨rfl, rfl, rfl⟩ rfl rfl rfl

theorem keeps_advanceAnimations (viewDone : Bool) (moveDone : ℕ → Bool) :
    Keeps n t (t.advanceAnimations viewDone moveDone) := by
  refine .of_still (map_mapIdx_of_eq fun i c => ?_) rfl ⟨rfl, rfl, rfl⟩ rfl rfl rfl
  split
  · rfl
  · rfl

theorem keeps_interactiveResizeBegin {window : ℕ} {edges : ResizeEdge}
    (h : t.interactiveResizeBegin window edges = some t') : Keeps n t t' := by
  unfold interactiveResizeBegin at h
  split at h
  · obtain rfl := some.inj h
    exact .refl n t
  · obtain ⟨⟨i, k⟩, -, h⟩ := of_bind h
    obtain ⟨c, -, h⟩ := of_bind h
    split at h
    · obtain rfl := some.inj h
      exact .refl n t
    · obtain ⟨tile, -, rfl⟩ := of_bind_some h
      exact .of_still rfl rfl ⟨rfl, rfl, rfl⟩ rfl rfl rfl

theorem keeps_interactiveResizeUpdate {w k : ℕ} {delta : Point}
    (hw : t.findWindow w = some (i, k)) (hi : n ≤ i)
    (h : t.interactiveResizeUpdate w delta = some t') : Keeps n t t' := by
  unfold interactiveResizeUpdate at h
  split at h
  · obtain rfl := some.inj h
    exact .refl n t
  · rename_i resize _
    split at h
    · obtain rfl := some.inj h
      exact .refl n t
    · obtain ⟨⟨i', k'⟩, hw', h⟩ := of_bind h
      obtain ⟨rfl, rfl⟩ := pair_inj (hw.symm.trans hw')
      obtain ⟨c, hc, rfl⟩ := of_bind_some h
      refine .of_set (d := ⟨0⟩) hi hc
        (like_resizeByDelta c k resize delta t.isCenteringFocusedColumn).uid ?_ (.inl rfl)
        ⟨rfl, rfl, rfl⟩ rfl rfl rfl
      exact map_set

theorem keeps_interactiveResizeEnd {window : Option ℕ}
    (h : t.interactiveResizeEnd window = some t') : Keeps n t t' := by
  unfold interactiveResizeEnd at h
  split at h
  · obtain rfl := some.inj h
    exact .refl n t
  · obtain rfl := some.inj h
    exact .of_still rfl rfl ⟨rfl, rfl, rfl⟩ rfl rfl rfl
  · split at h
    · obtain rfl := some.inj h
      exact .refl n t
    · obtain ⟨c, -, rfl⟩ := of_bind_some h
      split
      · exact .of_still rfl rfl ⟨rfl, rfl, rfl⟩ rfl rfl rfl
      · exact .of_still rfl rfl ⟨rfl, rfl, rfl⟩ rfl rfl rfl

/-- What happens between the opening of the column `n` and its closing: it or columns to its right
resize, other columns are inserted to its right without being activated, and time passes. -/
inductive Between (n : ℕ) (t : ScrollingSpace) : ScrollingSpace → Prop
  | refl : Between n t t
  | commit {u t' : ScrollingSpace} {w i k : ℕ} {commit : Commit} {ongoing : Bool} :
    Between n t u → u.findWindow w = some (i, k) → n ≤ i →
    u.updateWindow w commit ongoing = some t' → Between n t t'
  | resize {u t' : ScrollingSpace} {f : Column → Option ℕ → Column} {window k : Option ℕ} {i : ℕ} :
    Between n t u → (∀ c k, (f c k).uid = c.uid) → u.columnAndTile window = some (i, k) → n ≤ i →
    resizeWindow f u window = some t' → Between n t t'
  | resizeBegin {u t' : ScrollingSpace} {window : ℕ} {edges : ResizeEdge} :
    Between n t u → u.interactiveResizeBegin window edges = some t' → Between n t t'
  | resizeUpdate {u t' : ScrollingSpace} {w i k : ℕ} {delta : Point} :
    Between n t u → u.findWindow w = some (i, k) → n ≤ i →
    u.interactiveResizeUpdate w delta = some t' → Between n t t'
  | resizeEnd {u t' : ScrollingSpace} {window : Option ℕ} :
    Between n t u → u.interactiveResizeEnd window = some t' → Between n t t'
  | insert {u t' : ScrollingSpace} {i : ℕ} {column : Column} :
    Between n t u → n < i → u.addColumn (some i) column false = some t' → Between n t t'
  | setClock {u : ScrollingSpace} (now viewValue : ℚ) (moveValue : ℕ → ℚ) :
    Between n t u → Between n t (u.setClock now viewValue moveValue)
  | advance {u : ScrollingSpace} (viewDone : Bool) (moveDone : ℕ → Bool) :
    Between n t u → Between n t (u.advanceAnimations viewDone moveDone)

theorem keeps_between (hactive : t.activeColumnIdx = n) (hsized : t.data.length = t.columns.length)
    (h : Between n t t') : Keeps n t t' := by
  induction h with
  | refl => exact .refl n t
  | commit _ hw hi hcommit ih => exact ih.trans (keeps_updateWindow hw hi hcommit)
  | resize _ hf hw hi hresize ih => exact ih.trans (keeps_resizeWindow hf hw hi hresize)
  | resizeBegin _ hbegin ih => exact ih.trans (keeps_interactiveResizeBegin hbegin)
  | resizeUpdate _ hw hi hupdate ih => exact ih.trans (keeps_interactiveResizeUpdate hw hi hupdate)
  | resizeEnd _ hend ih => exact ih.trans (keeps_interactiveResizeEnd hend)
  | insert _ hi hinsert ih =>
    exact ih.trans (keeps_addColumn (ih.active.trans hactive) (ih.sized hsized) hi hinsert)
  | setClock now viewValue moveValue _ ih => exact ih.trans (keeps_setClock ..)
  | advance viewDone moveDone _ ih => exact ih.trans (keeps_advanceAnimations ..)

/-! The opening and the closing. -/

theorem animateAround_eq (u : ScrollingSpace) (n : ℕ) (p q : ℕ → Bool) (x y : ℚ) :
    ∃ cs, (if u.activeColumnIdx ≤ n then u.animateColumns p x else u.animateColumns q y) =
      { u with columns := cs } ∧ cs.length = u.columns.length := by
  split
  · exact ⟨_, rfl, length_mapIdx⟩
  · exact ⟨_, rfl, length_mapIdx⟩

theorem activateInserted_next (u : ScrollingSpace) (hi : i = u.activeColumnIdx + 1) :
    u.activateInserted i false = { u.activateColumn i with
      activatePrevColumnOnRemoval := some u.viewOffset.stationary } := by
  unfold activateInserted
  dsimp only
  rw [if_neg Bool.false_ne_true, if_pos (by simp [hi])]

theorem addColumn_open (column : Column) (hne : s.columns ≠ [])
    (hactive : s.activeColumnIdx < s.columns.length) :
    ∃ cs v, s.addColumn none column true = some
      { s.insertColumn (s.activeColumnIdx + 1) column with
        columns := cs
        viewOffset := v
        activeColumnIdx := s.activeColumnIdx + 1
        activatePrevColumnOnRemoval := some s.viewOffset.stationary
        viewOffsetToRestore := none
        interactiveResize := none } := by
  have hempty : s.columns.isEmpty = false := isEmpty_eq_false_iff.mpr hne
  have hidx : s.insertionIdx none = s.activeColumnIdx + 1 := by simp [insertionIdx, hempty]
  have hinserted := (s.insertColumn (s.activeColumnIdx + 1) column).activateInserted_next
    (i := s.activeColumnIdx + 1) rfl
  rw [activateColumn_of_ne (s := s.insertColumn (s.activeColumnIdx + 1) column)
    (Nat.succ_ne_self s.activeColumnIdx).symm] at hinserted
  unfold addColumn
  dsimp only
  rw [hidx, if_neg (by omega), hempty, if_pos rfl, hinserted]
  obtain ⟨cs, hcs, -⟩ := animateAround_eq
    { (s.insertColumn (s.activeColumnIdx + 1) column).animateViewOffsetToColumn none
        (s.activeColumnIdx + 1) (some s.activeColumnIdx) with
      activeColumnIdx := s.activeColumnIdx + 1
      activatePrevColumnOnRemoval := some s.viewOffset.stationary
      viewOffsetToRestore := none
      interactiveResize := none } (s.activeColumnIdx + 1) (s.activeColumnIdx + 1 + 1 ≤ ·)
      (· < s.activeColumnIdx + 1) _ _
  exact ⟨cs, _, congrArg some hcs⟩

/-- The added column is removed: the column left of it is active again, with its old offset. -/
theorem removeColumnByIdx_close {o : ℚ} (hn : t.activeColumnIdx = a + 1)
    (hprev : t.activatePrevColumnOnRemoval = some o) (hc : t.columns[a + 1]? = some c) :
    ∃ cs v u, t.removeColumnByIdx (a + 1) = some (c, u.animateViewOffsetToColumn none a none) ∧
      v.target = o ∧ u =
      { t.dropColumn (a + 1) c with
        columns := cs
        viewOffset := v
        activeColumnIdx := a
        activatePrevColumnOnRemoval := none
        viewOffsetToRestore := none
        interactiveResize := none } := by
  have hlt := lt_length_of_getElem? hc
  obtain ⟨cs, hcs, hlen⟩ := animateAround_eq t (a + 1) (a + 1 + 1 ≤ ·) (· < a + 1)
    (t.columnX (a + 1 + 1) - t.columnX (a + 1)) (-(t.columnX (a + 1 + 1) - t.columnX (a + 1)))
  have hne : cs.eraseIdx (a + 1) ≠ [] := by
    intro hnil
    have := congrArg List.length hnil
    rw [length_eraseIdx_of_lt (by omega), length_nil] at this
    omega
  have hdropped : ∃ r, ({ t with columns := cs } : ScrollingSpace).dropColumn (a + 1) c =
      { t.dropColumn (a + 1) c with columns := cs.eraseIdx (a + 1), interactiveResize := r } := ⟨_, rfl⟩
  obtain ⟨r, hdropped⟩ := hdropped
  have hkept : (t.dropColumn (a + 1) c).activatePrevColumnOnRemoval = some o := by
    unfold dropColumn
    dsimp only
    rw [hn, if_neg (Nat.succ_ne_self _), hprev]
  unfold removeColumnByIdx
  rw [hc]
  dsimp only [some_bind]
  rw [hcs, hdropped]
  have hidx : (t.dropColumn (a + 1) c).activeColumnIdx = a + 1 := hn
  unfold refocusAfterRemoval
  dsimp only
  rw [if_neg hne, hidx, if_neg (lt_irrefl _), if_pos rfl, hkept]
  dsimp only
  rw [if_pos (Nat.succ_pos a), Nat.add_sub_cancel, activateColumn_of_ne (Nat.succ_ne_self a)]
  exact ⟨_, _, _, rfl, target_animateViewOffset .., rfl⟩

theorem filter_eraseIdx_of_not {α : Type} {p : α → Bool} {l : List α} {b : α} {k : ℕ}
    (hb : l[k]? = some b) (h : p b = false) : (l.eraseIdx k).filter p = l.filter p := by
  rw [← filter_insertIdx_of_not (l := l.eraseIdx k) h k, insertIdx_eraseIdx_self hb]

theorem column_of_stills (h : (u.columns.map still)[a]? = (s.columns.map still)[a]?)
    (hc : s.columns[a]? = some c) : ∃ c', u.columns[a]? = some c' ∧
      c'.actualWidth = c.actualWidth ∧ c'.sizingMode = c.sizingMode := by
  rw [getElem?_map, getElem?_map, hc] at h
  obtain ⟨c', hc', hstill⟩ := of_map h
  have hwidth : (still c').actualWidth = (still c).actualWidth := by rw [hstill]
  have hmode : (still c').sizingMode = (still c).sizingMode := by rw [hstill]
  exact ⟨c', hc', hwidth, hmode⟩

theorem take_eraseIdx {α : Type} {l : List α} (hi : n ≤ i) : (l.eraseIdx i).take n = l.take n := by
  rw [eraseIdx_eq_take_drop_succ]
  rcases le_total i l.length with hle | hle
  · rw [take_append_of_le_length (by rwa [length_take_of_le hle]), take_take,
      min_eq_left hi]
  · rw [take_of_length_le hle, drop_of_length_le (by omega), append_nil]

theorem getElem?_of_take {α : Type} {l m : List α} (h : l.take n = m.take n) (hi : i < n) :
    l[i]? = m[i]? := by
  have := congrArg (·[i]?) h
  simpa [getElem?_take, hi] using this

/-- Spaces with the same columns up to `a` have the same column there. -/
theorem SameColumn.of_take (hframe : SameFrame s u) (hs : s.data.length = s.columns.length)
    (hu : u.data.length = u.columns.length) (ha : a < s.columns.length)
    (hlen : s.columns.length ≤ u.columns.length)
    (hcolumns : (u.columns.map still).take (a + 1) = (s.columns.map still).take (a + 1))
    (hdata : u.data.take (a + 1) = s.data.take (a + 1)) : SameColumn s u a := by
  refine ⟨hframe, hlen, ?_, ?_⟩
  · have hleft : u.data.take a = s.data.take a := by
      simpa [take_take] using congrArg (List.take a) hdata
    have hX : columnXAt s.options.gaps u.data a = _ := columnXAt_congr (by omega) hleft (by omega)
    show columnXAt u.options.gaps u.data a = columnXAt s.options.gaps s.data a
    rw [hframe.options]
    exact hX
  · have hc := getElem?_eq_getElem ha
    obtain ⟨c', hc', hsame⟩ := column_of_stills (getElem?_of_take hcolumns (Nat.lt_succ_self a)) hc
    exact ⟨_, c', hc, hc', hsame⟩

/-- Fitting the view offset again does not change the view. -/
theorem SameColumn.target_animateViewOffsetToColumn {prev : Option ℕ}
    (h : SameColumn s u s.activeColumnIdx) (hactive : u.activeColumnIdx = s.activeColumnIdx)
    (htarget : u.viewOffset.target = s.viewOffset.target)
    (hfit : s.computeNewViewOffsetForColumn none s.activeColumnIdx prev = s.viewOffset.target) :
    (u.animateViewOffsetToColumn none s.activeColumnIdx none).viewOffset.target =
      s.viewOffset.target := by
  have hpos : u.targetViewPos = s.columnX s.activeColumnIdx + s.viewOffset.target := by
    unfold targetViewPos
    rw [hactive, htarget, h.columnX]
  unfold ScrollingSpace.animateViewOffsetToColumn
  rw [target_animateViewOffset, computeNewViewOffsetForColumn_none, hpos]
  rw [computeNewViewOffsetForColumn_none] at hfit
  exact h.refit hfit

theorem older_insertIdx (hs : s.Inv) (k : ℕ) :
    (s.uids.insertIdx k s.nextUid).filter (· < s.nextUid) = s.uids := by
  rw [filter_insertIdx_of_not (p := fun m => decide (m < s.nextUid)) (by simp), filter_eq_self]
  simpa [uids] using hs.uid_lt

/-- The space after the opening. -/
structure OpenedNext (s t : ScrollingSpace) (column : Column) : Prop extends SameFrame s t where
  columns : t.columns.map still =
    (s.columns.map still).insertIdx (s.activeColumnIdx + 1) (still (s.adopt column))
  data : t.data = s.data.insertIdx (s.activeColumnIdx + 1) (ColumnData.new (s.adopt column))
  active : t.activeColumnIdx = s.activeColumnIdx + 1
  prev : t.activatePrevColumnOnRemoval = some s.viewOffset.stationary
  nextUid : t.nextUid = s.nextUid + 1

theorem exists_opened (hne : s.columns ≠ []) (hactive : s.activeColumnIdx < s.columns.length)
    (column : Column) : ∃ t, s.addColumn none column true = some t ∧ OpenedNext s t column := by
  obtain ⟨cs, v, h⟩ := addColumn_open column hne hactive
  have hmap := map_addColumn still_ignores_animation h
  have hidx : s.insertionIdx none = s.activeColumnIdx + 1 := by simp [insertionIdx, hne]
  rw [hidx] at hmap
  exact ⟨_, h, ⟨rfl, rfl, rfl⟩, hmap, rfl, rfl, rfl, rfl⟩

/-- Opening a column next to the active one and closing it again gives back the columns, the active
one and the view, whatever its width and whatever happened to the columns right of the active one. -/
theorem addColumn_removeColumnByIdx_restores (hs : s.Inv) (hne : s.columns ≠ []) {o : ℚ}
    {prev : Option ℕ} (hrest : s.viewOffset = .static o)
    (hfit : s.computeNewViewOffsetForColumn none s.activeColumnIdx prev = o) (column : Column) :
    ∃ t, s.addColumn none column true = some t ∧
      ∀ t', Between (s.activeColumnIdx + 1) t t' →
        ∃ c s', t'.removeColumnByIdx (s.activeColumnIdx + 1) = some (c, s') ∧ c.uid = s.nextUid ∧
          s'.activeColumnIdx = s.activeColumnIdx ∧ s'.viewOffset.target = o ∧
          s'.targetViewPos = s.targetViewPos ∧
          s'.columns.map still = (t'.columns.map still).eraseIdx (s.activeColumnIdx + 1) ∧
          (s'.columns.map still).take (s.activeColumnIdx + 1) =
            (s.columns.map still).take (s.activeColumnIdx + 1) ∧
          s'.uids.filter (· < s.nextUid) = s.uids ∧
          (t' = t → s'.columns.map still = s.columns.map still) := by
  have hactive := hs.active hne
  have hsized : s.data.length = s.columns.length := by rw [hs.data, length_map]
  obtain ⟨t, hadd, hopened⟩ := exists_opened hne hactive column
  refine ⟨t, hadd, fun t' hbetween => ?_⟩
  have hlen : (s.columns.map still).length = s.columns.length := length_map ..
  have hsizedt : t.data.length = t.columns.length := by
    rw [← length_map still, hopened.columns, hopened.data,
      length_insertIdx_of_le_length (by omega), length_insertIdx_of_le_length (by omega)]
    omega
  have hkeeps := keeps_between hopened.active hsizedt hbetween
  have huids : t.uids = s.uids.insertIdx (s.activeColumnIdx + 1) s.nextUid := by
    rw [uids_eq, hopened.columns, map_insertIdx, ← uids_eq]
    rfl
  have huid : t'.uids[s.activeColumnIdx + 1]? = some s.nextUid := by
    have hlt : s.activeColumnIdx + 1 ≤ s.uids.length := by rwa [uids, length_map]
    rw [hkeeps.uid, huids, getElem?_insertIdx_self, if_pos hlt]
  obtain ⟨c, hc, hcuid⟩ : ∃ c, t'.columns[s.activeColumnIdx + 1]? = some c ∧ c.uid = s.nextUid := by
    simpa [uids] using huid
  obtain ⟨cs, v, u, hremove, hv, hu⟩ := removeColumnByIdx_close (hkeeps.active.trans hopened.active)
    (hkeeps.prev.trans hopened.prev) hc
  have hmap := map_removeColumnByIdx still_ignores_animation hremove
  have hleft : (t'.columns.map still).take (s.activeColumnIdx + 1) =
      (s.columns.map still).take (s.activeColumnIdx + 1) := by
    rw [hkeeps.columns, hopened.columns, take_insertIdx le_rfl (by omega)]
  have hcolumns : u.columns.map still = (t'.columns.map still).eraseIdx (s.activeColumnIdx + 1) := hmap
  have hleftu : (u.columns.map still).take (s.activeColumnIdx + 1) =
      (s.columns.map still).take (s.activeColumnIdx + 1) := by
    rw [hcolumns, take_eraseIdx le_rfl, hleft]
  have hdata : u.data.take (s.activeColumnIdx + 1) = s.data.take (s.activeColumnIdx + 1) := by
    rw [hu]
    dsimp only [dropColumn]
    rw [take_eraseIdx le_rfl, hkeeps.data, hopened.data, take_insertIdx le_rfl (by omega)]
  have hgrown : t.columns.length = s.columns.length + 1 := by
    have := congrArg List.length hopened.columns
    rwa [length_map, length_insertIdx_of_le_length (by omega), length_map] at this
  have hshrunk : u.columns.length = t'.columns.length - 1 := by
    have := congrArg List.length hcolumns
    rwa [length_map, length_eraseIdx_of_lt (by simpa using lt_length_of_getElem? hc),
      length_map] at this
  have hsizedu : u.data.length = u.columns.length := by
    have hlt := lt_length_of_getElem? hc
    have hsized' := hkeeps.sized hsizedt
    rw [hshrunk, hu]
    dsimp only [dropColumn]
    rw [length_eraseIdx_of_lt (by omega), hsized']
  have hframe : SameFrame s u := by
    rw [hu]
    exact ⟨hkeeps.options.trans hopened.options, hkeeps.workingArea.trans hopened.workingArea,
      hkeeps.parentArea.trans hopened.parentArea⟩
  have hsame := SameColumn.of_take hframe hsized hsizedu hactive
    (by have := hkeeps.length; omega) hleftu hdata
  have huactive : u.activeColumnIdx = s.activeColumnIdx := by rw [hu]
  have hutarget : u.viewOffset.target = s.viewOffset.target := by
    rw [hu, hrest]
    rw [hrest] at hv
    exact hv
  have hstatic : s.viewOffset.target = o := by
    rw [hrest]
    rfl
  have hview := hsame.target_animateViewOffsetToColumn huactive hutarget (hstatic ▸ hfit)
  refine ⟨c, _, hremove, hcuid, huactive, ?_, ?_, hcolumns, hleftu, ?_, fun hnone => ?_⟩
  · rw [hview, hstatic]
  · unfold targetViewPos
    rw [hview]
    refine congrArg (· + s.viewOffset.target) (Eq.trans ?_ hsame.columnX)
    exact congrArg u.columnX huactive
  · have hold : t'.uids.filter (· < s.nextUid) = s.uids := by
      rw [hkeeps.older _ (by rw [hopened.nextUid]; omega), huids, older_insertIdx hs]
    rw [uids_eq, hmap, ← eraseIdx_map, ← uids_eq,
      filter_eraseIdx_of_not (p := fun m => decide (m < s.nextUid)) huid (by simp), hold]
  · rw [hmap, hnone, hopened.columns]
    exact eraseIdx_insertIdx_self ..

/-- With the second of two columns active and the animations over. -/
theorem addColumn_removeColumnByIdx_restores_second : ∃ s, run step testSpace [openOp 1, openOp 2,
    .view (.advanceAnimations true fun _ => true)] = some s ∧ s.activeColumnIdx = 1 ∧
    ∀ column : Column, ∃ t c s', s.addColumn none column true = some t ∧
      t.removeColumnByIdx 2 = some (c, s') ∧ s'.targetViewPos = s.targetViewPos := by
  have hrun : (run step testSpace [openOp 1, openOp 2,
      .view (.advanceAnimations true fun _ => true)]).any (fun s =>
        match s.viewOffset with
        | .static o => decide (s.computeNewViewOffsetForColumn none 1 none = o ∧
            s.activeColumnIdx = 1 ∧ s.columns.length = 2)
        | _ => false) = true := by decide +kernel
  obtain ⟨s, hs, hrest⟩ := (Option.any_eq_true _ _).mp hrun
  cases hstatic : s.viewOffset with
  | static o =>
    rw [hstatic] at hrest
    obtain ⟨hfit, hactive, hlen⟩ := of_decide_eq_true hrest
    have hne : s.columns ≠ [] := fun hnil => by simp [hnil] at hlen
    refine ⟨s, hs, hactive, fun column => ?_⟩
    obtain ⟨t, hadd, hclose⟩ := addColumn_removeColumnByIdx_restores (inv_run inv_new hs) hne hstatic
      (by rwa [hactive]) column
    rw [hactive] at hclose
    obtain ⟨c, s', hremove, -, -, -, hview, -⟩ := hclose t .refl
    exact ⟨t, c, s', hadd, hremove, hview⟩
  | animation a => simp [hstatic] at hrest
  | gesture g => simp [hstatic] at hrest

end Macniri.Layout.ScrollingSpace
