import Macniri.Scrolling.ActiveWindow
import Macniri.Scrolling.NoJumps
import Macniri.Scrolling.OpenClose
import Macniri.Scrolling.Swap

/-! Which operations scroll the column that they activate into view. -/
namespace Macniri.Layout.ScrollingSpace

open List

variable {s s' t u : ScrollingSpace} {c c' d : Column} {i j k n a : ℕ} {o w x : ℚ}

/-- A view at the offset `o` from a column of width `w` contains the column. -/
def Contains (area : Rectangle) (o w : ℚ) : Prop :=
  o + area.loc.x ≤ 0 ∧ w ≤ o + area.loc.x + area.size.w

/-- The working area at the target view position contains the active column. -/
def ShowsActive (s : ScrollingSpace) : Prop :=
  ∃ c, s.activeColumn = some c ∧
    s.targetViewPos + s.workingArea.loc.x ≤ s.columnX s.activeColumnIdx ∧
    s.columnX s.activeColumnIdx + c.actualWidth ≤
      s.targetViewPos + s.workingArea.loc.x + s.workingArea.size.w

theorem showsActive_iff : s.ShowsActive ↔ ∃ c, s.activeColumn = some c ∧
    Contains s.workingArea s.viewOffset.target c.actualWidth := by
  unfold ShowsActive Contains targetViewPos
  refine exists_congr fun c => and_congr_right fun _ => and_congr ?_ ?_
  · constructor <;> intro h <;> linarith
  · constructor <;> intro h <;> linarith

/-- If the active column is narrower than the working area, it is in view. -/
def ScrolledIntoView (s : ScrollingSpace) : Prop :=
  ∀ c, s.activeColumn = some c → c.actualWidth < s.workingArea.size.w → s.ShowsActive

theorem scrolledIntoView_iff (hc : s.activeColumn = some c) : s.ScrolledIntoView ↔
    (c.actualWidth < s.workingArea.size.w →
      Contains s.workingArea s.viewOffset.target c.actualWidth) := by
  constructor
  · intro h hw
    obtain ⟨c', hc', hshown⟩ := showsActive_iff.mp (h c hc hw)
    rwa [Option.some.inj (hc.symm.trans hc')]
  · intro h c' hc' hw
    obtain rfl := Option.some.inj (hc.symm.trans hc')
    exact showsActive_iff.mpr ⟨c, hc, h hw⟩

/-- No column is ever centered because of its size, and all of them are normal. -/
structure Fits (s : ScrollingSpace) : Prop where
  never : s.options.centerFocusedColumn = .never
  gaps : 0 ≤ s.options.gaps
  normal : ∀ c ∈ s.columns, c.isNormal = true

/-- The view offset that is computed for a column shows it. -/
theorem contains_computeNewViewOffsetFit (hgaps : 0 ≤ s.options.gaps) (hw : w < s.workingArea.size.w)
    (target : Option ℚ) (colX : ℚ) :
    Contains s.workingArea (s.computeNewViewOffsetFit target colX w .normal) w := by
  have hpadding : 0 ≤ viewPadding s.workingArea.size.w w s.options.gaps := viewPadding_nonneg hgaps
  obtain ⟨hleft, hright⟩ := @shows_computeNewViewOffset
    (target.getD s.targetViewPos + s.workingArea.loc.x) s.workingArea.size.w colX w s.options.gaps hw
  unfold computeNewViewOffsetFit areaFor Contains
  simp only [reduceCtorEq, if_false]
  exact ⟨by linarith, by linarith⟩

theorem contains_computeNewViewOffsetCentered (hw : w < s.workingArea.size.w) (target : Option ℚ)
    (colX : ℚ) :
    Contains s.workingArea (s.computeNewViewOffsetCentered target colX w .normal) w := by
  unfold computeNewViewOffsetCentered areaFor Contains
  simp only [reduceCtorEq, if_false]
  rw [if_neg (not_le.mpr hw)]
  exact ⟨by linarith, by linarith⟩

theorem contains_computeNewViewOffsetForColumn (hs : s.Fits) (hc : s.columns[i]? = some c)
    (hw : c.actualWidth < s.workingArea.size.w) (target : Option ℚ) (prev : Option ℕ) :
    Contains s.workingArea (s.computeNewViewOffsetForColumn target i prev) c.actualWidth := by
  have hmode : c.sizingMode = .normal := by
    simpa [Column.isNormal] using hs.normal c (List.mem_of_getElem? hc)
  unfold computeNewViewOffsetForColumn
  rw [hs.never]
  split
  · unfold computeNewViewOffsetForColumnCentered
    rw [hc]
    dsimp only
    rw [hmode]
    exact contains_computeNewViewOffsetCentered hw ..
  · unfold computeNewViewOffsetForColumnFit
    rw [hc]
    dsimp only
    rw [hmode]
    exact contains_computeNewViewOffsetFit hs.gaps hw ..

/-- A column that is activated at another index is scrolled into view. -/
theorem scrolledIntoView_activateColumn (hs : s.Fits) (hne : s.activeColumnIdx ≠ i) :
    (s.activateColumn i).ScrolledIntoView := by
  rw [activateColumn_of_ne hne]
  intro c hc hw
  refine showsActive_iff.mpr ⟨c, hc, ?_⟩
  have htarget := s.target_animateViewOffset i
    (s.computeNewViewOffsetForColumn none i (some s.activeColumnIdx))
  unfold animateViewOffsetToColumn
  dsimp only
  rw [htarget]
  exact contains_computeNewViewOffsetForColumn hs hc hw ..

/-! The identity of the active column. -/

theorem activeUid_eq (s : ScrollingSpace) : s.activeUid = s.uids[s.activeColumnIdx]? := by
  simp [activeUid, uids, activeColumn]

theorem activeUid_congr (huids : s'.uids = s.uids) (hidx : s'.activeColumnIdx = s.activeColumnIdx) :
    s'.activeUid = s.activeUid := by
  rw [activeUid_eq, activeUid_eq, huids, hidx]

theorem activeUid_of_activeColumn (h : s'.activeColumn = s.activeColumn) :
    s'.activeUid = s.activeUid := congrArg (Option.map _) h

/-- The active column stays the same, or the view shows the new one. -/
def Refocused (s s' : ScrollingSpace) : Prop := s'.activeUid = s.activeUid ∨ s'.ScrolledIntoView

theorem uid_ignores_animation (c : Column) (m : Option MoveAnimation) :
    ({ c with moveAnimation := m } : Column).uid = c.uid := rfl

theorem Fits.of_subset (hs : s.Fits) (hoptions : t.options = s.options)
    (hnormal : ∀ b ∈ t.columns.map (·.isNormal), b = true ∨ b ∈ s.columns.map (·.isNormal)) :
    t.Fits := by
  refine ⟨hoptions ▸ hs.never, hoptions ▸ hs.gaps, fun c hc => ?_⟩
  refine (hnormal _ (List.mem_map_of_mem hc)).elim id fun hmem => ?_
  obtain ⟨d, hd, heq⟩ := List.mem_map.mp hmem
  rw [← heq, hs.normal d hd]

theorem Fits.of_map (hs : s.Fits) (hoptions : t.options = s.options)
    (hnormal : t.columns.map (·.isNormal) = s.columns.map (·.isNormal)) : t.Fits :=
  hs.of_subset hoptions fun _ hb => .inr (hnormal ▸ hb)

theorem refocused_activateColumn (hs : s.Fits) (hdnd : s.viewOffset.isDndScroll = false) (i : ℕ) :
    Refocused s (s.activateColumn i) := by
  by_cases hi : s.activeColumnIdx = i
  · subst hi
    rw [activateColumn_self hdnd]
    exact .inl rfl
  · exact .inr (scrolledIntoView_activateColumn hs hi)

theorem activeUid_modifyActiveColumn {f : Column → Column} (hf : ∀ c, (f c).uid = c.uid) :
    (s.modifyActiveColumn f).activeUid = s.activeUid :=
  activeUid_congr (map_modify_of_eq hf) rfl

theorem refocused_activateWindow (hs : s.Fits) (hdnd : s.viewOffset.isDndScroll = false) (w : ℕ) :
    Refocused s (s.activateWindow w) := by
  unfold activateWindow
  split
  · exact .inl rfl
  · rename_i i k _
    have hfits : ({ s with columns := s.columns.modify i (·.activateIdx k) } : ScrollingSpace).Fits :=
      hs.of_map rfl (map_modify_of_eq fun _ => rfl)
    refine (refocused_activateColumn hfits hdnd i).imp (fun huid => huid.trans ?_) id
    exact activeUid_congr (map_modify_of_eq fun _ => rfl) rfl

theorem refocused_focusInColumnOr {f : Column → Column} {other : ScrollingSpace → ScrollingSpace}
    (hf : ∀ c, (f c).uid = c.uid) (hother : Refocused s (other s)) :
    Refocused s (s.focusInColumnOr f other) := by
  unfold focusInColumnOr
  split
  · exact .inl rfl
  · split
    · exact hother
    · exact .inl (activeUid_modifyActiveColumn hf)

section Focus

variable (hs : s.Fits) (hdnd : s.viewOffset.isDndScroll = false)

include hs hdnd

theorem refocused_focusLeft : Refocused s s.focusLeft := by
  unfold focusLeft
  split
  · exact .inl rfl
  · exact refocused_activateColumn hs hdnd _

theorem refocused_focusRight : Refocused s s.focusRight := by
  unfold focusRight
  split
  · exact .inl rfl
  · exact refocused_activateColumn hs hdnd _

theorem refocused_applyFocus (op : FocusOp) : Refocused s (s.applyFocus op) := by
  have hindex (i : ℕ) : Refocused s (if s.columns.isEmpty then s else s.activateColumn i) := by
    split
    · exact .inl rfl
    · exact refocused_activateColumn hs hdnd i
  have hleft := refocused_focusLeft hs hdnd
  have hright := refocused_focusRight hs hdnd
  cases op with
  | activateWindow w => exact refocused_activateWindow hs hdnd w
  | focusLeft => exact hleft
  | focusRight => exact hright
  | focusColumnFirst => exact refocused_activateColumn hs hdnd 0
  | focusColumnLast => exact hindex _
  | focusColumn index => exact hindex _
  | focusWindowInColumn index => exact .inl (activeUid_modifyActiveColumn fun _ => rfl)
  | focusDown => exact .inl (activeUid_modifyActiveColumn fun _ => rfl)
  | focusUp => exact .inl (activeUid_modifyActiveColumn fun _ => rfl)
  | focusTop => exact .inl (activeUid_modifyActiveColumn fun _ => rfl)
  | focusBottom => exact .inl (activeUid_modifyActiveColumn fun _ => rfl)
  | focusDownOrLeft => exact refocused_focusInColumnOr (fun _ => rfl) hleft
  | focusDownOrRight => exact refocused_focusInColumnOr (fun _ => rfl) hright
  | focusUpOrLeft => exact refocused_focusInColumnOr (fun _ => rfl) hleft
  | focusUpOrRight => exact refocused_focusInColumnOr (fun _ => rfl) hright

end Focus

/-! Moves. -/

theorem columnMoved_eq (s : ScrollingSpace) (n : ℕ) (c : Column) (d : ColumnData) :
    ∃ cs ds r v, s.columnMoved n c d =
      { s with columns := cs, data := ds, interactiveResize := r, viewOffset := v } := by
  unfold columnMoved animateColumnMove cancelResizeForColumn
  dsimp only
  split
  · split
    · exact ⟨_, _, _, _, rfl⟩
    · exact ⟨_, _, _, _, rfl⟩
  · split
    · exact ⟨_, _, _, _, rfl⟩
    · exact ⟨_, _, _, _, rfl⟩

theorem fits_columnMoved (hs : s.Fits) {d : ColumnData} (hc : s.columns[s.activeColumnIdx]? = some c)
    (hd : s.data[s.activeColumnIdx]? = some d) (hne : s.activeColumnIdx ≠ n) :
    (s.columnMoved n c d).Fits := by
  obtain ⟨cs, ds, r, v, heq⟩ := s.columnMoved_eq n c d
  refine hs.of_subset (by rw [heq]) fun b hb => ?_
  have hmap := map_moveColumnTo (f := fun c => c.isNormal) (fun _ _ => rfl)
    c.like_cancelResize.normal hc hd hne
  rw [moveColumnTo_eq hc hd hne, columns_activateColumn] at hmap
  rw [hmap] at hb
  rcases List.eq_or_mem_of_mem_insertIdx hb with rfl | hb
  · exact .inl (hs.normal c (List.mem_of_getElem? hc))
  · exact .inr (List.mem_of_mem_eraseIdx hb)

theorem activeColumnIdx_columnMoved (s : ScrollingSpace) (n : ℕ) (c : Column) (d : ColumnData) :
    (s.columnMoved n c d).activeColumnIdx = s.activeColumnIdx := by
  obtain ⟨cs, ds, r, v, heq⟩ := s.columnMoved_eq n c d
  rw [heq]

theorem refocused_moveColumnTo (hs : s.Fits) (n : ℕ) : Refocused s (s.moveColumnTo n) := by
  by_cases hne : s.activeColumnIdx = n
  · unfold moveColumnTo
    dsimp only
    rw [if_pos hne]
    exact .inl rfl
  · cases hc : s.columns[s.activeColumnIdx]? with
    | none =>
      unfold moveColumnTo
      dsimp only
      rw [if_neg hne, hc]
      exact .inl rfl
    | some c =>
      cases hd : s.data[s.activeColumnIdx]? with
      | none =>
        unfold moveColumnTo
        dsimp only
        rw [if_neg hne, hc, hd]
        exact .inl rfl
      | some d =>
        right
        rw [moveColumnTo_eq hc hd hne]
        refine scrolledIntoView_activateColumn (fits_columnMoved hs hc hd hne) ?_
        rwa [activeColumnIdx_columnMoved]

theorem options_focusOn (s : ScrollingSpace) (i : ℕ) : (s.focusOn i).options = s.options := by
  unfold focusOn
  split
  · rfl
  · rfl

theorem options_refocused (s : ScrollingSpace) (i : ℕ) : (s.refocused i).options = s.options := by
  unfold refocused
  split
  · rfl
  split
  · rfl
  split
  · split
    · exact options_focusOn ..
    · rfl
  · exact options_focusOn ..

theorem fits_removeTileByIdx {r : RemovedTile} (hs : s.Fits)
    (h : s.removeTileByIdx i k = some (r, t)) : t.Fits ∧ r.tile.sizingMode = .normal := by
  obtain ⟨c, hc, htile, -, -, hcases⟩ := removeTileByIdx_spec h
  have hnormal := hs.normal c (List.mem_of_getElem? hc)
  refine ⟨hs.of_subset ?_ fun b hb => ?_, ?_⟩
  · rcases hcases with ⟨-, hlike⟩ | ⟨-, hlike⟩
    · exact hlike.options.trans (options_refocused ..)
    · exact hlike.options
  · rw [map_removeTileByIdx (f := fun c => c.isNormal) (fun _ _ => rfl) hc h] at hb
    split at hb
    · exact .inr (List.mem_of_mem_eraseIdx hb)
    · rcases List.mem_or_eq_of_mem_set hb with hb | rfl
      · exact .inr hb
      · exact .inl (Column.isNormal_removeTile hnormal)
  · rw [Column.isNormal_eq, List.all_eq_true] at hnormal
    exact beq_iff_eq.mp (hnormal _ (List.mem_of_getElem? htile))

theorem fits_addTileToColumn {tileIdx : Option ℕ} {tile : Tile} {activate : Bool} (hs : s.Fits)
    (htile : tile.sizingMode = .normal) (h : s.addTileToColumn i tileIdx tile activate = some s') :
    s'.Fits := by
  obtain ⟨c, hc, hle, hlike⟩ := addTileToColumn_spec h
  obtain ⟨c', hc', -, hmap⟩ := map_addTileToColumn (f := fun c => c.isNormal) (fun _ _ => rfl) h
  obtain rfl := Option.some.inj (hc.symm.trans hc')
  refine hs.of_subset (hlike.options.trans ?_) fun b hb => ?_
  · split
    · exact options_focusOn ..
    · rfl
  · rw [hmap] at hb
    rcases List.mem_or_eq_of_mem_set hb with hb | rfl
    · exact .inr hb
    · rw [Column.isNormal_insertTile activate hle, htile, hs.normal c (List.mem_of_getElem? hc)]
      exact .inl rfl

theorem fits_addTile {idx : Option ℕ} {tile : Tile} {activate isFullWidth : Bool}
    {width : ColumnWidth} (hs : s.Fits) (htile : tile.sizingMode = .normal)
    (h : s.addTile idx tile activate width isFullWidth = some s') : s'.Fits := by
  obtain ⟨hle, hlike⟩ := addColumn_spec h
  have hmap := map_addColumn (f := fun c => c.isNormal) (fun _ _ => rfl) h
  refine hs.of_subset (hlike.options.trans ?_) fun b hb => ?_
  · unfold inserted
    split
    · exact options_focusOn ..
    · split <;> rfl
  · rw [hmap] at hb
    rcases List.eq_or_mem_of_mem_insertIdx hb with rfl | hb
    · left
      show (Column.updateConfig _ _ _ _ _ _).isNormal = true
      rw [Column.isNormal_updateConfig, Column.isNormal_newWithTile, htile]
      rfl
    · exact .inr hb

theorem activeColumnIdx_addTileToColumn {tileIdx : Option ℕ} {tile : Tile}
    (h : s.addTileToColumn i tileIdx tile false = some s') :
    s'.activeColumnIdx = s.activeColumnIdx := by
  obtain ⟨c, hc, hle, hlike⟩ := addTileToColumn_spec h
  exact hlike.active

/-- Moving the tiles of a swap leaves the source column active. -/
theorem refocused_swapWithColumn {b : ℕ} {direction : ScrollDirection} (hs : s.Fits)
    (hne : s.activeColumnIdx ≠ b) (h : s.swapWithColumn s.activeColumnIdx b direction = some s') :
    Refocused s s' := by
  unfold swapWithColumn at h
  obtain ⟨source, hsource, h⟩ := of_bind h
  obtain ⟨target, htarget, h⟩ := of_bind h
  split at h
  · obtain rfl := Option.some.inj h
    exact refocused_moveColumnTo hs b
  · rename_i hlen
    obtain ⟨⟨r, s1⟩, h1, h⟩ := of_bind h
    obtain ⟨s2, h2, h⟩ := of_bind h
    obtain ⟨⟨q, s3⟩, h3, h⟩ := of_bind h
    obtain ⟨s4, h4, rfl⟩ := of_bind_some h
    obtain ⟨hfits1, hr⟩ := fits_removeTileByIdx hs h1
    have hfits2 := fits_addTileToColumn hfits1 hr h2
    obtain ⟨hfits3, hq⟩ := fits_removeTileByIdx hfits2 h3
    have hfits4 : s4.Fits ∧ s4.activeColumnIdx = s.activeColumnIdx := by
      unfold addSwapped at h4
      cases hdrained : source.tiles.length == 1 with
      | true =>
        rw [hdrained, if_pos rfl] at h4
        exact ⟨fits_addTile hfits3 hq h4, (addTile_idx h4).2⟩
      | false =>
        rw [hdrained, if_neg Bool.false_ne_true] at h4
        refine ⟨fits_addTileToColumn hfits3 hq h4, ?_⟩
        obtain ⟨c, hc, htile, -⟩ := removeTileByIdx_spec h3
        have hmany : c.tiles.length ≠ 1 := by have := lt_length_of_getElem? htile; omega
        rw [activeColumnIdx_addTileToColumn h4, (removeTileByIdx_keeps hc hmany h3).1,
          activeColumnIdx_addTileToColumn h2,
          (removeTileByIdx_keeps hsource (beq_eq_false_iff_ne.mp hdrained) h1).1]
    right
    refine scrolledIntoView_activateColumn ?_ ?_
    · have hset (u : ScrollingSpace) (j k : ℕ) :
          (u.setActiveTileIdx j k).columns.map (·.isNormal) = u.columns.map (·.isNormal) :=
        map_modify_of_eq fun _ => rfl
      exact hfits4.1.of_map rfl ((hset ..).trans (hset ..))
    · show s4.activeColumnIdx ≠ b
      rwa [hfits4.2]

theorem refocused_swapWindowInDirection {direction : ScrollDirection} (hs : s.Fits)
    (h : s.swapWindowInDirection direction = some s') : Refocused s s' := by
  unfold swapWindowInDirection at h
  split at h
  · exact Option.some.inj h ▸ .inl rfl
  · cases direction with
    | left =>
      dsimp only at h
      split at h
      · exact Option.some.inj h ▸ .inl rfl
      · exact refocused_swapWithColumn hs (by omega) h
    | right =>
      dsimp only at h
      split at h
      · exact Option.some.inj h ▸ .inl rfl
      · exact refocused_swapWithColumn hs (by omega) h

theorem uids_addTileToColumn {tileIdx : Option ℕ} {tile : Tile} {activate : Bool}
    (h : s.addTileToColumn i tileIdx tile activate = some s') : s'.uids = s.uids := by
  obtain ⟨c, hc, -, hmap⟩ := map_addTileToColumn uid_ignores_animation h
  refine hmap.trans ?_
  rw [← List.map_set]
  exact map_set_of_eq hc (Column.uid_insertTile activate)

theorem activeUid_addTileToColumn {tileIdx : Option ℕ} {tile : Tile}
    (h : s.addTileToColumn i tileIdx tile false = some s') : s'.activeUid = s.activeUid :=
  activeUid_congr (uids_addTileToColumn h) (activeColumnIdx_addTileToColumn h)

theorem activeUid_removeColumnByIdx (hs : s.Inv) (hi : i ≠ s.activeColumnIdx)
    (h : s.removeColumnByIdx i = some (c, s')) : s'.activeUid = s.activeUid := by
  have huids : s'.uids = s.uids.eraseIdx i := map_removeColumnByIdx uid_ignores_animation h
  rw [activeUid_eq, activeUid_eq, huids, activeIdx_removeColumnByIdx hs hi h, List.getElem?_eraseIdx]
  split
  · rw [if_neg (by omega), Nat.sub_add_cancel (by omega)]
  · rw [if_pos (by omega)]

/-- Only the removal of the only tile of the active column takes this column away. -/
theorem activeUid_removeTileByIdx {r : RemovedTile} (hs : s.Inv) (hc : s.columns[i]? = some c)
    (hi : ¬ (i = s.activeColumnIdx ∧ c.tiles.length = 1))
    (h : s.removeTileByIdx i k = some (r, t)) : t.activeUid = s.activeUid := by
  by_cases hlen : c.tiles.length = 1
  · obtain ⟨d, hd, h⟩ := of_bind h
    obtain rfl := Option.some.inj (hc.symm.trans hd)
    rw [if_pos hlen] at h
    obtain ⟨⟨d, u⟩, hu, h⟩ := of_bind h
    obtain ⟨tile, -, h⟩ := of_bind h
    obtain ⟨-, rfl⟩ := pair_inj h
    exact activeUid_removeColumnByIdx hs (fun hia => hi ⟨hia, hlen⟩) hu
  · obtain ⟨hidx, huids⟩ := removeTileByIdx_keeps hc hlen h
    exact activeUid_congr huids hidx

theorem activeUid_addTile {idx : Option ℕ} {tile : Tile} {isFullWidth : Bool} {width : ColumnWidth}
    (hne : s.columns ≠ []) (h : s.addTile idx tile false width isFullWidth = some s') :
    s'.activeUid = s.activeUid :=
  activeUid_of_activeColumn (addColumn_untouched hne h).1

theorem columns_ne_nil_of_activeUid (h : t.activeUid = s.activeUid) (hs : s.activeUid.isSome) :
    t.columns ≠ [] := by
  rw [← h] at hs
  intro hnil
  simp [activeUid, activeColumn, hnil] at hs

theorem activeUid_isSome (hs : s.Inv) (hne : s.columns ≠ []) : s.activeUid.isSome := by
  simp [activeUid, activeColumn, List.getElem?_eq_getElem (hs.active hne)]

theorem activeUid_consumeIntoColumn (hs : s.Inv) (h : s.consumeIntoColumn = some s') :
    s'.activeUid = s.activeUid := by
  unfold consumeIntoColumn at h
  split at h
  · exact Option.some.inj h ▸ rfl
  · obtain ⟨⟨r, t⟩, hremove, h⟩ := of_bind h
    obtain ⟨c, hc, -⟩ := removeTileByIdx_spec hremove
    rw [activeUid_addTileToColumn h, activeUid_removeTileByIdx hs hc (by omega) hremove]

theorem activeUid_expelFromColumn (hs : s.Inv) (h : s.expelFromColumn = some s') :
    s'.activeUid = s.activeUid := by
  unfold expelFromColumn at h
  split at h
  · exact Option.some.inj h ▸ rfl
  · rename_i hne
    obtain ⟨c, hc, h⟩ := of_bind h
    split at h
    · exact Option.some.inj h ▸ rfl
    · rename_i hlen
      obtain ⟨⟨r, t⟩, hremove, h⟩ := of_bind h
      have huid := activeUid_removeTileByIdx hs hc (fun hone => hlen hone.2) hremove
      have hnil := columns_ne_nil_of_activeUid huid (activeUid_isSome hs (by simpa using hne))
      rw [activeUid_addTile hnil h, huid]

theorem refocused_applyMove {op : MoveOp} (hinv : s.Inv) (hs : s.Fits)
    (h : s.applyMove op = some s') : Refocused s s' := by
  have hmove := refocused_moveColumnTo hs
  cases op with
  | moveColumnToIndex index =>
    obtain rfl := Option.some.inj h
    unfold moveColumnToIndex
    split
    · exact .inl rfl
    · exact hmove _
  | moveLeft =>
    obtain rfl := Option.some.inj h
    unfold moveLeft
    split
    · exact .inl rfl
    · exact hmove _
  | moveRight =>
    obtain rfl := Option.some.inj h
    unfold moveRight
    split
    · exact .inl rfl
    · exact hmove _
  | moveColumnToFirst => exact Option.some.inj h ▸ hmove 0
  | moveColumnToLast =>
    obtain rfl := Option.some.inj h
    unfold moveColumnToLast
    split
    · exact .inl rfl
    · exact hmove _
  | moveDown =>
    exact Option.some.inj h ▸ .inl (activeUid_modifyActiveColumn fun c => c.like_moveDown.uid)
  | moveUp => exact Option.some.inj h ▸ .inl (activeUid_modifyActiveColumn fun c => c.like_moveUp.uid)
  | consumeIntoColumn => exact .inl (activeUid_consumeIntoColumn hinv h)
  | expelFromColumn => exact .inl (activeUid_expelFromColumn hinv h)
  | swapWindowInDirection direction => exact refocused_swapWindowInDirection hs h

/-! Operations after which another column is at the index of the active one. -/

/-- At rest with the active column in view. -/
structure AtRest (s : ScrollingSpace) : Prop extends s.Inv, s.Fits where
  gesture : s.viewOffset.isGesture = false
  shown : s.ShowsActive

/-- The left edge of the place of the active column is in view, and no gesture moves the view. -/
structure Steady (s : ScrollingSpace) : Prop extends s.Fits where
  isDndScroll : s.viewOffset.isDndScroll = false
  left : s.viewOffset.target + s.workingArea.loc.x ≤ 0

theorem AtRest.steady (hs : s.AtRest) : s.Steady := by
  obtain ⟨c, -, hshown⟩ := showsActive_iff.mp hs.shown
  refine ⟨hs.toFits, ?_, hshown.1⟩
  have hgesture := hs.gesture
  cases hv : s.viewOffset with
  | static o => rfl
  | animation a => rfl
  | gesture g => simp [hv, ViewOffset.isGesture] at hgesture

theorem AtRest.columns_ne_nil (hs : s.AtRest) : s.columns ≠ [] := by
  obtain ⟨c, hc, -⟩ := hs.shown
  exact fun hnil => by simp [activeColumn, hnil] at hc

/-- A view at the offset has room for a column of a width. -/
def HasRoom (area : Rectangle) (o w : ℚ) : Prop := w < area.size.w → w ≤ o + area.loc.x + area.size.w

theorem scrolledIntoView_kept (hs : s.Steady) (hc : t.activeColumn = some c)
    (harea : t.workingArea = s.workingArea) (htarget : t.viewOffset.target = s.viewOffset.target) :
    t.ScrolledIntoView ↔ HasRoom s.workingArea s.viewOffset.target c.actualWidth := by
  rw [scrolledIntoView_iff hc, harea, htarget]
  exact imp_congr_right fun _ => and_iff_right hs.left

theorem workingArea_makeRoom (s : ScrollingSpace) (n : ℕ) :
    (s.makeRoom n).workingArea = s.workingArea := by
  unfold makeRoom
  dsimp only
  split
  · rfl
  · rfl

/-- The view offset that is computed for a column that is inserted at another index. -/
def offsetOnInsertion (s : ScrollingSpace) (idx : ℕ) (column : Column) : ℚ :=
  (s.insertColumn idx column).computeNewViewOffsetForColumn none idx (some s.activeColumnIdx)

/-- The added column is in view: at the index of the active one nothing is scrolled, and elsewhere
only the size of a column that is not normal is an obstacle. -/
def AddedInView (s : ScrollingSpace) (idx : ℕ) (column : Column) : Prop :=
  if idx = s.activeColumnIdx
  then HasRoom s.workingArea s.viewOffset.target (s.adopt column).actualWidth
  else column.isNormal = false → (s.adopt column).actualWidth < s.workingArea.size.w →
    Contains s.workingArea (s.offsetOnInsertion idx column) (s.adopt column).actualWidth

theorem fits_insertColumn {column : Column} (hs : s.Fits) (hnormal : column.isNormal = true) :
    (s.insertColumn n column).Fits := by
  refine hs.of_subset rfl fun b hb => ?_
  have hmap : (s.insertColumn n column).columns.map (·.isNormal) =
      (s.columns.map (·.isNormal)).insertIdx n (s.adopt column).isNormal := List.map_insertIdx ..
  rw [hmap] at hb
  rcases List.eq_or_mem_of_mem_insertIdx hb with rfl | hb
  · exact .inl (Column.isNormal_updateConfig.trans hnormal)
  · exact .inr hb

theorem scrolledIntoView_addColumn {idx : Option ℕ} {column : Column} (hs : s.Steady)
    (hne : s.columns ≠ []) (h : s.addColumn idx column true = some s') :
    s'.ScrolledIntoView ↔ s.AddedInView (s.insertionIdx idx) column := by
  obtain ⟨hn, u, hu, rfl, hidx, hoffset, -⟩ := addColumn_cases hne h
  generalize s.insertionIdx idx = n at *
  have hget : (s.insertColumn n column).columns[n]? = some (s.adopt column) := by
    show (s.columns.insertIdx n (s.adopt column))[n]? = _
    rw [List.getElem?_insertIdx_self, if_pos hn]
  have hc : u.activeColumn = some (s.adopt column) := by
    unfold activeColumn
    rw [hu.columns, hidx, List.getElem?_insertIdx_self, if_pos hn]
  have harea : (u.makeRoom n).workingArea = s.workingArea :=
    (workingArea_makeRoom ..).trans hu.workingArea
  have hview := congrArg ViewOffset.target ((viewOffset_makeRoom u n).trans hoffset)
  unfold AddedInView
  by_cases hna : n = s.activeColumnIdx
  · subst hna
    rw [if_pos rfl]
    have hself : (s.insertColumn s.activeColumnIdx column).activateColumn s.activeColumnIdx =
        s.insertColumn s.activeColumnIdx column := activateColumn_self hs.isDndScroll
    rw [hself] at hview
    exact scrolledIntoView_kept hs ((activeColumn_makeRoom ..).trans hc) harea hview
  · rw [if_neg hna]
    have htarget : (u.makeRoom n).viewOffset.target = s.offsetOnInsertion n column := by
      rw [hview, activateColumn_of_ne (s := s.insertColumn n column) fun hidx => hna hidx.symm]
      exact target_animateViewOffset ..
    rw [scrolledIntoView_iff ((activeColumn_makeRoom ..).trans hc), harea, htarget]
    refine ⟨fun hshown _ => hshown, fun hshown hw => ?_⟩
    cases hnormal : column.isNormal with
    | false => exact hshown hnormal hw
    | true =>
      exact contains_computeNewViewOffsetForColumn (fits_insertColumn hs.toFits hnormal) hget hw ..

theorem scrolledIntoView_animateViewOffsetToColumn (hs : s.Fits) (x : Option ℚ) (prev : Option ℕ) :
    (s.animateViewOffsetToColumn x s.activeColumnIdx prev).ScrolledIntoView := by
  intro c hc hw
  refine showsActive_iff.mpr ⟨c, hc, ?_⟩
  unfold animateViewOffsetToColumn
  rw [target_animateViewOffset]
  exact contains_computeNewViewOffsetForColumn hs hc hw ..

theorem map_columnTaken {β : Type} {f : Column → β}
    (hf : ∀ (c : Column) (m : Option MoveAnimation), f { c with moveAnimation := m } = f c)
    (hc : s.columns[n]? = some c) :
    (s.columnTaken n c).columns.map f = (s.columns.map f).eraseIdx n := by
  have hmap := map_removeColumnByIdx hf (removeColumnByIdx_eq hc)
  rwa [columns_refocusAfterRemoval] at hmap

theorem length_columnTaken (hc : s.columns[n]? = some c) :
    (s.columnTaken n c).columns.length = s.columns.length - 1 := by
  have hmap := congrArg List.length (map_columnTaken uid_ignores_animation hc)
  rwa [List.length_map, List.length_eraseIdx_of_lt (by simpa using lt_length_of_getElem? hc),
    List.length_map] at hmap

/-- Taking out the active column leaves the view where it was for now. -/
theorem columnTaken_active (s : ScrollingSpace) (c : Column) :
    (s.columnTaken s.activeColumnIdx c).activeColumnIdx = s.activeColumnIdx ∧
      (s.columnTaken s.activeColumnIdx c).viewOffset = s.viewOffset ∧
      (s.columnTaken s.activeColumnIdx c).workingArea = s.workingArea ∧
      (s.columnTaken s.activeColumnIdx c).activatePrevColumnOnRemoval =
        s.activatePrevColumnOnRemoval := by
  obtain ⟨cs, heq⟩ := s.columnTaken_eq s.activeColumnIdx c
  rw [heq]
  exact ⟨rfl, rfl, rfl, if_neg (Nat.succ_ne_self _)⟩

theorem fits_columnTaken (hs : s.Fits) (hc : s.columns[n]? = some c) : (s.columnTaken n c).Fits := by
  obtain ⟨cs, heq⟩ := s.columnTaken_eq n c
  refine hs.of_subset (by rw [heq]; rfl) fun b hb => ?_
  rw [map_columnTaken (fun _ _ => rfl) hc] at hb
  exact .inr (List.mem_of_mem_eraseIdx hb)

/-- The column that comes to the index of the one that is taken. -/
theorem columnTaken_next (hc : s.columns[n]? = some c) (hd : s.columns[n + 1]? = some d) :
    ∃ d', (s.columnTaken n c).columns[n]? = some d' ∧ d'.actualWidth = d.actualWidth := by
  have hmap : (s.columnTaken n c).columns.map (·.actualWidth) = _ :=
    map_columnTaken (fun _ _ => rfl) hc
  have hget := congrArg (·[n]?) hmap
  simp only [List.getElem?_map, List.getElem?_eraseIdx_of_ge (Nat.le_refl n), hd] at hget
  obtain ⟨d', hd', hwidth⟩ := of_map hget
  exact ⟨d', hd', hwidth⟩

theorem scrolledIntoView_removeColumnByIdx (hs : s.Steady)
    (h : s.removeColumnByIdx s.activeColumnIdx = some (c, s')) :
    s'.ScrolledIntoView ↔ (s.activatePrevColumnOnRemoval = none ∨ s.activeColumnIdx = 0 →
      ∀ d, s.columns[s.activeColumnIdx + 1]? = some d →
        HasRoom s.workingArea s.viewOffset.target d.actualWidth) := by
  obtain ⟨hc, rfl⟩ := removeColumnByIdx_taken h
  have hfits := fits_columnTaken hs.toFits hc
  have hnext (d : Column) := columnTaken_next (d := d) hc
  obtain ⟨hidx, hoffset, harea, hprev⟩ := s.columnTaken_active c
  have hlen := length_columnTaken hc
  have hlt := lt_length_of_getElem? hc
  -- Nothing is done about the view.
  have hkept (hall : s.activatePrevColumnOnRemoval = none ∨ s.activeColumnIdx = 0)
      (hmore : s.activeColumnIdx + 1 < s.columns.length) :
      (s.columnTaken s.activeColumnIdx c).ScrolledIntoView ↔
        (s.activatePrevColumnOnRemoval = none ∨ s.activeColumnIdx = 0 →
          ∀ d, s.columns[s.activeColumnIdx + 1]? = some d →
            HasRoom s.workingArea s.viewOffset.target d.actualWidth) := by
    obtain ⟨d', hd', hwidth⟩ := hnext _ (List.getElem?_eq_getElem hmore)
    rw [scrolledIntoView_kept hs (c := d') (by unfold activeColumn; rwa [hidx]) harea
      (congrArg _ hoffset), hwidth]
    constructor
    · rintro hroom - d hd
      rwa [Option.some.inj (hd.symm.trans (List.getElem?_eq_getElem hmore))]
    · exact fun hroom => hroom hall _ (List.getElem?_eq_getElem hmore)
  generalize s.columnTaken s.activeColumnIdx c = u at *
  unfold refocusAfterRemoval
  rw [hidx, if_neg (lt_irrefl _), if_pos rfl, hprev]
  by_cases hnil : u.columns = []
  · have hone : s.columns[s.activeColumnIdx + 1]? = none := by
      rw [hnil, List.length_nil] at hlen
      exact List.getElem?_eq_none (by omega)
    rw [if_pos hnil]
    refine iff_of_true (fun d hd => ?_) fun _ d hd => ?_
    · simp [activeColumn, hnil] at hd
    · simp [hone] at hd
  · have hpos := List.length_pos_iff.mpr hnil
    rw [if_neg hnil]
    cases hp : s.activatePrevColumnOnRemoval with
    | some p =>
      dsimp only
      by_cases hzero : s.activeColumnIdx = 0
      · rw [if_neg (by omega)]
        rw [hp] at hkept
        exact hkept (.inr hzero) (by omega)
      · rw [if_pos (Nat.pos_of_ne_zero hzero)]
        refine iff_of_true (scrolledIntoView_animateViewOffsetToColumn ?_ _ _) ?_
        · exact hfits.of_map (options_activateColumn ..)
            (congrArg (List.map (·.isNormal)) (columns_activateColumn ..))
        · rintro (hnone | hfirst)
          · cases hnone
          · exact absurd hfirst hzero
    | none =>
      dsimp only
      rw [hp] at hkept
      by_cases hmore : s.activeColumnIdx + 1 < s.columns.length
      · have hdnd : u.viewOffset.isDndScroll = false := hoffset ▸ hs.isDndScroll
        rw [min_eq_left (by omega), ← hidx, activateColumn_self hdnd, hidx]
        exact hkept (.inl rfl) hmore
      · refine iff_of_true (scrolledIntoView_activateColumn hfits (by omega)) fun _ d hd => ?_
        exact absurd (lt_length_of_getElem? hd) hmore

end Macniri.Layout.ScrollingSpace
