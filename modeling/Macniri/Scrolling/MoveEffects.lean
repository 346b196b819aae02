import Macniri.Lib.Run
import Macniri.Scrolling.ViewEffects

/-! Moving columns, and windows between columns. -/
namespace Macniri.Layout.ScrollingSpace

open List Option

variable {s s' t : ScrollingSpace} {near : Bool} {i : ℕ} {c c' : Column}

/-! Moving a column. -/

/-- The columns in another order. -/
theorem Core.reorder (h : s.Core) {cs : List Column} {ds : List ColumnData}
    (hperm : cs.Perm s.columns) (hdata : ds = cs.map ColumnData.new) :
    ({ s with columns := cs, data := ds } : ScrollingSpace).Core := by
  have hids : ({ s with columns := cs, data := ds } : ScrollingSpace).windowIds.Perm s.windowIds :=
    (hperm.map Column.windowIds).flatten
  exact ⟨hdata, fun c hc => h.columns c (hperm.mem_iff.mp hc),
    fun c hc => h.options c (hperm.mem_iff.mp hc), fun r hr => hids.mem_iff.mpr (h.resize r hr),
    hids.nodup_iff.mpr h.ids, (hperm.map _).nodup_iff.mpr h.uids,
    fun c hc => h.uid_lt c (hperm.mem_iff.mp hc)⟩

theorem like_animateColumnMove (s : ScrollingSpace) (oldIdx newIdx : ℕ) (x y : ℚ) :
    s.Like (s.animateColumnMove oldIdx newIdx x y) := by
  unfold animateColumnMove
  dsimp only
  split
  · exact (s.like_viewOffset _).trans ((like_animateColumns ..).trans (like_animateColumns ..))
  · exact (s.like_viewOffset _).trans ((like_animateColumns ..).trans (like_animateColumns ..))

theorem columns_cancelResizeForColumn (hc : s.columns[i]? = some c) :
    (s.cancelResizeForColumn i).columns = s.columns.set i c.cancelResize := by
  unfold cancelResizeForColumn
  rw [hc]
  rfl

theorem data_cancelResizeForColumn (s : ScrollingSpace) (i : ℕ) :
    (s.cancelResizeForColumn i).data = s.data := by
  unfold cancelResizeForColumn
  split <;> rfl

theorem activeColumnIdx_cancelResizeForColumn (s : ScrollingSpace) (i : ℕ) :
    (s.cancelResizeForColumn i).activeColumnIdx = s.activeColumnIdx := by
  unfold cancelResizeForColumn
  split <;> rfl

theorem Inv.data_getElem? (hs : s.Inv) (hc : s.columns[i]? = some c) :
    s.data[i]? = some (ColumnData.new c) := by
  simp [hs.data, hc]

/-- The active column goes to another index and stays focused. -/
theorem tame_reorderColumn {j : ℕ} {d : ColumnData} (hc : s.columns[s.activeColumnIdx]? = some c)
    (hd : s.data[s.activeColumnIdx]? = some d) (hne : s.activeColumnIdx ≠ j)
    (hj : j < s.columns.length) (hlike : (s.reorderColumn s.activeColumnIdx j c d).Like t) :
    Tame near s (t.activateColumn j) := by
  have hperm : (s.reorderColumn s.activeColumnIdx j c d).columns.Perm s.columns := perm_move hc hj
  have hidx : (s.reorderColumn s.activeColumnIdx j c d).activeColumnIdx ≠ j := hne
  have hfocus := (hlike.focusOn j).trans (t.like_activateColumn j)
  refine .of_clear (fun hs => hfocus.inv (Core.inv_focusOn ?_ ?_)) (hfocus.prev.trans ?_)
    (hfocus.restore.trans ?_)
  · obtain rfl : d = ColumnData.new c := some.inj (hd.symm.trans (hs.data_getElem? hc))
    refine hs.toCore.reorder hperm ?_
    rw [hs.data, map_insertIdx, eraseIdx_map]
  · rw [hperm.length_eq]
    exact hj
  · simp [focusOn, hidx]
  · simp [focusOn, hidx]

theorem tame_moveColumnTo {newIdx : ℕ} (hlt : newIdx < s.columns.length) :
    Tame near s (s.moveColumnTo newIdx) := by
  unfold moveColumnTo
  dsimp only
  split
  · exact .refl s
  · rename_i hne
    split
    · rename_i column data hcol hdata
      have hidx := activeColumnIdx_cancelResizeForColumn s s.activeColumnIdx
      have hcols := columns_cancelResizeForColumn hcol
      have hmove := like_animateColumnMove ((s.cancelResizeForColumn s.activeColumnIdx).reorderColumn
        s.activeColumnIdx newIdx column.cancelResize data) s.activeColumnIdx newIdx
        (s.columnX s.activeColumnIdx) (s.columnX (s.activeColumnIdx + 1))
      refine (tame_cancelResizeForColumn s s.activeColumnIdx).trans
        (tame_reorderColumn (c := column.cancelResize) (d := data) ?_ ?_ ?_ ?_ ?_)
      · rw [hidx, hcols, getElem?_set_self (lt_length_of_getElem? hcol)]
      · rw [hidx, data_cancelResizeForColumn]
        exact hdata
      · rw [hidx]
        exact hne
      · rw [hcols, length_set]
        exact hlt
      · rw [hidx]
        exact hmove
    · exact .refl s

theorem tame_moveColumnToIndex (s : ScrollingSpace) (index : ℕ) :
    Tame near s (s.moveColumnToIndex index) := by
  unfold moveColumnToIndex
  split
  · exact .refl s
  · rename_i he
    have := length_pos_iff.mpr (mt List.isEmpty_iff.mpr he)
    exact tame_moveColumnTo (by omega)

theorem tame_moveLeft (hs : s.Inv) : Tame near s s.moveLeft := by
  unfold moveLeft
  split
  · exact .refl s
  · rename_i h0
    have := hs.active (fun he => h0 (hs.empty he))
    exact tame_moveColumnTo (by omega)

theorem tame_moveRight (s : ScrollingSpace) : Tame near s s.moveRight := by
  unfold moveRight
  split
  · exact .refl s
  · exact tame_moveColumnTo (by omega)

theorem tame_moveColumnToFirst (hs : s.Inv) : Tame near s s.moveColumnToFirst := by
  by_cases he : s.columns = []
  · unfold moveColumnToFirst moveColumnTo
    dsimp only
    rw [if_pos (hs.empty he)]
    exact .refl s
  · exact tame_moveColumnTo (length_pos_iff.mpr he)

theorem tame_moveColumnToLast (s : ScrollingSpace) : Tame near s s.moveColumnToLast := by
  unfold moveColumnToLast
  split
  · exact .refl s
  · rename_i he
    have := length_pos_iff.mpr (mt List.isEmpty_iff.mpr he)
    exact tame_moveColumnTo (by omega)

/-! Opening a column: adding and activating it. -/

/-- Unless nothing is stored, the active column is new and stands right of the one that was active
before. -/
def Opened (s s' : ScrollingSpace) : Prop :=
  s'.activatePrevColumnOnRemoval = none ∨
    ∃ u p, s'.activeUid = some u ∧ s.activeUid = some p ∧ s'.leftUid = some p ∧
      u ∉ s.columns.map (·.uid)

theorem Opened.of_uids (h : Opened t s') (hidx : t.activeColumnIdx = s.activeColumnIdx)
    (huids : t.columns.map (·.uid) = s.columns.map (·.uid)) : Opened s s' := by
  rcases h with hnone | ⟨u, p, hu, hp, hleft, hnew⟩
  · exact .inl hnone
  · refine .inr ⟨u, p, hu, ?_, hleft, huids ▸ hnew⟩
    have hget := congrArg (·[s.activeColumnIdx]?) huids
    simp only [getElem?_map] at hget
    unfold activeUid activeColumn at hp ⊢
    rw [← hget, ← hidx]
    exact hp

theorem Like.leftUid (h : s.Like s') : s'.leftUid = s.leftUid := by
  have hget := congrArg (·[s.activeColumnIdx - 1]?) h.uids
  simp only [getElem?_map] at hget
  unfold ScrollingSpace.leftUid
  rw [h.active, hget]

theorem Opened.trans_like (h : Opened s t) (hlike : t.Like s') : Opened s s' := by
  rcases h with hnone | ⟨u, p, hu, hp, hleft, hnew⟩
  · exact .inl (hlike.prev.trans hnone)
  · exact .inr ⟨u, p, hlike.activeUid.trans hu, hp, hlike.leftUid.trans hleft, hnew⟩

/-- What opening a column keeps, if the view offset to restore does not land on a normal one. -/
structure Opens (s s' : ScrollingSpace) (restores : Prop) : Prop where
  inv : s'.Inv
  restore : s.RestoreOk → restores → s'.RestoreOk
  prev : s'.PrevOk
  opened : Opened s s'

theorem Opens.trans_like {P : Prop} (h : Opens s t P) (hlike : t.Like s') : Opens s s' P :=
  ⟨hlike.inv h.inv, fun hr hp => hlike.restoreOk (h.restore hr hp),
    fun hsome => hlike.active.symm ▸ h.prev (hlike.prev ▸ hsome), h.opened.trans_like hlike⟩

theorem opens_inserted (hs : s.Inv) (hi : i ≤ s.columns.length) (hc : c.Wf)
    (hfresh : ∀ w ∈ c.windowIds, w ∉ s.windowIds) :
    Opens s (s.inserted i c true) (s.viewOffsetToRestore.isSome → i = s.activeColumnIdx →
      c.isNormal = false) := by
  have hidx : (s.inserted i c true).activeColumnIdx = i := by simp [inserted]
  have hactive : (s.inserted i c true).activeColumn = some (s.adopt c) := by
    unfold activeColumn
    rw [columns_inserted, hidx, getElem?_insertIdx_self, if_pos hi]
  refine ⟨hs.inserted hi hc hfresh true, fun hr hrestores hsome => ?_, fun hsome => ?_, ?_⟩
  · have hold : s.viewOffsetToRestore.isSome ∧ i = s.activeColumnIdx := by
      by_cases he : s.activeColumnIdx = i
      · simpa [inserted, focusOn, insertColumn, he] using hsome
      · simp [inserted, focusOn, insertColumn, he] at hsome
    exact ⟨_, hactive, Column.isNormal_updateConfig.trans (hrestores hold.1 hold.2)⟩
  · rw [hidx]
    by_cases he : s.columns ≠ [] ∧ i = s.activeColumnIdx + 1
    · omega
    · simp [inserted, he] at hsome
  · by_cases he : s.columns ≠ [] ∧ i = s.activeColumnIdx + 1
    · obtain ⟨hne, rfl⟩ := he
      have hlt := hs.active hne
      refine .inr ⟨s.nextUid, s.columns[s.activeColumnIdx].uid, ?_, ?_, ?_, ?_⟩
      · unfold activeUid
        rw [hactive]
        rfl
      · unfold activeUid activeColumn
        rw [getElem?_eq_getElem hlt]
        rfl
      · unfold leftUid
        rw [hidx, columns_inserted, if_neg (Nat.succ_ne_zero _), Nat.add_sub_cancel,
          getElem?_insertIdx_of_lt (Nat.lt_succ_self _), getElem?_eq_getElem hlt]
        rfl
      · intro hmem
        obtain ⟨d, hd, heq⟩ := List.mem_map.mp hmem
        exact absurd (hs.uid_lt d hd) (by omega)
    · exact .inl (by simp [inserted, he])

theorem opens_addColumn (hs : s.Inv) {idx : Option ℕ} (hc : c.Wf)
    (hfresh : ∀ w ∈ c.windowIds, w ∉ s.windowIds) (h : s.addColumn idx c true = some s') :
    Opens s s' (s.viewOffsetToRestore.isSome → s.insertionIdx idx = s.activeColumnIdx →
      c.isNormal = false) := by
  obtain ⟨hi, hlike⟩ := addColumn_spec h
  exact (opens_inserted hs hi hc hfresh).trans_like hlike

theorem opens_addTile (hs : s.Inv) {idx : Option ℕ} {tile : Tile} {width : ColumnWidth}
    {isFullWidth : Bool} (hfresh : tile.id ∉ s.windowIds)
    (h : s.addTile idx tile true width isFullWidth = some s') :
    Opens s s' (s.viewOffsetToRestore.isSome → s.insertionIdx idx = s.activeColumnIdx →
      tile.sizingMode ≠ .normal) := by
  have hopens := opens_addColumn hs (Column.wf_newWithTile ..)
    (by rw [Column.windowIds_newWithTile]; simpa using hfresh) h
  refine ⟨hopens.inv, fun hr hp => hopens.restore hr fun hsome hidx => ?_, hopens.prev,
    hopens.opened⟩
  rw [Column.isNormal_newWithTile]
  simpa using hp hsome hidx

/-! Consuming and expelling windows. -/

theorem fresh_of_removed (hs : s.Inv) {tileIdx : ℕ} {r : RemovedTile}
    (h : s.removeTileByIdx i tileIdx = some (r, s')) : r.tile.id ∉ s'.windowIds :=
  (nodup_cons.mp ((removeTileByIdx_perm h).nodup_iff.mp hs.ids)).1

/-- A column that keeps other tiles stays where it is. -/
theorem removeTileByIdx_keeps {tileIdx : ℕ} {r : RemovedTile} (hc : s.columns[i]? = some c)
    (hlen : c.tiles.length ≠ 1) (h : s.removeTileByIdx i tileIdx = some (r, s')) :
    s'.activeColumnIdx = s.activeColumnIdx ∧
      s'.columns.map (·.uid) = s.columns.map (·.uid) := by
  obtain ⟨c', hc', -, -, -, hcases⟩ := removeTileByIdx_spec h
  obtain rfl := some.inj (hc.symm.trans hc')
  rcases hcases with ⟨h1, -⟩ | ⟨-, hlike⟩
  · exact absurd h1 hlen
  · exact ⟨hlike.active, hlike.uids.trans (map_set_of_eq hc Column.uid_removeTile)⟩

/-- The column that a window shares with others, and would be expelled from. -/
def expelSource (s : ScrollingSpace) (window : Option ℕ) : Option ℕ := do
  let (colIdx, _) ← s.windowOrActive window
  let col ← s.columns[colIdx]?
  if col.tiles.length = 1 then none else some colIdx

/-- Whether the window is the active one. -/
def isActiveTile (s : ScrollingSpace) (window : Option ℕ) : Bool :=
  (s.windowOrActive window).any fun (colIdx, tileIdx) =>
    (s.columns[colIdx]?).any fun col =>
      s.activeColumnIdx == colIdx && col.activeTileIdx == tileIdx

theorem expelSource_eq {window : Option ℕ} {tileIdx : ℕ}
    (hw : s.windowOrActive window = some (i, tileIdx)) (hc : s.columns[i]? = some c) :
    s.expelSource window = if c.tiles.length = 1 then none else some i := by
  simp [expelSource, hw, hc]

theorem isActiveTile_eq {window : Option ℕ} {tileIdx : ℕ}
    (hw : s.windowOrActive window = some (i, tileIdx)) (hc : s.columns[i]? = some c) :
    s.isActiveTile window = (s.activeColumnIdx == i && c.activeTileIdx == tileIdx) := by
  simp [isActiveTile, hw, hc]

theorem tame_clearPrev (s : ScrollingSpace) :
    Tame near s { s with activatePrevColumnOnRemoval := none } :=
  ⟨fun h => h.withFlags none s.viewOffsetToRestore, fun _ hr => hr,
    fun _ _ => ⟨fun h => by simp at h, .inl rfl⟩⟩

/-- A tile moves out of its column and into another column. -/
theorem tame_moveTile (hs : s.Inv) {tileIdx j : ℕ} {r : RemovedTile} {k : Option ℕ}
    {activate : Bool} (hremove : s.removeTileByIdx i tileIdx = some (r, t))
    (hadd : t.addTileToColumn j k r.tile activate = some s') : Tame near s s' :=
  (tame_removeTileByIdx hremove).trans (tame_addTileToColumn (fresh_of_removed hs hremove) hadd)

/-- A tile moves out of a column with other tiles, into a column of its own. -/
theorem tame_expelTile (hs : s.Inv) {tileIdx j : ℕ} {r : RemovedTile} {width : ColumnWidth}
    {isFullWidth : Bool} (hc : s.columns[i]? = some c) (hlen : c.tiles.length ≠ 1)
    (hremove : s.removeTileByIdx i tileIdx = some (r, t))
    (hadd : t.addTile (some j) r.tile false width isFullWidth = some s')
    (hnear : near = false → j ≠ s.activeColumnIdx) : Tame near s s' := by
  refine (tame_removeTileByIdx hremove).trans (tame_addTile (fresh_of_removed hs hremove) ?_ hadd)
  rw [(removeTileByIdx_keeps hc hlen hremove).1]
  exact fun hn _ => hnear hn

theorem opens_expelTile (hs : s.Inv) {tileIdx j : ℕ} {r : RemovedTile} {width : ColumnWidth}
    {isFullWidth : Bool} (hc : s.columns[i]? = some c) (hlen : c.tiles.length ≠ 1)
    (hremove : s.removeTileByIdx i tileIdx = some (r, t))
    (hadd : t.addTile (some j) r.tile true width isFullWidth = some s') :
    Opens s s' (t.viewOffsetToRestore.isSome → j = s.activeColumnIdx →
      r.tile.sizingMode ≠ .normal) := by
  have htame : Tame true s t := tame_removeTileByIdx hremove
  obtain ⟨hidx, huids⟩ := removeTileByIdx_keeps hc hlen hremove
  have hopens := opens_addTile (htame.inv hs) (fresh_of_removed hs hremove) hadd
  refine ⟨hopens.inv, fun hr hp => hopens.restore (htame.restore hs hr) ?_, hopens.prev,
    hopens.opened.of_uids hidx huids⟩
  rw [hidx]
  exact hp

theorem consumeOrExpelWindowRight_cases (hs : s.Inv) {window : Option ℕ}
    (h : s.consumeOrExpelWindowRight window = some s') :
    Tame ((s.expelSource window).any (· + 1 == s.activeColumnIdx)) s s' ∨
      ((s.expelSource window).isSome ∧ s.isActiveTile window ∧ Opens s s' True) := by
  unfold consumeOrExpelWindowRight at h
  split at h
  · obtain rfl := some.inj h
    exact .inl (.refl s)
  · obtain ⟨⟨colIdx, tileIdx⟩, hw, h⟩ := of_bind h
    obtain ⟨col, hc, h⟩ := of_bind h
    dsimp only at h
    rw [expelSource_eq hw hc, isActiveTile_eq hw hc]
    split at h
    · rename_i hlen
      split at h
      · obtain rfl := some.inj h
        exact .inl (.refl s)
      · obtain ⟨⟨r, t⟩, hremove, h⟩ := of_bind h
        refine .inl ?_
        split at hremove
        · exact (tame_clearPrev s).trans
            (tame_moveTile (hs.withFlags none s.viewOffsetToRestore) hremove h)
        · exact tame_moveTile hs hremove h
    · rename_i hlen
      obtain ⟨⟨r, t⟩, hremove, h⟩ := of_bind h
      simp only [hlen, if_false, any_some, isSome_some, true_and]
      cases hactive : s.activeColumnIdx == colIdx && col.activeTileIdx == tileIdx with
      | false =>
        rw [hactive] at h
        exact .inl (tame_expelTile hs hc hlen hremove h (by simp))
      | true =>
        rw [hactive] at h
        have hopens := opens_expelTile hs hc hlen hremove h
        have heq : s.activeColumnIdx = colIdx := by simpa using (Bool.and_eq_true_iff.mp hactive).1
        exact .inr ⟨rfl, hopens.inv, fun hr _ => hopens.restore hr (by omega), hopens.prev,
          hopens.opened⟩

/-- With the offset of the previous column stored, removing the active column focuses it. -/
theorem prev_refocused (hc : s.columns[i]? = some c) (hi : i = s.activeColumnIdx) (h0 : 0 < i)
    (hsome : s.activatePrevColumnOnRemoval.isSome) :
    ((s.dropColumn i c).refocused i).activatePrevColumnOnRemoval = none := by
  have hlen : (s.dropColumn i c).columns.length = s.columns.length - 1 :=
    length_eraseIdx_of_lt (lt_length_of_getElem? hc)
  have hlt := lt_length_of_getElem? hc
  have hne : (s.dropColumn i c).columns ≠ [] := ne_nil_of_length_pos (by omega)
  have hidx : (s.dropColumn i c).activeColumnIdx = s.activeColumnIdx := rfl
  have hprev : (s.dropColumn i c).activatePrevColumnOnRemoval = s.activatePrevColumnOnRemoval := by
    simp [dropColumn, show i + 1 ≠ s.activeColumnIdx by omega]
  unfold refocused
  rw [if_neg hne, if_neg (by omega), if_pos ⟨hi, hprev ▸ hsome⟩, if_pos h0]
  unfold focusOn
  rw [if_neg (by omega)]

theorem Kept.none_of_none (h : Kept near s s') (hnone : s.activatePrevColumnOnRemoval = none) :
    s'.activatePrevColumnOnRemoval = none := by
  rcases h with h | ⟨h, -⟩
  · exact h
  · exact h.trans hnone

/-- The only tile of the active column moves into the column to the left. -/
theorem tame_consumeLeft (hs : s.Inv) {x : Option ℚ} {tileIdx j : ℕ} {r : RemovedTile}
    {k : Option ℕ} {activate : Bool} (hx : x.isSome) (hc : s.columns[i]? = some c)
    (hlen : c.tiles.length = 1) (hi : i = s.activeColumnIdx) (h0 : 0 < i)
    (hremove : ({ s with activatePrevColumnOnRemoval := x } : ScrollingSpace).removeTileByIdx i
      tileIdx = some (r, t))
    (hadd : t.addTileToColumn j k r.tile activate = some s') : Tame near s s' := by
  have hs1 : ({ s with activatePrevColumnOnRemoval := x } : ScrollingSpace).Inv :=
    hs.withFlags x s.viewOffsetToRestore
  have htame : Tame near { s with activatePrevColumnOnRemoval := x } s' :=
    tame_moveTile hs1 hremove hadd
  have hnone : t.activatePrevColumnOnRemoval = none := by
    obtain ⟨c', hc', -, -, -, hcases⟩ := removeTileByIdx_spec hremove
    obtain rfl := some.inj (hc.symm.trans hc')
    rcases hcases with ⟨-, hlike⟩ | ⟨h1, -⟩
    · exact hlike.prev.trans (prev_refocused (s := { s with activatePrevColumnOnRemoval := x })
        hc hi h0 hx)
    · exact absurd hlen h1
  have hadded : Tame near t s' := tame_addTileToColumn (fresh_of_removed hs1 hremove) hadd
  have hkept := (hadded.prev (hs1.removeTileByIdx hremove) (fun h => by simp [hnone] at h)).2
  have hnone' := hkept.none_of_none hnone
  exact ⟨fun _ => htame.inv hs1, fun _ hr => htame.restore hs1 hr,
    fun _ _ => ⟨fun h => by simp [hnone'] at h, .inl hnone'⟩⟩

def activeTile (s : ScrollingSpace) : Option Tile := do
  let col ← s.activeColumn
  col.tiles[col.activeTileIdx]?

/-- A removal never stores a view offset to restore. -/
theorem restore_of_removeTileByIdx {tileIdx : ℕ} {r : RemovedTile} (hc : s.columns[i]? = some c)
    (hlen : c.tiles.length ≠ 1) (h : s.removeTileByIdx i tileIdx = some (r, s'))
    (hsome : s'.viewOffsetToRestore.isSome) : s.viewOffsetToRestore.isSome := by
  obtain ⟨c', hc', -, -, -, hcases⟩ := removeTileByIdx_spec h
  obtain rfl := some.inj (hc.symm.trans hc')
  rcases hcases with ⟨h1, -⟩ | ⟨-, hlike⟩
  · exact absurd h1 hlen
  · rw [hlike.restore] at hsome
    dsimp only at hsome
    split at hsome
    · simp at hsome
    · exact hsome

theorem consumeOrExpelWindowLeft_cases (hs : s.Inv) {window : Option ℕ}
    (h : s.consumeOrExpelWindowLeft window = some s') :
    Tame (s.expelSource window == some s.activeColumnIdx && !s.isActiveTile window) s s' ∨
      (s.expelSource window = some s.activeColumnIdx ∧ s.isActiveTile window ∧ s'.Inv ∧
        s'.activatePrevColumnOnRemoval = none ∧
        (s.RestoreOk → (s.viewOffsetToRestore.isSome →
          s.activeTile.all (·.sizingMode != .normal)) → s'.RestoreOk)) := by
  unfold consumeOrExpelWindowLeft at h
  split at h
  · obtain rfl := some.inj h
    exact .inl (.refl s)
  · obtain ⟨⟨colIdx, tileIdx⟩, hw, h⟩ := of_bind h
    obtain ⟨col, hc, h⟩ := of_bind h
    dsimp only at h
    rw [expelSource_eq hw hc, isActiveTile_eq hw hc]
    split at h
    · rename_i hlen
      split at h
      · obtain rfl := some.inj h
        exact .inl (.refl s)
      · rename_i h0
        obtain ⟨⟨r, t⟩, hremove, h⟩ := of_bind h
        refine .inl ?_
        split at hremove
        · rename_i hactive
          have heq : s.activeColumnIdx = colIdx := by
            simpa using (Bool.and_eq_true_iff.mp hactive).1
          exact tame_consumeLeft hs (by cases s.activatePrevColumnOnRemoval <;> rfl) hc hlen
            heq.symm (Nat.pos_of_ne_zero h0) hremove h
        · exact tame_moveTile hs hremove h
    · rename_i hlen
      obtain ⟨⟨r, t⟩, hremove, h⟩ := of_bind h
      obtain ⟨u, hadd, rfl⟩ := of_bind_some h
      simp only [hlen, if_false]
      cases hactive : s.activeColumnIdx == colIdx && col.activeTileIdx == tileIdx with
      | false =>
        rw [hactive] at hadd
        refine .inl (tame_expelTile hs hc hlen hremove hadd fun hn he => ?_)
        subst he
        simp at hn
      | true =>
        rw [hactive] at hadd
        obtain ⟨heq, htile⟩ := Bool.and_eq_true_iff.mp hactive
        obtain rfl := beq_iff_eq.mp heq
        obtain rfl := beq_iff_eq.mp htile
        have hopens := opens_expelTile hs hc hlen hremove hadd
        refine .inr ⟨rfl, rfl, hopens.inv.withFlags none _, rfl, fun hr hnormal => ?_⟩
        refine hopens.restore hr fun hsome _ => ?_
        have hall := hnormal (restore_of_removeTileByIdx hc hlen hremove hsome)
        obtain ⟨c', hc', ht, -⟩ := removeTileByIdx_spec hremove
        obtain rfl := some.inj (hc.symm.trans hc')
        simpa [activeTile, activeColumn, hc, ht] using hall

theorem tame_consumeIntoColumn (hs : s.Inv) (h : s.consumeIntoColumn = some s') :
    Tame near s s' := by
  unfold consumeIntoColumn at h
  split at h
  · obtain rfl := some.inj h
    exact .refl s
  · obtain ⟨⟨r, t⟩, hremove, h⟩ := of_bind h
    exact tame_moveTile hs hremove h

theorem tame_expelFromColumn (hs : s.Inv) (h : s.expelFromColumn = some s') :
    Tame near s s' := by
  unfold expelFromColumn at h
  split at h
  · obtain rfl := some.inj h
    exact .refl s
  · obtain ⟨c, hc, h⟩ := of_bind h
    split at h
    · obtain rfl := some.inj h
      exact .refl s
    · rename_i hlen
      obtain ⟨⟨r, t⟩, hremove, h⟩ := of_bind h
      exact tame_expelTile hs hc hlen hremove h fun _ => by omega

/-! Swapping the active windows of two columns. -/

/-- How many tiles each column has. -/
def counts (s : ScrollingSpace) : List ℕ := s.columns.map (·.tiles.length)

theorem Like.counts (h : s.Like s') : s'.counts = s.counts :=
  Forall₂.map_eq h.columns fun _ _ hab => by
    simpa [Column.windowIds] using hab.ids.length_eq

theorem counts_getElem? (hc : s.columns[i]? = some c) : s.counts[i]? = some c.tiles.length := by
  simp [ScrollingSpace.counts, hc]

theorem column_of_counts {n : ℕ} (h : s.counts[i]? = some n) :
    ∃ c, s.columns[i]? = some c ∧ c.tiles.length = n := by
  simpa [ScrollingSpace.counts] using h

theorem counts_replaceColumn (s : ScrollingSpace) (i : ℕ) (c : Column) :
    (s.replaceColumn i c).counts = s.counts.set i c.tiles.length := map_set

/-- Taking a tile out of a column that has others. -/
theorem counts_removeTileByIdx {tileIdx n : ℕ} {r : RemovedTile} (hn : s.counts[i]? = some n)
    (h1 : n ≠ 1) (h : s.removeTileByIdx i tileIdx = some (r, s')) :
    s'.counts = s.counts.set i (n - 1) ∧ s'.activeColumnIdx = s.activeColumnIdx := by
  obtain ⟨c, hc, rfl⟩ := column_of_counts hn
  obtain ⟨c', hc', ht, -, -, hcases⟩ := removeTileByIdx_spec h
  obtain rfl := some.inj (hc.symm.trans hc')
  rcases hcases with ⟨hlen, -⟩ | ⟨-, hlike⟩
  · exact absurd hlen h1
  · refine ⟨hlike.counts.trans ((counts_replaceColumn s i _).trans ?_), hlike.active⟩
    have hlen : (c.removeTile tileIdx).tiles.length = c.tiles.length - 1 := by
      rw [Column.removeTile, Column.length_updateTileSizes]
      exact length_eraseIdx_of_lt (lt_length_of_getElem? ht)
    rw [hlen]

/-- Taking the only tile out of a column takes the column. -/
theorem counts_removeColumn {tileIdx : ℕ} {r : RemovedTile} (hn : s.counts[i]? = some 1)
    (h : s.removeTileByIdx i tileIdx = some (r, s')) : s'.counts = s.counts.eraseIdx i := by
  obtain ⟨c, hc, hlen⟩ := column_of_counts hn
  obtain ⟨c', hc', -, -, -, hcases⟩ := removeTileByIdx_spec h
  obtain rfl := some.inj (hc.symm.trans hc')
  rcases hcases with ⟨-, hlike⟩ | ⟨hlen', -⟩
  · rw [hlike.counts]
    simp [ScrollingSpace.counts, dropColumn, eraseIdx_map]
  · exact absurd hlen hlen'

theorem counts_addTileToColumn {k : Option ℕ} {n : ℕ} {tile : Tile} (hn : s.counts[i]? = some n)
    (h : s.addTileToColumn i k tile false = some s') :
    s'.counts = s.counts.set i (n + 1) ∧ s'.activeColumnIdx = s.activeColumnIdx := by
  obtain ⟨c, hc, rfl⟩ := column_of_counts hn
  obtain ⟨c', hc', ht, hlike⟩ := addTileToColumn_spec h
  obtain rfl := some.inj (hc.symm.trans hc')
  refine ⟨hlike.counts.trans ((counts_replaceColumn s i _).trans ?_), hlike.active⟩
  have hlen : (c.insertTile (k.getD c.tiles.length) tile false).tiles.length =
      c.tiles.length + 1 := Column.length_addTileAt ht
  rw [hlen]

theorem counts_addTile {tile : Tile} {activate : Bool} {width : ColumnWidth} {isFullWidth : Bool}
    (h : s.addTile (some i) tile activate width isFullWidth = some s') :
    s'.counts = s.counts.insertIdx i 1 ∧ (activate = true → s'.activeColumnIdx = i) := by
  obtain ⟨-, hlike⟩ := addColumn_spec h
  refine ⟨hlike.counts.trans ?_, fun ha => hlike.active.trans ?_⟩
  · unfold ScrollingSpace.counts
    rw [columns_inserted, map_insertIdx]
    refine congrArg _ ?_
    have hids : (s.adopt (Column.newWithTile tile s.viewSize s.workingArea s.parentArea s.scale
        width isFullWidth)).windowIds = [tile.id] :=
      Column.windowIds_updateConfig.trans (Column.windowIds_newWithTile ..)
    simpa [Column.windowIds] using congrArg List.length hids
  · subst ha
    simp [inserted, insertionIdx]

/-- A tile goes into a column, and another one comes out of it. -/
theorem counts_exchange {k : Option ℕ} {tileIdx n : ℕ} {tile : Tile} {r : RemovedTile}
    (hn : s.counts[i]? = some n) (h0 : 0 < n) (hadd : s.addTileToColumn i k tile false = some t)
    (hremove : t.removeTileByIdx i tileIdx = some (r, s')) :
    s'.counts = s.counts ∧ s'.activeColumnIdx = s.activeColumnIdx := by
  obtain ⟨hcounts, hidx⟩ := counts_addTileToColumn hn hadd
  have hget : t.counts[i]? = some (n + 1) := by
    rw [hcounts, getElem?_set_self (lt_length_of_getElem? hn)]
  obtain ⟨hcounts', hidx'⟩ := counts_removeTileByIdx hget (by omega) hremove
  refine ⟨?_, hidx'.trans hidx⟩
  rw [hcounts', hcounts, List.set_set, Nat.add_sub_cancel]
  exact set_self_of_getElem? hn

theorem like_setActiveTileIdx {tileIdx n : ℕ} (hn : s.counts[i]? = some n) (ht : tileIdx < n) :
    s.Like (s.setActiveTileIdx i tileIdx) := by
  obtain ⟨c, hc, rfl⟩ := column_of_counts hn
  refine ⟨?_, rfl, rfl, rfl, rfl, rfl, rfl, rfl⟩
  unfold setActiveTileIdx
  dsimp only
  rw [modify_eq_set_of_getElem? hc]
  exact forall₂_set Column.Like.refl hc (Column.like_activateIdx fun _ => ht)

/-- After a swap both columns have as many tiles as before, and the source column is active. -/
theorem tame_swapBack {a b k : ℕ} {m n : ℕ} (hab : a ≠ b)
    (hcounts : t.counts = s.counts) (hidx : t.activeColumnIdx = a) (ha : s.counts[a]? = some m)
    (hb : s.counts[b]? = some n) (hi : i < m) (hk : k < n) (hinv : t.Inv) :
    Tame near s (((t.setActiveTileIdx a i).setActiveTileIdx b k).activateColumn b) := by
  have hlike : t.Like (t.setActiveTileIdx a i) := like_setActiveTileIdx (hcounts ▸ ha) hi
  have hlike' : (t.setActiveTileIdx a i).Like ((t.setActiveTileIdx a i).setActiveTileIdx b k) :=
    like_setActiveTileIdx (by rw [hlike.counts, hcounts]; exact hb) hk
  have hfocus := ((hlike.trans hlike').focusOn b).trans (like_activateColumn _ b)
  have hlt : b < t.columns.length := by
    have := lt_length_of_getElem? (hcounts ▸ hb)
    simpa [ScrollingSpace.counts] using this
  refine .of_clear (fun _ => hfocus.inv (hinv.inv_focusOn hlt)) (hfocus.prev.trans ?_)
    (hfocus.restore.trans ?_) <;> simp [focusOn, hidx, hab]

theorem tame_swapWithColumn (hs : s.Inv) {b : ℕ} {direction : ScrollDirection}
    (hleft : direction = .left → b < s.activeColumnIdx)
    (hright : direction = .right → b = s.activeColumnIdx + 1)
    (h : s.swapWithColumn s.activeColumnIdx b direction = some s') : Tame near s s' := by
  have hne : b ≠ s.activeColumnIdx := by
    cases direction with
    | left => exact (hleft rfl).ne
    | right => simp [hright rfl]
  unfold swapWithColumn at h
  obtain ⟨source, hsource, h⟩ := of_bind h
  obtain ⟨target, htarget, h⟩ := of_bind h
  split at h
  · obtain rfl := some.inj h
    exact tame_moveColumnTo (lt_length_of_getElem? htarget)
  · rename_i hsingle
    obtain ⟨⟨r, s1⟩, h1, h⟩ := of_bind h
    obtain ⟨s2, h2, h⟩ := of_bind h
    obtain ⟨⟨q, s3⟩, h3, h⟩ := of_bind h
    obtain ⟨s4, h4, rfl⟩ := of_bind_some h
    have hm := counts_getElem? hsource
    have hn := counts_getElem? htarget
    have hwm := hs.columns source (mem_of_getElem? hsource)
    have hwn := hs.columns target (mem_of_getElem? htarget)
    have hs1 := hs.removeTileByIdx h1
    have hs3 := (hs1.addTileToColumn (fresh_of_removed hs h1) h2).removeTileByIdx h3
    have hfresh := fresh_of_removed (hs1.addTileToColumn (fresh_of_removed hs h1) h2) h3
    unfold addSwapped at h4
    by_cases hdrained : source.tiles.length = 1
    · -- The source column goes with its tile and is created again for the other one.
      have hcounts := counts_removeColumn (hdrained ▸ hm) h1
      simp only [hdrained, beq_self_eq_true, if_true, and_true] at h2 h3 h4
      have hadj : s1.counts[if direction = .right then b - 1 else b]? = some target.tiles.length := by
        rw [hcounts]
        cases direction with
        | left =>
          rw [if_neg (by simp), getElem?_eraseIdx_of_lt (hleft rfl)]
          exact hn
        | right =>
          obtain rfl := hright rfl
          rw [if_pos rfl, Nat.add_sub_cancel, getElem?_eraseIdx_of_ge (Nat.le_refl _)]
          exact hn
      obtain ⟨hex, -⟩ := counts_exchange hadj hwn.length_pos h2 h3
      obtain ⟨hadd, hidx⟩ := counts_addTile h4
      refine tame_swapBack hne.symm ?_ (hidx rfl) hm hn hwm.active hwn.active
        (hs3.addTile hfresh h4)
      rw [hadd, hex, hcounts]
      exact insertIdx_eraseIdx_self (hdrained ▸ hm)
    · have hcounts := counts_removeTileByIdx hm hdrained h1
      simp only [beq_iff_eq, hdrained, and_false, if_false] at h2 h3 h4
      have hget : s1.counts[b]? = some target.tiles.length := by
        rw [hcounts.1, getElem?_set_ne hne.symm]
        exact hn
      obtain ⟨hex, hidx⟩ := counts_exchange hget hwn.length_pos h2 h3
      have hget' : s3.counts[s.activeColumnIdx]? = some (source.tiles.length - 1) := by
        rw [hex, hcounts.1, getElem?_set_self (lt_length_of_getElem? hm)]
      obtain ⟨hadd, hidx'⟩ := counts_addTileToColumn hget' h4
      refine tame_swapBack hne.symm ?_ (hidx'.trans (hidx.trans hcounts.2)) hm hn hwm.active
        hwn.active (hs3.addTileToColumn hfresh h4)
      have hpos := hwm.length_pos
      rw [hadd, hex, hcounts.1, List.set_set, Nat.sub_add_cancel hpos]
      exact set_self_of_getElem? hm

theorem tame_swapWindowInDirection (hs : s.Inv) {direction : ScrollDirection}
    (h : s.swapWindowInDirection direction = some s') : Tame near s s' := by
  unfold swapWindowInDirection at h
  split at h
  · obtain rfl := some.inj h
    exact .refl s
  · dsimp only at h
    cases direction with
    | left =>
      dsimp only at h
      split at h
      · obtain rfl := some.inj h
        exact .refl s
      · exact tame_swapWithColumn hs (fun _ => by omega) (by simp) h
    | right =>
      dsimp only at h
      split at h
      · obtain rfl := some.inj h
        exact .refl s
      · exact tame_swapWithColumn hs (by simp) (fun _ => rfl) h

end Macniri.Layout.ScrollingSpace
