import Macniri.Scrolling.ActiveWindow
import Macniri.Scrolling.Step

/-! Operations on other windows leave the active window of a scrolling space active: every index is
repaired, also where a window leaves its column for another one. -/
namespace Macniri.Layout

open Option List

namespace Column

variable {c : Column} {j : ℕ} {tile : Tile}

/-- A tile that is put in the background of a column. -/
theorem activeId_insertTile_false (c : Column) (j : ℕ) (tile : Tile) :
    (c.insertTile j tile false).activeId = c.activeId := by
  have hidx : (c.insertTile j tile false).activeTileIdx =
      if j ≤ c.activeTileIdx then c.activeTileIdx + 1 else c.activeTileIdx := rfl
  unfold activeId
  rw [hidx, windowIds_insertTile]
  split
  · rw [getElem?_insertIdx_of_gt (by omega), Nat.add_sub_cancel]
  · rw [getElem?_insertIdx_of_lt (by omega)]

theorem activeId_insertTile_true (hj : j ≤ c.tiles.length) :
    (c.insertTile j tile true).activeId = some tile.id := by
  have hidx : (c.insertTile j tile true).activeTileIdx = j := rfl
  have hlen : c.windowIds.length = c.tiles.length := length_map ..
  unfold activeId
  rw [hidx, windowIds_insertTile, getElem?_insertIdx_self, if_pos (by omega)]

end Column

namespace ScrollingSpace

variable {s s' t : ScrollingSpace} {i j k w a : ℕ} {c : Column} {r : RemovedTile} {tile : Tile}
variable {idx tileIdx : Option ℕ} {activate isFullWidth : Bool} {width : ColumnWidth}

/-! Adding to a column. -/

theorem activeId_addTileToColumn_false
    (h : s.addTileToColumn i tileIdx tile false = some s') : s'.activeId = s.activeId := by
  obtain ⟨c, hc, -, hlike⟩ := addTileToColumn_spec h
  obtain ⟨d, hd, -, hfoci⟩ := map_addTileToColumn activeId_ignores_animation h
  obtain rfl := some.inj (hc.symm.trans hd)
  have hactive : s'.activeColumnIdx = s.activeColumnIdx := hlike.active
  refine activeId_congr (hfoci.trans ?_) hactive
  rw [← map_set]
  exact map_set_of_eq hc (Column.activeId_insertTile_false c _ tile)

theorem activeId_addTileToColumn_true
    (h : s.addTileToColumn i tileIdx tile true = some s') : s'.activeId = some tile.id := by
  obtain ⟨c, hc, hle, hlike⟩ := addTileToColumn_spec h
  obtain ⟨d, hd, -, hfoci⟩ := map_addTileToColumn activeId_ignores_animation h
  obtain rfl := some.inj (hc.symm.trans hd)
  have hactive : s'.activeColumnIdx = i := hlike.active.trans (activeColumnIdx_focusOn ..)
  have hlt : i < (s.columns.map Column.activeId).length := by
    rw [length_map]
    exact lt_length_of_getElem? hc
  unfold activeId foci
  rw [hfoci, hactive, getElem?_set_self hlt, Column.activeId_insertTile_true hle]
  rfl

theorem exists_addTileToColumn_of_le (hc : s.columns[i]? = some c)
    (tileIdx : Option ℕ) (hle : tileIdx.getD c.tiles.length ≤ c.tiles.length) (tile : Tile)
    (activate : Bool) : ∃ s', s.addTileToColumn i tileIdx tile activate = some s' := by
  unfold addTileToColumn
  rw [hc]
  dsimp only [bind_eq_bind, bind_some]
  rw [if_neg (by omega)]
  exact ⟨_, rfl⟩

/-! Adding columns. -/

theorem exists_addColumn (hidx : s.insertionIdx idx ≤ s.columns.length) (column : Column)
    (activate : Bool) : ∃ s', s.addColumn idx column activate = some s' := by
  unfold addColumn
  rw [if_neg (by omega)]
  exact ⟨_, rfl⟩

theorem activeId_addColumn_false (hs : s.Inv) (hne : s.columns ≠ []) {column : Column}
    (h : s.addColumn idx column false = some s') : s'.activeId = s.activeId := by
  have hfoci : s'.foci = s.foci.insertIdx _ _ := map_addColumn activeId_ignores_animation h
  obtain ⟨hle, hlike⟩ := addColumn_spec h
  have hidx := hlike.active.trans (activeColumnIdx_inserted ..)
  have hlt := hs.active hne
  unfold activeId
  rw [hfoci, hidx, activeIdxInserted, if_neg (by simp)]
  by_cases hi : s.insertionIdx idx ≤ s.activeColumnIdx
  · rw [if_pos ⟨hne, hi⟩, getElem?_insertIdx_of_gt (by omega)]
    rfl
  · rw [if_neg fun h => hi h.2, getElem?_insertIdx_of_lt (by omega)]

/-! Moving a window between columns. -/

/-- A window is taken out and put back somewhere else, with the focus if it had it. -/
theorem activeId_moved (hs : s.Inv) (hc : s.columns[i]? = some c)
    (hremove : s.removeTileByIdx i k = some (r, t))
    (hmoved : s'.activeId = if s.activeColumnIdx == i && c.activeTileIdx == k then some r.tile.id
      else t.activeId) : s'.activeId = s.activeId := by
  rw [hmoved]
  split
  · rename_i hactive
    obtain ⟨hi, hk⟩ := Bool.and_eq_true_iff.mp hactive
    obtain rfl := beq_iff_eq.mp hi
    obtain rfl := beq_iff_eq.mp hk
    obtain ⟨d, hd, htile, -⟩ := removeTileByIdx_spec hremove
    obtain rfl := some.inj (hc.symm.trans hd)
    exact (activeId_of_tile hc htile).symm
  · rename_i hother
    refine activeId_removeTileByIdx hs hc (fun h => hother ?_) hremove
    obtain ⟨rfl, rfl⟩ := h
    simp

theorem length_removeTileByIdx (hc : s.columns[i]? = some c)
    (h : s.removeTileByIdx i k = some (r, t)) :
    t.columns.length = if c.tiles.length = 1 then s.columns.length - 1 else s.columns.length := by
  have hlen := congrArg List.length (map_removeTileByIdx activeId_ignores_animation hc h)
  rw [length_map] at hlen
  rw [hlen]
  split
  · rw [length_eraseIdx_of_lt (by simpa using lt_length_of_getElem? hc), length_map]
  · rw [length_set, length_map]

theorem exists_removeTileByIdx_of_tile (hc : s.columns[i]? = some c) (ht : c.tiles[k]? = some tile) :
    ∃ r t, s.removeTileByIdx i k = some (r, t) := by
  unfold removeTileByIdx removeColumnByIdx
  rw [hc]
  dsimp only [bind_eq_bind, bind_some, pure]
  rw [ht]
  split <;> exact ⟨_, _, rfl⟩

/-- Into the column next to it. -/
theorem exists_consumed (hs : s.Inv) (hc : s.columns[i]? = some c)
    (hremove : s.removeTileByIdx i k = some (r, t)) (hj : j < t.columns.length) :
    ∃ s', t.addTileToColumn j none r.tile (s.activeColumnIdx == i && c.activeTileIdx == k) = some s' ∧
      s'.activeId = s.activeId := by
  obtain ⟨s', hadd⟩ := exists_addTileToColumn_of_le (getElem?_eq_getElem hj) none le_rfl
    r.tile (s.activeColumnIdx == i && c.activeTileIdx == k)
  refine ⟨s', hadd, activeId_moved hs hc hremove ?_⟩
  cases hactive : s.activeColumnIdx == i && c.activeTileIdx == k with
  | true =>
    rw [hactive] at hadd
    exact activeId_addTileToColumn_true hadd
  | false =>
    rw [hactive] at hadd
    exact activeId_addTileToColumn_false hadd

/-- Into a column of its own. -/
theorem exists_expelled (hs : s.Inv) (hc : s.columns[i]? = some c) (hlen : c.tiles.length ≠ 1)
    (hremove : s.removeTileByIdx i k = some (r, t)) (hj : j ≤ s.columns.length) :
    ∃ s', t.addTile (some j) r.tile (s.activeColumnIdx == i && c.activeTileIdx == k) r.width
        r.isFullWidth = some s' ∧
      s'.activeId = s.activeId ∧ s'.columns.length = s.columns.length + 1 := by
  have hcolumns := length_removeTileByIdx hc hremove
  rw [if_neg hlen] at hcolumns
  have hne : t.columns ≠ [] := by
    refine ne_nil_of_length_pos ?_
    rw [hcolumns]
    exact Nat.zero_lt_of_lt (lt_length_of_getElem? hc)
  have hidx : t.insertionIdx (some j) ≤ t.columns.length := hcolumns ▸ hj
  obtain ⟨s', hadd⟩ := exists_addColumn hidx
    (Column.newWithTile r.tile t.viewSize t.workingArea t.parentArea t.scale r.width r.isFullWidth)
    (s.activeColumnIdx == i && c.activeTileIdx == k)
  refine ⟨s', hadd, activeId_moved hs hc hremove ?_, ?_⟩
  · cases hactive : s.activeColumnIdx == i && c.activeTileIdx == k with
    | true =>
      rw [hactive] at hadd
      exact activeId_addTile_true hadd
    | false =>
      rw [hactive] at hadd
      exact activeId_addTile_false (hs.removeTileByIdx hremove) hne hadd
  · have hfoci := congrArg List.length (foci_addTile hadd)
    have hidx' : t.insertionIdx (some j) ≤ t.foci.length := by simpa [foci] using hidx
    rw [length_insertIdx_of_le_length hidx'] at hfoci
    simpa [foci, hcolumns] using hfoci

theorem exists_windowOrActive (hs : s.Inv) (hne : s.columns ≠ []) (window : Option ℕ)
    (hw : ∀ w, window = some w → w ∈ s.windowIds) :
    ∃ p c tile, s.windowOrActive window = some p ∧ s.columns[p.1]? = some c ∧
      c.tiles[p.2]? = some tile := by
  obtain ⟨p, hp⟩ : ∃ p, s.windowOrActive window = some p := by
    cases window with
    | none =>
      have hactive := getElem?_eq_getElem (hs.active hne)
      exact ⟨_, by rw [windowOrActive, activeColumn, hactive]; rfl⟩
    | some w =>
      obtain ⟨ws, hws, hwin⟩ := mem_flatten.mp (hw w rfl)
      obtain ⟨c, hc, rfl⟩ := List.mem_map.mp hws
      obtain ⟨i, hi⟩ := getElem?_of_mem hc
      have hcontains := Column.mem_windowIds.mp hwin
      obtain ⟨k, hk⟩ := position_isSome hcontains
      exact ⟨(i, k), by rw [windowOrActive, findWindow_eq hs.ids hi hcontains, hk]; rfl⟩
  obtain ⟨c, hc, hk⟩ := windowOrActive_spec hs hp
  exact ⟨p, c, c.tiles[p.2], hp, hc, getElem?_eq_getElem hk⟩

/-- The flags for the removal of the active column do not matter for the focus. -/
theorem exists_consumed_flags (hs : s.Inv) (prev : Option ℚ) (hc : s.columns[i]? = some c)
    (ht : c.tiles[0]? = some tile) (hlen : c.tiles.length = 1) (hj : j < s.columns.length - 1) :
    ∃ r t s', removeTileByIdx { s with activatePrevColumnOnRemoval := prev } i 0 = some (r, t) ∧
      t.addTileToColumn j none r.tile (s.activeColumnIdx == i && c.activeTileIdx == 0) = some s' ∧
      s'.activeId = s.activeId := by
  have hs' := hs.withFlags prev s.viewOffsetToRestore
  have hc' : { s with activatePrevColumnOnRemoval := prev }.columns[i]? = some c := hc
  obtain ⟨r, t, hremove⟩ := exists_removeTileByIdx_of_tile hc' ht
  have hcolumns := length_removeTileByIdx hc' hremove
  rw [if_pos hlen] at hcolumns
  obtain ⟨s', hadd, hactive⟩ := exists_consumed hs' hc' hremove (hcolumns ▸ hj)
  exact ⟨r, t, s', hremove, hadd, hactive⟩

theorem exists_consumeOrExpelWindowLeft (hs : s.Inv) (window : Option ℕ)
    (hw : ∀ w, window = some w → w ∈ s.windowIds) :
    ∃ s', s.consumeOrExpelWindowLeft window = some s' ∧ s'.activeId = s.activeId := by
  unfold consumeOrExpelWindowLeft
  split
  · exact ⟨s, rfl, rfl⟩
  · rename_i hne
    obtain ⟨⟨i, k⟩, c, tile, hp, hc, ht⟩ := exists_windowOrActive hs (by simpa using hne) window hw
    have hi := lt_length_of_getElem? hc
    rw [hp]
    dsimp only [bind_eq_bind, bind_some]
    rw [hc]
    dsimp only [bind_some]
    split
    · rename_i hlen
      split
      · exact ⟨s, rfl, rfl⟩
      · obtain rfl : k = 0 := by
          have := lt_length_of_getElem? ht
          omega
        generalize hu : (if (s.activeColumnIdx == i && c.activeTileIdx == 0) = true then _ else s) = u
        obtain ⟨prev, rfl⟩ : ∃ prev, u = { s with activatePrevColumnOnRemoval := prev } := by
          subst hu
          split
          · exact ⟨_, rfl⟩
          · exact ⟨s.activatePrevColumnOnRemoval, rfl⟩
        obtain ⟨r, t, s', hremove, hadd, hactive⟩ :=
          exists_consumed_flags (j := i - 1) hs prev hc ht hlen (by omega)
        rw [hremove]
        exact ⟨s', hadd, hactive⟩
    · rename_i hlen
      obtain ⟨r, t, hremove⟩ := exists_removeTileByIdx_of_tile hc ht
      obtain ⟨s', hadd, hactive, -⟩ := exists_expelled (j := i) hs hc hlen hremove hi.le
      rw [hremove]
      dsimp only [bind_some]
      rw [hadd]
      refine ⟨_, rfl, Eq.trans ?_ hactive⟩
      split <;> rfl

theorem exists_consumeOrExpelWindowRight (hs : s.Inv) (window : Option ℕ)
    (hw : ∀ w, window = some w → w ∈ s.windowIds) :
    ∃ s', s.consumeOrExpelWindowRight window = some s' ∧ s'.activeId = s.activeId ∧
      ∀ p c, s.windowOrActive window = some p → s.columns[p.1]? = some c → c.tiles.length ≠ 1 →
        s'.columns.length = s.columns.length + 1 := by
  unfold consumeOrExpelWindowRight
  split
  · rename_i hnil
    refine ⟨s, rfl, rfl, fun p c _ hc => ?_⟩
    simp [List.isEmpty_iff.mp hnil] at hc
  · rename_i hne
    obtain ⟨⟨i, k⟩, c, tile, hp, hc, ht⟩ := exists_windowOrActive hs (by simpa using hne) window hw
    have hi := lt_length_of_getElem? hc
    rw [hp]
    dsimp only [bind_eq_bind, bind_some]
    rw [hc]
    dsimp only [bind_some]
    split
    · rename_i hlen
      have hmany (s' : ScrollingSpace) (p : ℕ × ℕ) (d : Column) (hp' : some (i, k) = some p)
          (hd : s.columns[p.1]? = some d) (hone : d.tiles.length ≠ 1) :
          s'.columns.length = s.columns.length + 1 := by
        obtain rfl := some.inj hp'
        obtain rfl := some.inj (hc.symm.trans hd)
        exact absurd hlen hone
      split
      · exact ⟨s, rfl, rfl, hmany s⟩
      · obtain rfl : k = 0 := by
          have := lt_length_of_getElem? ht
          omega
        generalize hu : (if (s.activeColumnIdx == i && c.activeTileIdx == 0) = true then _ else s) = u
        obtain ⟨prev, rfl⟩ : ∃ prev, u = { s with activatePrevColumnOnRemoval := prev } := by
          subst hu
          split
          · exact ⟨_, rfl⟩
          · exact ⟨s.activatePrevColumnOnRemoval, rfl⟩
        obtain ⟨r, t, s', hremove, hadd, hactive⟩ :=
          exists_consumed_flags (j := i) hs prev hc ht hlen (by omega)
        rw [hremove]
        exact ⟨s', hadd, hactive, hmany s'⟩
    · rename_i hlen
      obtain ⟨r, t, hremove⟩ := exists_removeTileByIdx_of_tile hc ht
      obtain ⟨s', hadd, hactive, hcolumns⟩ := exists_expelled (j := i + 1) hs hc hlen hremove hi
      rw [hremove]
      exact ⟨s', hadd, hactive, fun _ _ _ _ _ => hcolumns⟩

theorem exists_consumeIntoColumn (hs : s.Inv) :
    ∃ s', s.consumeIntoColumn = some s' ∧ s'.activeId = s.activeId := by
  unfold consumeIntoColumn
  split
  · exact ⟨s, rfl, rfl⟩
  · rename_i hmore
    have hactive := hs.active (ne_nil_of_length_pos (by omega))
    have hnext : s.activeColumnIdx + 1 < s.columns.length := by omega
    have hc := getElem?_eq_getElem hnext
    have hwf := hs.columns _ (getElem_mem hnext)
    obtain ⟨r, t, hremove⟩ := exists_removeTileByIdx_of_tile hc
      (getElem?_eq_getElem (length_pos_iff.mpr hwf.nonempty))
    have hlen := length_removeTileByIdx hc hremove
    have htarget : s.activeColumnIdx < t.columns.length := by
      rw [hlen]
      split <;> omega
    obtain ⟨s', hadd⟩ := exists_addTileToColumn_of_le (getElem?_eq_getElem htarget) none le_rfl
      r.tile false
    rw [hremove]
    refine ⟨s', hadd, (activeId_addTileToColumn_false hadd).trans ?_⟩
    exact activeId_removeTileByIdx hs hc (by omega) hremove

/-! Fullscreen and maximized windows. -/

theorem exists_setPending {isPending : Column → Bool} {set : Column → Bool → Column} {enable : Bool}
    (hs : s.Inv) (hw : w ∈ s.windowIds) : ∃ s', setPending isPending set s w enable = some s' := by
  obtain ⟨ws, hws, hwin⟩ := mem_flatten.mp hw
  obtain ⟨c, hc, rfl⟩ := List.mem_map.mp hws
  obtain ⟨i, hi⟩ := getElem?_of_mem hc
  have hcontains := Column.mem_windowIds.mp hwin
  have hlt := lt_length_of_getElem? hi
  unfold setPending
  rw [findIdx?_contains_eq hs.ids hi hcontains]
  dsimp only [bind_eq_bind, bind_some]
  rw [hi]
  dsimp only [bind_some]
  split
  · exact ⟨s, rfl⟩
  · have hcancel := replaced_cancelResize hi (hs.data_getElem? hi)
    have hlen : (s.cancelResizeForColumn i).columns.length = s.columns.length := by
      simpa [foci] using congrArg List.length (foci_cancelResizeForColumn s i)
    unfold extractWindow
    cases hmust : mustExtract c enable with
    | false =>
      rw [if_neg Bool.false_ne_true, if_neg Bool.false_ne_true]
      dsimp only [bind_some]
      rw [getElem?_eq_getElem (hlen ▸ hlt)]
      exact ⟨_, rfl⟩
    | true =>
      have htame : Tame false s (s.cancelResizeForColumn i) := tame_cancelResizeForColumn s i
      have hs' := htame.inv hs
      have hcontains' : c.cancelResize.contains w :=
        Column.mem_windowIds.mp (hcancel.kin.ids.mem_iff.mpr hwin)
      obtain ⟨t, ht, -, hcolumns⟩ := exists_consumeOrExpelWindowRight hs' (some w)
        fun v hv => some.inj hv ▸
          mem_windowIds_of_column hcancel.new (Column.mem_windowIds.mpr hcontains')
      obtain ⟨k, hk⟩ := position_isSome hcontains'
      have hfind : (s.cancelResizeForColumn i).windowOrActive (some w) = some (i, k) := by
        rw [windowOrActive, findWindow_eq hs'.ids hcancel.new hcontains', hk]
        rfl
      have hmany : c.cancelResize.tiles.length ≠ 1 := by
        simp only [mustExtract, Bool.and_eq_true, decide_eq_true_eq] at hmust
        have hsame : c.cancelResize.tiles.length = c.tiles.length := length_map _
        omega
      have hnext : i + 1 < t.columns.length := by
        rw [hcolumns _ _ hfind hcancel.new hmany, hlen]
        omega
      rw [if_pos rfl, if_pos rfl, ht]
      dsimp only [bind_some]
      rw [getElem?_eq_getElem hnext]
      exact ⟨_, rfl⟩

/-- Whatever is done to the other windows, and wherever, the active window stays active; consuming or
expelling it takes the focus along. -/
theorem other_windows_keep_focus (hs : s.Inv) (ha : s.activeId = some a) :
    (∀ idx tile width isFullWidth, s.insertionIdx idx ≤ s.columns.length →
      ∃ s', s.addTile idx tile false width isFullWidth = some s' ∧ s'.activeId = some a) ∧
    (∀ idx column, s.insertionIdx idx ≤ s.columns.length →
      ∃ s', s.addColumn idx column false = some s' ∧ s'.activeId = some a) ∧
    (∀ i c tileIdx tile, s.columns[i]? = some c → tileIdx.getD c.tiles.length ≤ c.tiles.length →
      ∃ s', s.addTileToColumn i tileIdx tile false = some s' ∧ s'.activeId = some a) ∧
    ∀ w ∈ s.windowIds,
      (∀ tile width isFullWidth,
        ∃ s', s.addTileRightOf w tile false width isFullWidth = some s' ∧ s'.activeId = some a) ∧
      (∃ s', s.consumeOrExpelWindowLeft (some w) = some s' ∧ s'.activeId = some a) ∧
      (∃ s', s.consumeOrExpelWindowRight (some w) = some s' ∧ s'.activeId = some a) ∧
      (∃ s', s.consumeOrExpelWindowLeft none = some s' ∧ s'.activeId = some a) ∧
      (∃ s', s.consumeOrExpelWindowRight none = some s' ∧ s'.activeId = some a) ∧
      (∃ s', s.consumeIntoColumn = some s' ∧ s'.activeId = some a) ∧
      ∀ enable, (∃ s', s.setFullscreen w enable = some s' ∧ s'.activeId = some a) ∧
        ∃ s', s.setMaximized w enable = some s' ∧ s'.activeId = some a := by
  have hne : s.columns ≠ [] := (activeId_isSome_iff hs).mp (ha ▸ rfl)
  have hcolumn (idx column) (hidx : s.insertionIdx idx ≤ s.columns.length) :
      ∃ s', s.addColumn idx column false = some s' ∧ s'.activeId = some a := by
    obtain ⟨s', h⟩ := exists_addColumn hidx column false
    exact ⟨s', h, (activeId_addColumn_false hs hne h).trans ha⟩
  refine ⟨fun idx tile width isFullWidth hidx => hcolumn idx _ hidx, hcolumn,
    fun i c tileIdx tile hc hle => ?_, fun w hw => ⟨fun tile width isFullWidth => ?_, ?_, ?_, ?_, ?_,
      ?_, fun enable => ⟨?_, ?_⟩⟩⟩
  · obtain ⟨s', h⟩ := exists_addTileToColumn_of_le hc tileIdx hle tile false
    exact ⟨s', h, (activeId_addTileToColumn_false h).trans ha⟩
  · obtain ⟨ws, hws, hwin⟩ := mem_flatten.mp hw
    obtain ⟨c, hc, rfl⟩ := List.mem_map.mp hws
    obtain ⟨i, hi⟩ := getElem?_of_mem hc
    unfold addTileRightOf
    rw [findIdx?_contains_eq hs.ids hi (Column.mem_windowIds.mp hwin)]
    exact hcolumn (some (i + 1)) _ (lt_length_of_getElem? hi)
  · exact ha ▸ exists_consumeOrExpelWindowLeft hs (some w) fun v hv => some.inj hv ▸ hw
  · obtain ⟨s', h, hactive, -⟩ :=
      exists_consumeOrExpelWindowRight hs (some w) fun v hv => some.inj hv ▸ hw
    exact ⟨s', h, hactive.trans ha⟩
  · exact ha ▸ exists_consumeOrExpelWindowLeft hs none nofun
  · obtain ⟨s', h, hactive, -⟩ := exists_consumeOrExpelWindowRight hs none nofun
    exact ⟨s', h, hactive.trans ha⟩
  · exact ha ▸ exists_consumeIntoColumn hs
  · obtain ⟨s', h⟩ := exists_setPending hs hw
    exact ⟨s', h, (activeId_setFullscreen hs h).trans ha⟩
  · obtain ⟨s', h⟩ := exists_setPending hs hw
    exact ⟨s', h, (activeId_setMaximized hs h).trans ha⟩

theorem other_windows_keep_focus_three : ∃ s,
    run step testSpace [openOp 1, openOp 2, openOp 3] = some s ∧ s.activeId = some 3 ∧
    (∃ s', s.addTile (some 0) (testTile 4) false (.proportion (1 / 2)) false = some s' ∧
      s'.activeId = some 3) ∧
    (∃ s', s.consumeOrExpelWindowRight (some 2) = some s' ∧ s'.activeId = some 3) ∧
    ∃ s', s.setFullscreen 2 true = some s' ∧ s'.activeId = some 3 := by
  have hrun : (run step testSpace [openOp 1, openOp 2, openOp 3]).any
      (fun s => s.activeId == some 3 && decide (2 ∈ s.windowIds)) := by
    decide +kernel
  obtain ⟨s, hs, hp⟩ := (Option.any_eq_true _ _).mp hrun
  simp only [Bool.and_eq_true, beq_iff_eq, decide_eq_true_eq] at hp
  obtain ⟨ha, hw⟩ := hp
  obtain ⟨htile, -, -, hother⟩ := other_windows_keep_focus (inv_run inv_new hs) ha
  obtain ⟨-, -, hright, -, -, -, hpending⟩ := hother 2 hw
  exact ⟨s, hs, ha, htile (some 0) (testTile 4) _ _ (Nat.zero_le _), hright, (hpending true).1⟩

end ScrollingSpace

end Macniri.Layout
