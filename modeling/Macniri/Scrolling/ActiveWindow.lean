import Macniri.Scrolling.Columns
import Macniri.Scrolling.Windows

/-! Which window of a scrolling space is active, before and after the operations that must not
change it. -/
namespace Macniri.Layout

open List Option

namespace Column

variable {c c' : Column}

/-- The window that is active in the column. -/
def activeId (c : Column) : Option ℕ := c.windowIds[c.activeTileIdx]?

theorem activeId_eq (h : c'.windowIds = c.windowIds) (hidx : c'.activeTileIdx = c.activeTileIdx) :
    c'.activeId = c.activeId := by
  unfold activeId
  rw [h, hidx]

theorem activeId_updateTileSizes (c : Column) : c.updateTileSizes.activeId = c.activeId :=
  activeId_eq (windowIds_updateTileSizes c) (activeTileIdx_updateTileSizes c)

theorem activeId_setFullscreen (c : Column) (enable : Bool) :
    (c.setFullscreen enable).activeId = c.activeId := by
  unfold setFullscreen
  split
  · rfl
  · exact activeId_updateTileSizes _

theorem activeId_setMaximized (c : Column) (enable : Bool) :
    (c.setMaximized enable).activeId = c.activeId := by
  unfold setMaximized
  split
  · rfl
  · exact activeId_updateTileSizes _

theorem activeId_cancelResize (c : Column) : c.cancelResize.activeId = c.activeId := by
  refine activeId_eq ?_ rfl
  simp [windowIds, cancelResize, Function.comp_def]

theorem activeId_updateConfig (c : Column) (viewSize : Size) (workingArea parentArea : Rectangle)
    (scale : ℚ) (options : Options) :
    (c.updateConfig viewSize workingArea parentArea scale options).activeId = c.activeId := by
  refine activeId_eq windowIds_updateConfig ?_
  unfold updateConfig
  dsimp only
  split
  · rw [activeTileIdx_updateTileSizes]
  · rfl

theorem activeId_newWithTile (tile : Tile) (viewSize : Size) (workingArea parentArea : Rectangle)
    (scale : ℚ) (width : ColumnWidth) (isFullWidth : Bool) :
    (newWithTile tile viewSize workingArea parentArea scale width isFullWidth).activeId =
      some tile.id := by
  have hadd : ((emptyFor tile viewSize workingArea parentArea scale width isFullWidth).addTileAt 0
      tile).activeId = some tile.id := by
    unfold activeId
    rw [activeTileIdx_addTileAt, windowIds_addTileAt]
    rfl
  unfold newWithTile
  cases tile.window.pendingSizingMode with
  | normal => exact hadd
  | maximized => exact (activeId_setMaximized _ true).trans hadd
  | fullscreen => exact (activeId_setFullscreen _ true).trans hadd

/-- Removing another tile leaves the active one active. -/
theorem activeId_removeTile {k : ℕ} (hk : k ≠ c.activeTileIdx) :
    (c.removeTile k).activeId = c.activeId := by
  have hidx : (c.removeTile k).activeTileIdx =
      if k < c.activeTileIdx then c.activeTileIdx - 1 else c.activeTileIdx := by
    unfold removeTile
    rw [activeTileIdx_updateTileSizes]
    simp [hk]
  unfold activeId
  rw [hidx, windowIds_removeTile, getElem?_eraseIdx]
  split
  · rw [if_neg (by omega), Nat.sub_add_cancel (by omega)]
  · rw [if_pos (by omega)]

end Column

namespace ScrollingSpace

variable {s s' t : ScrollingSpace} {i w : ℕ} {c : Column}

/-- The active windows of all columns. -/
def foci (s : ScrollingSpace) : List (Option ℕ) := s.columns.map Column.activeId

def activeId (s : ScrollingSpace) : Option ℕ := (s.foci[s.activeColumnIdx]?).join

theorem activeWindow_id (s : ScrollingSpace) : s.activeWindow.map Window.id = s.activeId := by
  unfold activeWindow activeId foci activeColumn Column.activeId
  rw [getElem?_map]
  cases s.columns[s.activeColumnIdx]? with
  | none => rfl
  | some c =>
    simp only [some_bind, map_some, join_some]
    rw [Column.windowIds, getElem?_map]
    cases c.tiles[c.activeTileIdx]? <;> rfl

theorem activeId_congr (hfoci : s'.foci = s.foci)
    (hidx : s'.activeColumnIdx = s.activeColumnIdx) : s'.activeId = s.activeId := by
  unfold activeId
  rw [hfoci, hidx]

theorem activeId_of_getElem? (hc : s.columns[s.activeColumnIdx]? = some c) :
    s.activeId = c.activeId := by
  unfold activeId foci
  rw [getElem?_map, hc]
  rfl

theorem columns_eq_nil_iff (hs : s.Inv) : s.columns = [] ↔ s.windowIds = [] := by
  constructor
  · intro h
    simp [windowIds, arrangement, h]
  · intro h
    rcases hcols : s.columns with _ | ⟨c, cs⟩
    · rfl
    · have hwf := hs.columns c (hcols ▸ mem_cons_self ..)
      simp [windowIds, arrangement, hcols, Column.windowIds, hwf.nonempty] at h

/-- There is an active window if there are windows at all. -/
theorem activeId_isSome_iff (hs : s.Inv) : s.activeId.isSome ↔ s.columns ≠ [] := by
  constructor
  · intro h hnil
    simp [activeId, foci, hnil] at h
  · intro hne
    have hlt := hs.active hne
    have hwf := hs.columns _ (getElem_mem hlt)
    rw [activeId_of_getElem? (getElem?_eq_getElem hlt)]
    unfold Column.activeId
    simpa [Column.windowIds] using hwf.active

theorem activeId_ignores_animation (c : Column) (m : Option MoveAnimation) :
    ({ c with moveAnimation := m } : Column).activeId = c.activeId := rfl

/-! Adding. -/

theorem foci_addTile {idx : Option ℕ} {tile : Tile} {activate isFullWidth : Bool}
    {width : ColumnWidth} (h : s.addTile idx tile activate width isFullWidth = some s') :
    s'.foci = s.foci.insertIdx (s.insertionIdx idx) (some tile.id) := by
  have hcols := map_addColumn activeId_ignores_animation h
  have hadopt (c : Column) : (s.adopt c).activeId = c.activeId :=
    Column.activeId_updateConfig c s.viewSize s.workingArea s.parentArea s.scale s.options
  rw [hadopt, Column.activeId_newWithTile] at hcols
  exact hcols

theorem addTile_idx {idx : Option ℕ} {tile : Tile} {activate isFullWidth : Bool}
    {width : ColumnWidth} (h : s.addTile idx tile activate width isFullWidth = some s') :
    s.insertionIdx idx ≤ s.columns.length ∧
      s'.activeColumnIdx = s.activeIdxInserted (s.insertionIdx idx) activate := by
  obtain ⟨hle, hlike⟩ := addColumn_spec h
  exact ⟨hle, hlike.active.trans (activeColumnIdx_inserted ..)⟩

/-- A tile that is activated is the active one. -/
theorem activeId_addTile_true {idx : Option ℕ} {tile : Tile} {isFullWidth : Bool}
    {width : ColumnWidth} (h : s.addTile idx tile true width isFullWidth = some s') :
    s'.activeId = some tile.id := by
  obtain ⟨hle, hidx⟩ := addTile_idx h
  have hlen : s.insertionIdx idx ≤ s.foci.length := by simpa [foci] using hle
  unfold activeId
  rw [foci_addTile h, hidx, activeIdxInserted, if_pos rfl, getElem?_insertIdx_self, if_pos hlen]
  rfl

/-- A tile that is not activated does not change the active one. -/
theorem activeId_addTile_false (hs : s.Inv) (hne : s.columns ≠ []) {idx : Option ℕ} {tile : Tile}
    {isFullWidth : Bool} {width : ColumnWidth}
    (h : s.addTile idx tile false width isFullWidth = some s') : s'.activeId = s.activeId := by
  obtain ⟨hle, hidx⟩ := addTile_idx h
  have hlt := hs.active hne
  unfold activeId
  rw [foci_addTile h, hidx, activeIdxInserted, if_neg (by simp)]
  by_cases hi : s.insertionIdx idx ≤ s.activeColumnIdx
  · rw [if_pos ⟨hne, hi⟩, getElem?_insertIdx_of_gt (by omega)]
    rfl
  · rw [if_neg fun h => hi h.2, getElem?_insertIdx_of_lt (by omega)]

/-! Removing. -/

theorem activeIdx_removeColumnByIdx (hs : s.Inv) (hi : i ≠ s.activeColumnIdx)
    (h : s.removeColumnByIdx i = some (c, s')) :
    s'.activeColumnIdx = if i < s.activeColumnIdx then s.activeColumnIdx - 1
      else s.activeColumnIdx := by
  obtain ⟨hc, hlike⟩ := removeColumnByIdx_spec h
  have hlt := lt_length_of_getElem? hc
  have hactive := hs.active (ne_nil_of_getElem? hc)
  have hlen : (s.dropColumn i c).columns.length = s.columns.length - 1 :=
    length_eraseIdx_of_lt hlt
  have hne : (s.dropColumn i c).columns ≠ [] := ne_nil_of_length_pos (by omega)
  have hidx : (s.dropColumn i c).activeColumnIdx = s.activeColumnIdx := rfl
  rw [hlike.active]
  unfold refocused
  rw [if_neg hne, hidx]
  split
  · rfl
  · rw [if_neg fun h => hi h.1, activeColumnIdx_focusOn]
    omega

theorem activeId_removeColumnByIdx (hs : s.Inv) (hi : i ≠ s.activeColumnIdx)
    (h : s.removeColumnByIdx i = some (c, s')) : s'.activeId = s.activeId := by
  have hfoci : s'.foci = s.foci.eraseIdx i := map_removeColumnByIdx activeId_ignores_animation h
  unfold activeId
  rw [hfoci, activeIdx_removeColumnByIdx hs hi h, getElem?_eraseIdx]
  split
  · rw [if_neg (by omega), Nat.sub_add_cancel (by omega)]
  · rw [if_pos (by omega)]

/-- Removing a tile other than the active one leaves that one active. -/
theorem activeId_removeTileByIdx (hs : s.Inv) {k : ℕ} {r : RemovedTile}
    (hc : s.columns[i]? = some c) (hk : ¬ (i = s.activeColumnIdx ∧ k = c.activeTileIdx))
    (h : s.removeTileByIdx i k = some (r, s')) : s'.activeId = s.activeId := by
  have hfoci : s'.foci = _ := map_removeTileByIdx activeId_ignores_animation hc h
  obtain ⟨c', hc', htile, -, -, hcases⟩ := removeTileByIdx_spec h
  obtain rfl := some.inj (hc.symm.trans hc')
  have hklt := lt_length_of_getElem? htile
  rcases hcases with ⟨hlen, -⟩ | ⟨hlen, hlike⟩
  · -- The whole column goes; it is not the active one, whose only tile is active.
    have hi : i ≠ s.activeColumnIdx := by
      rintro rfl
      have := (hs.columns c (mem_of_getElem? hc)).active
      exact hk ⟨rfl, by omega⟩
    obtain ⟨d, hd, h⟩ := of_bind h
    obtain rfl := some.inj (hc.symm.trans hd)
    rw [if_pos hlen] at h
    obtain ⟨⟨d, t⟩, ht, h⟩ := of_bind h
    obtain ⟨tile, -, h⟩ := of_bind h
    obtain ⟨-, rfl⟩ := pair_inj h
    exact activeId_removeColumnByIdx hs hi ht
  · rw [if_neg hlen] at hfoci
    have hidx : s'.activeColumnIdx = s.activeColumnIdx := hlike.active
    unfold activeId
    rw [hfoci, hidx, getElem?_set]
    split
    · rename_i hi
      rw [if_pos (by simpa using lt_length_of_getElem? hc),
        Column.activeId_removeTile fun h => hk ⟨hi, h⟩]
      unfold foci
      rw [← hi, getElem?_map, hc]
      rfl
    · rfl

theorem activeId_of_tile {tile : Tile} (hc : s.columns[s.activeColumnIdx]? = some c)
    (ht : c.tiles[c.activeTileIdx]? = some tile) : s.activeId = some tile.id := by
  rw [activeId_of_getElem? hc, Column.activeId, Column.windowIds, getElem?_map, ht]
  rfl

theorem activeId_removeTile (hs : s.Inv) {r : RemovedTile} (hw : s.activeId ≠ some w)
    (h : s.removeTile w = some (r, s')) : s'.activeId = s.activeId := by
  obtain ⟨⟨i, k⟩, hfind, h⟩ := of_bind h
  obtain ⟨c, tile, hc, ht, hid⟩ := findWindow_spec hfind
  refine activeId_removeTileByIdx hs hc ?_ h
  rintro ⟨rfl, rfl⟩
  exact hw (hid ▸ activeId_of_tile hc ht)

/-! Fullscreen and maximized. -/

theorem findIdx?_of_findWindow {k : ℕ} (h : s.findWindow w = some (i, k)) :
    s.columns.findIdx? (·.contains w) = some i := by
  obtain ⟨i', hi, h⟩ := of_bind h
  obtain ⟨c, hc, h⟩ := of_bind h
  obtain ⟨k', hk, h⟩ := of_bind h
  obtain ⟨rfl, rfl⟩ := pair_inj h
  exact hi

theorem foci_cancelResizeForColumn (s : ScrollingSpace) (i : ℕ) :
    (s.cancelResizeForColumn i).foci = s.foci := by
  unfold cancelResizeForColumn
  split
  · rfl
  · rename_i c hc
    exact map_set_of_eq hc c.activeId_cancelResize

/-- A window that is expelled from its column is active afterwards if it was. -/
theorem activeId_expelRight (hs : s.Inv) {k : ℕ} {r : RemovedTile} {j : ℕ}
    (hc : s.columns[i]? = some c) (hlen : c.tiles.length ≠ 1)
    (hremove : s.removeTileByIdx i k = some (r, t))
    (hadd : t.addTile (some j) r.tile (s.activeColumnIdx == i && c.activeTileIdx == k) r.width
      r.isFullWidth = some s') : s'.activeId = s.activeId := by
  cases hactive : s.activeColumnIdx == i && c.activeTileIdx == k with
  | true =>
    rw [hactive] at hadd
    obtain ⟨hi, hk⟩ := Bool.and_eq_true_iff.mp hactive
    obtain rfl := beq_iff_eq.mp hi
    obtain rfl := beq_iff_eq.mp hk
    obtain ⟨c', hc', htile, -⟩ := removeTileByIdx_spec hremove
    obtain rfl := some.inj (hc.symm.trans hc')
    rw [activeId_addTile_true hadd, activeId_of_tile hc htile]
  | false =>
    rw [hactive] at hadd
    have hother : ¬ (i = s.activeColumnIdx ∧ k = c.activeTileIdx) := by
      rintro ⟨rfl, rfl⟩
      simp at hactive
    have hcols := congrArg List.length (map_removeTileByIdx activeId_ignores_animation hc hremove)
    rw [if_neg hlen, length_map, length_set, length_map] at hcols
    have hne : t.columns ≠ [] := by
      refine ne_nil_of_length_pos ?_
      rw [hcols]
      exact Nat.zero_lt_of_lt (lt_length_of_getElem? hc)
    rw [activeId_addTile_false (hs.removeTileByIdx hremove) hne hadd,
      activeId_removeTileByIdx hs hc hother hremove]

theorem activeId_extractWindow (hs : s.Inv) (hi : s.columns.findIdx? (·.contains w) = some i)
    (hc : s.columns[i]? = some c) (hlen : c.tiles.length ≠ 1) {extract : Bool}
    (h : s.extractWindow w extract = some s') : s'.activeId = s.activeId := by
  unfold extractWindow at h
  split at h
  · unfold consumeOrExpelWindowRight at h
    split at h
    · exact some.inj h ▸ rfl
    · obtain ⟨⟨i', k⟩, hfind, h⟩ := of_bind h
      obtain ⟨c', hc', h⟩ := of_bind h
      obtain rfl := some.inj (hi.symm.trans (findIdx?_of_findWindow hfind))
      obtain rfl := some.inj (hc.symm.trans hc')
      dsimp only at h
      rw [if_neg hlen] at h
      obtain ⟨⟨r, t⟩, hremove, hadd⟩ := of_bind h
      exact activeId_expelRight hs hc hlen hremove hadd
  · exact some.inj h ▸ rfl

theorem activeId_setPending {isPending : Column → Bool} {set : Column → Bool → Column} {enable : Bool}
    (hset : ∀ c b, (set c b).activeId = c.activeId) (hs : s.Inv)
    (h : setPending isPending set s w enable = some s') : s'.activeId = s.activeId := by
  obtain ⟨i, hi, h⟩ := of_bind h
  obtain ⟨c, hc, h⟩ := of_bind h
  split at h
  · exact some.inj h ▸ rfl
  · obtain ⟨t, ht, h⟩ := of_bind h
    obtain ⟨d, hd, rfl⟩ := of_bind_some h
    have hcancel : (s.cancelResizeForColumn i).activeId = s.activeId :=
      activeId_congr (foci_cancelResizeForColumn s i) (activeColumnIdx_cancelResizeForColumn s i)
    have hextract : t.activeId = (s.cancelResizeForColumn i).activeId := by
      cases hmust : mustExtract c enable with
      | false =>
        rw [hmust] at ht
        exact some.inj ht ▸ rfl
      | true =>
        have hlen : c.cancelResize.tiles.length ≠ 1 := by
          simp only [mustExtract, Bool.and_eq_true, decide_eq_true_eq] at hmust
          have hsame : c.cancelResize.tiles.length = c.tiles.length := length_map _
          omega
        have hcancelled := replaced_cancelResize hc (hs.data_getElem? hc)
        have htame : Tame false s (s.cancelResizeForColumn i) := tame_cancelResizeForColumn s i
        have hw : c.cancelResize.contains w := by
          obtain ⟨c', hc', hw⟩ := findIdx?_contains_spec hi
          obtain rfl := some.inj (hc.symm.trans hc')
          exact Column.mem_windowIds.mp (hcancelled.kin.ids.mem_iff.mpr (Column.mem_windowIds.mpr hw))
        have hs1 := htame.inv hs
        exact activeId_extractWindow hs1 (findIdx?_contains_eq hs1.ids hcancelled.new hw)
          hcancelled.new hlen ht
    rw [← hcancel, ← hextract]
    exact activeId_congr (map_set_of_eq hd (hset d enable)) rfl

theorem activeId_setFullscreen (hs : s.Inv) {enable : Bool}
    (h : s.setFullscreen w enable = some s') : s'.activeId = s.activeId :=
  activeId_setPending Column.activeId_setFullscreen hs h

theorem activeId_setMaximized (hs : s.Inv) {enable : Bool}
    (h : s.setMaximized w enable = some s') : s'.activeId = s.activeId :=
  activeId_setPending Column.activeId_setMaximized hs h

end ScrollingSpace

end Macniri.Layout
