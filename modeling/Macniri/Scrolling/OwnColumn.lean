import Macniri.Layout.Workspace
import Macniri.Lib.FirstMatch
import Macniri.Scrolling.Columns
import Macniri.Scrolling.SizingEffects

/-! A window that is alone in its column: the column follows what is asked for the window. -/
namespace Macniri.Layout

open Option List

/-- Which of the two modes are asked for. A window may ask for both. -/
structure Wishes where
  fullscreen : Bool
  maximized : Bool
  deriving DecidableEq, Repr

/-- Fullscreen comes first. -/
def Wishes.mode (w : Wishes) : SizingMode :=
  if w.fullscreen then .fullscreen else if w.maximized then .maximized else .normal

/-- What a window asks for that is known by its mode alone. -/
def Wishes.ofMode : SizingMode → Wishes
  | .normal => ⟨false, false⟩
  | .maximized => ⟨false, true⟩
  | .fullscreen => ⟨true, false⟩

@[simp] theorem Wishes.mode_ofMode (mode : SizingMode) : (Wishes.ofMode mode).mode = mode := by
  cases mode <;> rfl

theorem Wishes.mode_fullscreen {w : Wishes} : w.mode = .fullscreen ↔ w.fullscreen = true := by
  obtain ⟨f, m⟩ := w
  cases f <;> cases m <;> simp [mode]

/-- A tile that does not come back to floating and whose window is not in windowed fullscreen. -/
structure Tile.Unmarked (t : Tile) : Prop where
  restore : t.restoreToFloating = false
  windowed : t.window.isPendingWindowedFullscreen = false

theorem Tile.Unmarked.requestSize {t : Tile} (h : t.Unmarked) (size : ISize) (mode : SizingMode) :
    Unmarked { t with window := t.window.requestSize size mode } := by
  refine ⟨h.restore, ?_⟩
  show (mode != .fullscreen && t.window.isPendingWindowedFullscreen) = false
  rw [h.windowed, Bool.and_false]

namespace Column

variable {c : Column} {window : ℕ} {w : Wishes}

def wishes (c : Column) : Wishes := ⟨c.isPendingFullscreen, c.isPendingMaximized⟩

/-- The column holds this window only, and both want the same. -/
structure Own (window : ℕ) (w : Wishes) (c : Column) : Prop where
  wishes : c.wishes = w
  ids : c.windowIds = [window]
  data : c.data.length = 1
  modes : ∀ t ∈ c.tiles, t.window.pendingSizingMode = w.mode
  unmarked : ∀ t ∈ c.tiles, t.Unmarked

theorem Own.length (h : c.Own window w) : c.tiles.length = 1 := by
  simpa [windowIds] using congrArg List.length h.ids

theorem Own.contains (h : c.Own window w) : c.contains window = true := by
  rw [← mem_windowIds, h.ids]
  exact mem_singleton_self window

theorem Own.exists_tile (h : c.Own window w) : ∃ t, c.tiles = [t] ∧ t.id = window := by
  obtain ⟨t, ht⟩ := length_eq_one_iff.mp h.length
  have hids := h.ids
  rw [windowIds, ht] at hids
  exact ⟨t, ht, (List.cons.inj hids).1⟩

theorem unmarked_updateTileSizes (h : ∀ t ∈ c.tiles, t.Unmarked) :
    ∀ t ∈ c.updateTileSizes.tiles, t.Unmarked := by
  intro t ht
  unfold updateTileSizes at ht
  cases hmode : c.pendingSizingMode with
  | fullscreen =>
    simp only [hmode, List.mem_map] at ht
    obtain ⟨u, hu, rfl⟩ := ht
    exact (h u hu).requestSize ..
  | maximized =>
    simp only [hmode, List.mem_map] at ht
    obtain ⟨u, hu, rfl⟩ := ht
    exact (h u hu).requestSize ..
  | normal =>
    simp only [hmode, mem_mapIdx] at ht
    obtain ⟨i, hi, rfl⟩ := ht
    have hu := h _ (getElem_mem hi)
    split
    · exact hu.requestSize ..
    · exact hu

/-- The sizes are requested in the mode of the column. -/
theorem own_updateTileSizes (hwishes : c.wishes = w) (hids : c.windowIds = [window])
    (hdata : c.data.length = 1) (hunmarked : ∀ t ∈ c.tiles, t.Unmarked) :
    c.updateTileSizes.Own window w where
  wishes := by simpa [Column.wishes] using hwishes
  ids := by simpa using hids
  data := by simpa using hdata
  modes := by
    have hlen : c.tiles.length = 1 := by simpa [windowIds] using congrArg List.length hids
    rw [← hwishes]
    exact modes_updateTileSizes (hdata.trans hlen.symm)
  unmarked := unmarked_updateTileSizes hunmarked

theorem Own.setFullscreen (h : c.Own window w) (v : Bool) :
    (c.setFullscreen v).Own window { w with fullscreen := v } := by
  obtain rfl := h.wishes
  unfold Column.setFullscreen
  split
  · rename_i hv
    subst hv
    exact h
  · exact own_updateTileSizes rfl h.ids h.data h.unmarked

theorem Own.setMaximized (h : c.Own window w) (v : Bool) :
    (c.setMaximized v).Own window { w with maximized := v } := by
  obtain rfl := h.wishes
  unfold Column.setMaximized
  split
  · rename_i hv
    subst hv
    exact h
  · exact own_updateTileSizes rfl h.ids h.data h.unmarked

theorem Own.map_tiles {f : Tile → Tile} (h : c.Own window w) (hid : ∀ t, (f t).id = t.id)
    (hmode : ∀ t, (f t).window.pendingSizingMode = t.window.pendingSizingMode)
    (hmarks : ∀ t : Tile, t.Unmarked → (f t).Unmarked) :
    Own window w { c with tiles := c.tiles.map f } where
  wishes := h.wishes
  ids := by
    refine Eq.trans ?_ h.ids
    simp only [windowIds, List.map_map]
    exact map_congr_left fun t _ => hid t
  data := h.data
  modes := by
    intro t ht
    obtain ⟨u, hu, rfl⟩ := List.mem_map.mp ht
    exact (hmode u).trans (h.modes u hu)
  unmarked := by
    intro t ht
    obtain ⟨u, hu, rfl⟩ := List.mem_map.mp ht
    exact hmarks u (h.unmarked u hu)

theorem Own.cancelResize (h : c.Own window w) : c.cancelResize.Own window w :=
  h.map_tiles (fun _ => rfl) (fun _ => rfl) fun _ ht => ⟨ht.restore, ht.windowed⟩

theorem Own.updateConfig (h : c.Own window w) (viewSize : Size) (workingArea parentArea : Rectangle)
    (scale : ℚ) (options : Options) :
    (c.updateConfig viewSize workingArea parentArea scale options).Own window w := by
  have htiles : Own window w
      { c with tiles := c.tiles.map (·.updateConfig viewSize scale options) } :=
    h.map_tiles (fun _ => rfl) (fun _ => rfl) fun _ ht => ⟨ht.restore, ht.windowed⟩
  have hdata : ∀ ds : List TileData, ds.length = 1 →
      (List.zipWith (fun t d => TileData.update d t)
        (c.tiles.map (·.updateConfig viewSize scale options)) ds).length = 1 := by
    intro ds hds
    simp [hds, h.length]
  have hauto : c.convertHeightsToAuto.data.length = 1 := by
    simpa [convertHeightsToAuto] using h.data
  unfold Column.updateConfig
  dsimp only
  split
  · refine own_updateTileSizes h.wishes htiles.ids (hdata _ ?_) htiles.unmarked
    split
    · exact hauto
    · exact h.data
  · refine ⟨h.wishes, htiles.ids, hdata _ ?_, htiles.modes, htiles.unmarked⟩
    split
    · exact hauto
    · exact h.data

/-- A new column wants what its window wants. -/
theorem own_newWithTile {tile : Tile} (h : tile.Unmarked) (viewSize : Size)
    (workingArea parentArea : Rectangle) (scale : ℚ) (width : ColumnWidth) (isFullWidth : Bool) :
    (newWithTile tile viewSize workingArea parentArea scale width isFullWidth).Own tile.id
      (.ofMode tile.window.pendingSizingMode) := by
  have hadd : ((emptyFor tile viewSize workingArea parentArea scale width isFullWidth).addTileAt 0
      tile).Own tile.id ⟨false, false⟩ := by
    unfold addTileAt
    cases ((emptyFor tile viewSize workingArea parentArea scale width isFullWidth).isTabbed)
    all_goals
      refine own_updateTileSizes rfl rfl rfl fun t ht => ?_
      obtain rfl := mem_singleton.mp ht
      exact ⟨h.restore, h.windowed⟩
  unfold newWithTile
  cases tile.window.pendingSizingMode with
  | normal => exact hadd
  | maximized => exact hadd.setMaximized true
  | fullscreen => exact hadd.setFullscreen true

/-- A height for the window ends the maximized state. -/
theorem Own.setWindowHeight (h : c.Own window w) (change : SizeChange) :
    (c.setWindowHeight change (some 0)).Own window { w with maximized := false } := by
  obtain rfl := h.wishes
  obtain ⟨t, ht, -⟩ := h.exists_tile
  have hauto : (c.autoExcept 0).tiles = c.tiles ∧ (c.autoExcept 0).data.length = 1 ∧
      (c.autoExcept 0).isPendingFullscreen = c.isPendingFullscreen := by
    unfold autoExcept
    split
    · exact ⟨rfl, by simpa [convertHeightsToAuto] using h.data, rfl⟩
    · exact ⟨rfl, h.data, rfl⟩
  obtain ⟨htiles, hdata, hfull⟩ := hauto
  obtain ⟨d, hd⟩ := length_eq_one_iff.mp hdata
  unfold Column.setWindowHeight
  simp only [getD_some, htiles, ht, hd, getElem?_cons_zero]
  refine own_updateTileSizes ?_ ?_ ?_ ?_
  · simp [Column.wishes, setHeightAt, hfull]
  · simpa [windowIds, setHeightAt, htiles] using h.ids
  · simpa [setHeightAt] using hdata
  · simpa [setHeightAt, htiles] using h.unmarked

end Column

namespace ScrollingSpace

variable {s s' : ScrollingSpace} {window : ℕ} {w w' : Wishes} {v : Bool}

/-- The first column with the window holds nothing else and wants what the window wants. -/
def OwnColumn (window : ℕ) (w : Wishes) (s : ScrollingSpace) : Prop :=
  ∃ i c, s.columns.findIdx? (·.contains window) = some i ∧ s.columns[i]? = some c ∧ c.Own window w

theorem OwnColumn.find? (h : s.OwnColumn window w) :
    ∃ c, s.columns.find? (·.contains window) = some c ∧ c.Own window w := by
  obtain ⟨i, c, hi, hc, hown⟩ := h
  exact ⟨c, find?_of_findIdx? hi hc, hown⟩

theorem OwnColumn.of_set {i : ℕ} {c c' : Column}
    (hi : s.columns.findIdx? (·.contains window) = some i) (hc : s.columns[i]? = some c)
    (hcolumns : s'.columns = s.columns.set i c') (h : c'.Own window w) :
    s'.OwnColumn window w := by
  refine ⟨i, c', ?_, ?_, h⟩
  · rw [hcolumns]
    exact findIdx?_set hi h.contains
  · rw [hcolumns]
    exact getElem?_set_self (lt_length_of_getElem? hc)

/-- The tile of the window. -/
theorem OwnColumn.findTile (h : s.OwnColumn window w) :
    ∃ t, s.findTile window = some t ∧ t.window.pendingSizingMode = w.mode ∧ t.Unmarked := by
  obtain ⟨c, hc, hown⟩ := h.find?
  obtain ⟨t, ht, hid⟩ := hown.exists_tile
  have hmem : t ∈ c.tiles := ht ▸ mem_singleton_self t
  refine ⟨t, ?_, hown.modes t hmem, hown.unmarked t hmem⟩
  refine (find?_flatMap hc).trans ?_
  simp [ht, hid]

theorem OwnColumn.modifyTile (h : s.OwnColumn window w) :
    (s.modifyTile window fun t => { t with restoreToFloating := false }).OwnColumn window w := by
  unfold ScrollingSpace.modifyTile
  split
  · exact h
  · rename_i colIdx tileIdx hfind
    obtain ⟨i, c, hi, hc, hown⟩ := h
    obtain ⟨t, ht, hid⟩ := hown.exists_tile
    have hpos : c.position window = some 0 := by simp [Column.position, ht, hid]
    unfold findWindow at hfind
    simp only [hi, hc, hpos, some_bind, Option.pure_def,
      some.injEq, Prod.mk.injEq] at hfind
    obtain ⟨rfl, rfl⟩ := hfind
    refine .of_set hi hc (modify_eq_set_of_getElem? hc) ?_
    have hmap : c.tiles.modify 0 (fun t => { t with restoreToFloating := false }) =
        c.tiles.map fun t => { t with restoreToFloating := false } := by simp [ht]
    rw [hmap]
    exact hown.map_tiles (fun _ => rfl) (fun _ => rfl) fun _ hu => ⟨rfl, hu.windowed⟩

/-- Nothing has to be extracted, so the flag is set on the column itself. -/
theorem OwnColumn.setPending {isPending : Column → Bool} {set : Column → Bool → Column}
    (h : s.OwnColumn window w)
    (hset : ∀ c : Column, c.Own window w → (set c v).Own window w')
    (hself : ∀ c : Column, v = isPending c → set c v = c)
    (hs : ScrollingSpace.setPending isPending set s window v = some s') : s'.OwnColumn window w' := by
  obtain ⟨i, c, hi, hc, hown⟩ := h
  have hextract : mustExtract c v = false := by simp [mustExtract, hown.length]
  unfold ScrollingSpace.setPending at hs
  rw [hi, some_bind, hc, some_bind] at hs
  split at hs
  · rename_i hv
    obtain rfl := some.inj hs
    exact ⟨i, c, hi, hc, hself c hv ▸ hset c hown⟩
  · have hcolumns := columns_cancelResizeForColumn hc
    have hget : (s.cancelResizeForColumn i).columns[i]? = some c.cancelResize := by
      rw [hcolumns]
      exact getElem?_set_self (lt_length_of_getElem? hc)
    simp only [hextract, extractWindow, Bool.false_eq_true, if_false, bind_eq_bind,
      bind_some, hget, Option.pure_def, some.injEq] at hs
    subst hs
    refine .of_set hi hc ?_ (hset _ hown.cancelResize)
    show (s.cancelResizeForColumn i).columns.set i _ = _
    rw [hcolumns, List.set_set]

theorem OwnColumn.setFullscreen (h : s.OwnColumn window w) (hs : s.setFullscreen window v = some s') :
    s'.OwnColumn window { w with fullscreen := v } :=
  h.setPending (fun _ hc => hc.setFullscreen v) (fun _ hv => if_pos hv.symm) hs

theorem OwnColumn.setMaximized (h : s.OwnColumn window w) (hs : s.setMaximized window v = some s') :
    s'.OwnColumn window { w with maximized := v } :=
  h.setPending (fun _ hc => hc.setMaximized v) (fun _ hv => if_pos hv.symm) hs

theorem OwnColumn.setWindowHeight (h : s.OwnColumn window w) {change : SizeChange}
    (hs : s.setWindowHeight (some window) change = some s') :
    s'.OwnColumn window { w with maximized := false } := by
  obtain ⟨i, c, hi, hc, hown⟩ := h
  obtain ⟨t, ht, hid⟩ := hown.exists_tile
  have hpos : c.position window = some 0 := by simp [Column.position, ht, hid]
  have hfind : s.columnAndTile (some window) = some (i, some 0) := by
    simp [columnAndTile, findWindow, hi, hc, hpos]
  have hne : s.columns.isEmpty = false := by
    simpa using ne_nil_of_getElem? hc
  unfold ScrollingSpace.setWindowHeight resizeWindow at hs
  rw [hne, hfind] at hs
  simp only [Bool.false_eq_true, if_false, some_bind, hc, Option.pure_def,
    some.injEq] at hs
  subst hs
  have hget : (s.setColumn i (c.setWindowHeight change (some 0))).columns[i]? =
      some (c.setWindowHeight change (some 0)) :=
    getElem?_set_self (lt_length_of_getElem? hc)
  refine .of_set hi hc ?_ (hown.setWindowHeight change).cancelResize
  rw [columns_cancelResizeForColumn hget]
  exact List.set_set _

/-- A new window gets a column that wants what the window wants. -/
theorem ownColumn_addTile {colIdx : Option ℕ} {tile : Tile} {activate isFullWidth : Bool}
    {width : ColumnWidth} (hfresh : s.hasWindow tile.id = false) (htile : tile.Unmarked)
    (hs : s.addTile colIdx tile activate width isFullWidth = some s') :
    s'.OwnColumn tile.id (.ofMode tile.window.pendingSizingMode) := by
  have hle : s.insertionIdx colIdx ≤ s.columns.length := by
    have hadd := hs
    unfold ScrollingSpace.addTile addColumn at hadd
    dsimp only at hadd
    split at hadd
    · cases hadd
    · rename_i hlt
      exact Nat.le_of_not_lt hlt
  have hold : ∀ c ∈ s.columns.map still, c.contains tile.id = false := by
    intro c hc
    obtain ⟨d, hd, rfl⟩ := List.mem_map.mp hc
    exact Bool.eq_false_iff.mpr (List.any_eq_false.mp hfresh d hd)
  let column := s.adopt (.newWithTile tile s.viewSize s.workingArea s.parentArea s.scale width
    isFullWidth)
  have hown : (still column).Own tile.id (.ofMode tile.window.pendingSizingMode) := by
    have hnew := (Column.own_newWithTile htile s.viewSize s.workingArea s.parentArea s.scale width
      isFullWidth).updateConfig s.viewSize s.workingArea s.parentArea s.scale s.options
    exact ⟨hnew.wishes, hnew.ids, hnew.data, hnew.modes, hnew.unmarked⟩
  have hlen : s.insertionIdx colIdx ≤ (s.columns.map still).length := by simpa using hle
  have hmap := map_addColumn (f := still) still_ignores_animation hs
  have hidx := findIdx?_insertIdx hold hown.contains hlen
  have hget : (s'.columns.map still)[s.insertionIdx colIdx]? = some (still column) := by
    rw [hmap]
    exact (getElem?_insertIdx_self ..).trans (if_pos hlen)
  rw [← hmap, findIdx?_map] at hidx
  rw [getElem?_map, map_eq_some_iff] at hget
  obtain ⟨c, hc, hstill⟩ := hget
  rw [← hstill] at hown
  exact ⟨s.insertionIdx colIdx, c, hidx, hc,
    ⟨hown.wishes, hown.ids, hown.data, hown.modes, hown.unmarked⟩⟩

end ScrollingSpace

end Macniri.Layout
