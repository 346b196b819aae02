import Macniri.Scrolling.ColumnInvariant

/-! Every column operation keeps the column invariant and what its space sees of it. -/
namespace Macniri.Layout

open List

namespace Column

variable {c : Column}

/-- Clearing the maximized flag leaves a column pending only if it was. -/
theorem pending_of_clear
    (h : ({ c with isPendingMaximized := false } : Column).pendingSizingMode ≠ .normal) :
    c.pendingSizingMode ≠ .normal := by
  intro hn
  apply h
  unfold pendingSizingMode at hn ⊢
  cases hf : c.isPendingFullscreen <;> simp_all

theorem Wf.shape_clear (h : c.Wf) : ({ c with isPendingMaximized := false } : Column).Shape :=
  ⟨⟨h.sizes, h.heights, h.presetWidth, h.presetHeight, h.ids⟩, h.nonempty, h.active,
    fun hp => h.single (pending_of_clear hp)⟩

theorem like_toggleFullWidth (c : Column) : c.Like c.toggleFullWidth := by
  unfold toggleFullWidth
  split
  · refine Seen.like_updateTileSizes (seen_of_tiles rfl rfl rfl rfl rfl rfl) fun h => ?_
    have hs := h.shape_clear
    exact ⟨⟨hs.sizes, hs.heights, hs.presetWidth, hs.presetHeight, hs.ids⟩, hs.nonempty, hs.active,
      hs.single⟩
  · exact Seen.like_updateTileSizes (seen_of_tiles rfl rfl rfl rfl rfl rfl) fun h =>
      ⟨⟨h.sizes, h.heights, h.presetWidth, h.presetHeight, h.ids⟩, h.nonempty, h.active, h.single⟩

/-- The fields that a width change writes. -/
theorem like_withWidth (c : Column) (width : ColumnWidth) :
    c.Like (updateTileSizes { c with
      width := width, presetWidthIdx := none, isFullWidth := false, isPendingMaximized := false }) :=
  Seen.like_updateTileSizes (seen_of_tiles rfl rfl rfl rfl rfl rfl) fun h =>
    ⟨⟨h.sizes, h.heights, by simp, h.presetHeight, h.ids⟩, h.nonempty, h.active,
      h.shape_clear.single⟩

theorem like_setColumnWidth (c : Column) (change : SizeChange) (tileIdx : Option ℕ) :
    c.Like (c.setColumnWidth change tileIdx) :=
  c.like_withWidth _

/-- Remembering which preset the width came from. -/
theorem like_presetWidthIdx {i : ℕ} (h : i < c.options.presetColumnWidths.length) :
    c.Like { c with presetWidthIdx := some i } :=
  ⟨⟨rfl, .refl _, rfl, rfl, rfl⟩, fun hc => ⟨⟨⟨hc.sizes, hc.heights, by simpa using h,
    hc.presetHeight, hc.ids⟩, hc.nonempty, hc.active, hc.single⟩, hc.modes⟩⟩

theorem like_toggleWidth (c : Column) (tileIdx : Option ℕ) (forwards : Bool) :
    c.Like (c.toggleWidth tileIdx forwards) := by
  unfold toggleWidth
  dsimp only
  split
  · exact .refl c
  · split
    · exact .refl c
    · rename_i preset hpreset
      have hlike := c.like_setColumnWidth (SizeChange.ofPreset preset)
        (some (tileIdx.getD c.activeTileIdx))
      refine hlike.trans (like_presetWidthIdx ?_)
      rw [hlike.options]
      exact lt_length_of_getElem? hpreset

theorem nextPreset_lt {current : Option ℕ} {forwards : Bool} {sizes : List ResolvedSize}
    {p q : ResolvedSize → Bool} (h : sizes ≠ []) :
    nextPreset current forwards sizes p q < sizes.length := by
  have hpos := length_pos_iff.mpr h
  unfold nextPreset
  cases current with
  | some idx => exact Nat.mod_lt _ hpos
  | none =>
    dsimp only
    split
    · cases hf : sizes.findIdx? p with
      | none => simpa using hpos
      | some i => exact (findIdx?_eq_some_iff_getElem.mp hf).1
    · split <;> omega

/-- Setting the height of one tile, and leaving the maximized state. -/
theorem Shape.setHeightAt (hc : c.Shape) {i : ℕ} {h : WindowHeight}
    (hnon : (c.setHeightAt i h).nonAuto ≤ 1)
    (hpreset : ∀ j, h = .preset j → j < c.options.presetWindowHeights.length) :
    (c.setHeightAt i h).Shape := by
  refine ⟨⟨(sizes_setHeightAt c i h).trans hc.sizes, hnon, hc.presetWidth, ?_, hc.ids⟩,
    hc.nonempty, hc.active, hc.single⟩
  intro d hd j hj
  cases hi : c.data[i]? with
  | none =>
    unfold Column.setHeightAt at hd
    rw [modify_eq_self (by simpa using hi)] at hd
    exact hc.presetHeight d hd j hj
  | some d' =>
    unfold Column.setHeightAt at hd
    rw [modify_eq_set_of_getElem? hi] at hd
    rcases mem_of_mem_set hd with rfl | hd
    · exact hpreset j hj
    · exact hc.presetHeight d hd j hj

theorem seen_setHeightAt (c : Column) (i : ℕ) (h : WindowHeight) : c.Seen (c.setHeightAt i h) :=
  seen_of_tiles rfl rfl (sizes_setHeightAt c i h) rfl rfl rfl

theorem like_setHeight {i : ℕ} {h : WindowHeight} {d : TileData}
    (hi : (c.autoExcept i).data[i]? = some d)
    (hpreset : ∀ j, h = .preset j → j < c.options.presetWindowHeights.length) :
    c.Like (updateTileSizes
      { (c.autoExcept i).setHeightAt i h with isPendingMaximized := false }) := by
  have hauto := c.like_autoExcept i
  have hseen := hauto.toSeen.trans ((c.autoExcept i).seen_setHeightAt i h)
  refine Seen.like_updateTileSizes
    ⟨hseen.uid, hseen.ids, hseen.width, hseen.options, hseen.normal⟩ fun hc => ?_
  have hs := (hauto.wf hc).toShape.setHeightAt (hc.toParts.nonAuto_autoExcept hi h)
    (by rwa [hauto.options])
  exact ⟨⟨hs.sizes, hs.heights, hs.presetWidth, hs.presetHeight, hs.ids⟩, hs.nonempty, hs.active,
    fun hp => hs.single (pending_of_clear hp)⟩

theorem like_setWindowHeight (c : Column) (change : SizeChange) (tileIdx : Option ℕ) :
    c.Like (c.setWindowHeight change tileIdx) := by
  unfold setWindowHeight
  dsimp only
  split
  · rename_i tile d ht hd
    exact like_setHeight hd (by simp)
  · exact c.like_autoExcept _

theorem like_toggleWindowHeight (c : Column) (tileIdx : Option ℕ) (forwards : Bool) :
    c.Like (c.toggleWindowHeight tileIdx forwards) := by
  unfold toggleWindowHeight
  dsimp only
  split
  · rename_i tile d ht hd
    refine like_setHeight hd fun j hj => ?_
    have hopt := (c.like_autoExcept (tileIdx.getD c.activeTileIdx)).options
    rw [← hopt, ← WindowHeight.preset.inj hj]
    refine (nextPreset_lt (by simpa using Options.presetWindowHeights_ne _)).trans_eq ?_
    simp
  · exact c.like_autoExcept _

theorem like_resetWindowHeight (c : Column) (tileIdx : Option ℕ) :
    c.Like (c.resetWindowHeight tileIdx) := by
  unfold resetWindowHeight
  split
  · have hauto : ∀ d ∈ c.data.map fun d => { d with height := WindowHeight.auto1 },
        d.height = .auto1 := by simp
    have hsizes : (c.data.map fun d => { d with height := WindowHeight.auto1 }).map (·.size) =
        c.data.map (·.size) := by simp [Function.comp_def]
    refine Seen.like_updateTileSizes (seen_of_tiles rfl rfl hsizes rfl rfl rfl) fun hc => ?_
    refine ⟨⟨hsizes.trans hc.sizes, ?_, hc.presetWidth, ?_, hc.ids⟩, hc.nonempty, hc.active,
      hc.single⟩
    · exact (nonAuto_eq_zero fun d hd => by rw [hauto d hd]; rfl).le.trans (Nat.zero_le 1)
    · intro d hd i hi
      simp [hauto d hd, WindowHeight.auto1] at hi
  · refine (c.seen_setHeightAt _ _).like_updateTileSizes fun hc => ?_
    refine hc.toShape.setHeightAt ?_ (by simp [WindowHeight.auto1])
    have hset := nonAuto_setHeightAt c (tileIdx.getD c.activeTileIdx) .auto1
    have hauto : WindowHeight.auto1.isAuto = true := rfl
    have := hc.heights
    rw [if_pos hauto] at hset
    omega

/-! Fullscreen and maximized. -/

theorem like_setFullscreen {v : Bool} (h : v = true → c.tiles.length = 1 ∨ c.displayMode = .tabbed) :
    c.Like (c.setFullscreen v) := by
  unfold setFullscreen
  split
  · exact .refl c
  · refine Seen.like_updateTileSizes (seen_of_tiles rfl rfl rfl rfl rfl rfl) fun hc => ?_
    refine ⟨⟨hc.sizes, hc.heights, hc.presetWidth, hc.presetHeight, hc.ids⟩, hc.nonempty, hc.active,
      fun hp => ?_⟩
    cases v with
    | true => exact h rfl
    | false =>
      refine hc.single fun hn => hp ?_
      unfold pendingSizingMode at hn ⊢
      cases hf : c.isPendingFullscreen <;> simp_all

theorem like_setMaximized {v : Bool} (h : v = true → c.tiles.length = 1 ∨ c.displayMode = .tabbed) :
    c.Like (c.setMaximized v) := by
  unfold setMaximized
  split
  · exact .refl c
  · refine Seen.like_updateTileSizes (seen_of_tiles rfl rfl rfl rfl rfl rfl) fun hc => ?_
    refine ⟨⟨hc.sizes, hc.heights, hc.presetWidth, hc.presetHeight, hc.ids⟩, hc.nonempty, hc.active,
      fun hp => ?_⟩
    cases v with
    | true => exact h rfl
    | false => exact hc.single (pending_of_clear hp)

/-! Moving tiles within the column. -/

theorem map_swapAt {α β : Type} (f : α → β) (xs : List α) (i j : ℕ) :
    (swapAt xs i j).map f = swapAt (xs.map f) i j := by
  unfold swapAt
  simp only [getElem?_map]
  cases xs[i]? <;> cases xs[j]? <;> simp

theorem swapAt_perm {α : Type} (xs : List α) (i j : ℕ) : (swapAt xs i j).Perm xs := by
  unfold swapAt
  split
  · rename_i a b ha hb
    obtain ⟨hi, rfl⟩ := List.getElem?_eq_some_iff.mp ha
    obtain ⟨hj, rfl⟩ := List.getElem?_eq_some_iff.mp hb
    exact set_set_perm hi hj
  · exact .refl _

theorem max?_perm {xs ys : List ℚ} (h : xs.Perm ys) : xs.max? = ys.max? := by
  cases hx : xs.max? with
  | none =>
    have : xs = [] := by simpa using hx
    subst this
    simp [nil_perm.mp h]
  | some m =>
    rw [max?_eq_some_iff] at hx
    exact (max?_eq_some_iff.mpr ⟨h.mem_iff.mp hx.1, fun b hb => hx.2 b (h.mem_iff.mpr hb)⟩).symm

theorem like_moveActiveTileTo {newIdx : ℕ} (h : c.Wf → newIdx < c.tiles.length) :
    c.Like (c.moveActiveTileTo newIdx) := by
  unfold moveActiveTileTo
  split
  · exact .refl c
  · have htiles := swapAt_perm c.tiles c.activeTileIdx newIdx
    have hdata := swapAt_perm c.data c.activeTileIdx newIdx
    have hnormal : ({ c with tiles := swapAt c.tiles c.activeTileIdx newIdx } : Column).isNormal =
        c.isNormal := by
      rw [isNormal_eq, isNormal_eq, Bool.eq_iff_iff, List.all_eq_true, List.all_eq_true]
      simp only [htiles.mem_iff]
    refine ⟨⟨rfl, htiles.map Tile.id, ?_, rfl, hnormal⟩, fun hc => ⟨⟨⟨?_, ?_, hc.presetWidth, ?_, ?_⟩,
      ?_, ?_, ?_⟩, ?_⟩⟩
    · have hw := max?_perm (hdata.map (·.size.w))
      have hlen := htiles.length_eq
      unfold actualWidth isTabbed
      dsimp only
      rw [hw, hlen]
      exact congrArg (fun b => if (c.displayMode == .tabbed && b) = true then _ else _) hnormal
    · show (swapAt c.data _ _).map _ = (swapAt c.tiles _ _).map _
      rw [map_swapAt, map_swapAt, hc.sizes]
    · exact ((hdata.map (·.height)).countP_eq _).le.trans hc.heights
    · exact fun d hd => hc.presetHeight d (hdata.mem_iff.mp hd)
    · exact (htiles.map Tile.id).nodup_iff.mpr hc.ids
    · intro hnil
      exact hc.nonempty (nil_perm.mp (hnil ▸ htiles))
    · exact (h hc).trans_eq htiles.length_eq.symm
    · exact fun hp => (hc.single hp).imp (htiles.length_eq.trans ·) id
    · exact fun t ht => hc.modes t (htiles.mem_iff.mp ht)

theorem like_moveUp (c : Column) : c.Like c.moveUp :=
  like_moveActiveTileTo fun h => by have := h.active; omega

theorem like_moveDown (c : Column) : c.Like c.moveDown :=
  like_moveActiveTileTo fun h => by have := h.active; omega

/-! Adding and removing tiles. -/

section AddTile

variable {idx : ℕ} {tile : Tile}

@[simp] theorem uid_addTileAt : (c.addTileAt idx tile).uid = c.uid := by
  unfold addTileAt
  cases h : c.isTabbed <;> simp

@[simp] theorem options_addTileAt : (c.addTileAt idx tile).options = c.options := by
  unfold addTileAt
  cases h : c.isTabbed <;> simp

@[simp] theorem activeTileIdx_addTileAt :
    (c.addTileAt idx tile).activeTileIdx = c.activeTileIdx := by
  unfold addTileAt
  cases h : c.isTabbed <;> simp

theorem windowIds_addTileAt (c : Column) (idx : ℕ) (tile : Tile) :
    (c.addTileAt idx tile).windowIds = c.windowIds.insertIdx idx tile.id := by
  unfold addTileAt
  rw [windowIds_updateTileSizes]
  cases h : c.isTabbed <;> simp [windowIds, map_insertIdx]

theorem length_addTileAt (h : idx ≤ c.tiles.length) :
    (c.addTileAt idx tile).tiles.length = c.tiles.length + 1 := by
  have := congrArg List.length (windowIds_addTileAt c idx tile)
  simpa [windowIds, length_insertIdx, h] using this

theorem sizingModes_addTileAt :
    (c.addTileAt idx tile).tiles.map (·.sizingMode) =
      (c.tiles.map (·.sizingMode)).insertIdx idx tile.sizingMode := by
  unfold addTileAt
  rw [sizingModes_updateTileSizes]
  cases h : c.isTabbed <;> simp [map_insertIdx, Tile.updateConfig]

theorem isNormal_addTileAt (h : idx ≤ c.tiles.length) :
    (c.addTileAt idx tile).isNormal = (tile.sizingMode == .normal && c.isNormal) := by
  have hall (ts : List Tile) :
      ts.all (·.sizingMode == .normal) = (ts.map (·.sizingMode)).all (· == .normal) := by
    simp [List.all_map, Function.comp_def]
  have hperm := perm_insertIdx tile.sizingMode (c.tiles.map (·.sizingMode)) (i := idx)
    (by simpa using h)
  rw [isNormal_eq, isNormal_eq, hall, hall, sizingModes_addTileAt, Bool.eq_iff_iff,
    List.all_eq_true]
  simp [hperm.mem_iff]

/-- The added tile gets the pending sizing mode of the column, and a column that is not tabbed
leaves the fullscreen and maximized states. -/
theorem Parts.wf_addTileAt (hc : c.Parts) (hactive : c.activeTileIdx ≤ c.tiles.length)
    (hidx : idx ≤ c.tiles.length) (hid : tile.id ∉ c.windowIds) : (c.addTileAt idx tile).Wf := by
  have hlen := hc.length_data
  have hids : (c.windowIds.insertIdx idx tile.id).Nodup := by
    refine (perm_insertIdx tile.id c.windowIds (by simpa [windowIds] using hidx)).nodup_iff.mpr
      (nodup_cons.mpr ⟨hid, hc.ids⟩)
  have hshape (b : Bool × Bool) (hb : c.isTabbed = false → b = (false, false)) :
      ({ c with
        isPendingFullscreen := b.1
        isPendingMaximized := b.2
        data := c.data.insertIdx idx (TileData.new (tile.updateConfig c.viewSize c.scale c.options)
          .auto1)
        tiles := c.tiles.insertIdx idx (tile.updateConfig c.viewSize c.scale c.options) } :
        Column).Shape := by
    refine ⟨⟨?_, ?_, hc.presetWidth, ?_, ?_⟩, ?_, ?_, ?_⟩
    · show (c.data.insertIdx idx _).map _ = (c.tiles.insertIdx idx _).map _
      rw [map_insertIdx, map_insertIdx, hc.sizes]
      rfl
    · have hperm := (perm_insertIdx (TileData.new (tile.updateConfig c.viewSize c.scale
        c.options) .auto1) c.data (hidx.trans_eq hlen.symm)).map (·.height)
      refine ((hperm.countP_eq _).trans ?_).le.trans hc.heights
      simp [TileData.new, TileData.update, WindowHeight.auto1, WindowHeight.isAuto, nonAuto]
    · intro d hd i hi
      rcases eq_or_mem_of_mem_insertIdx hd with rfl | hd
      · simp [TileData.new, TileData.update, WindowHeight.auto1] at hi
      · exact hc.presetHeight d hd i hi
    · simpa [windowIds, map_insertIdx] using hids
    · rw [← length_pos_iff]
      simp [length_insertIdx, hidx]
    · simp [length_insertIdx, hidx]
      omega
    · intro hp
      cases ht : c.isTabbed with
      | false => simp [hb ht, pendingSizingMode] at hp
      | true => exact .inr (by simpa [isTabbed] using ht)
  unfold addTileAt
  cases ht : c.isTabbed with
  | true =>
    exact (hshape (c.isPendingFullscreen, c.isPendingMaximized) (by simp [ht])).wf_updateTileSizes
  | false => exact (hshape (false, false) fun _ => rfl).wf_updateTileSizes

theorem Wf.insertTile (hc : c.Wf) (activate : Bool) (hidx : idx ≤ c.tiles.length)
    (hid : tile.id ∉ c.windowIds) : (c.insertTile idx tile activate).Wf := by
  refine (like_activateIdx fun _ => ?_).wf (hc.toParts.wf_addTileAt hc.active.le hidx hid)
  have := hc.active
  rw [length_addTileAt hidx]
  split
  · omega
  · split <;> omega

@[simp] theorem uid_insertTile (activate : Bool) :
    (c.insertTile idx tile activate).uid = c.uid := uid_addTileAt

@[simp] theorem options_insertTile (activate : Bool) :
    (c.insertTile idx tile activate).options = c.options := options_addTileAt

theorem windowIds_insertTile (c : Column) (idx : ℕ) (tile : Tile) (activate : Bool) :
    (c.insertTile idx tile activate).windowIds = c.windowIds.insertIdx idx tile.id :=
  windowIds_addTileAt c idx tile

theorem isNormal_insertTile (activate : Bool) (h : idx ≤ c.tiles.length) :
    (c.insertTile idx tile activate).isNormal = (tile.sizingMode == .normal && c.isNormal) :=
  isNormal_addTileAt h

end AddTile

section NewWithTile

variable (tile : Tile) (viewSize : Size) (workingArea parentArea : Rectangle) (scale : ℚ)
  (width : ColumnWidth) (isFullWidth : Bool)

/-- A new column is like the column with just the tile in it, but in the tile's pending mode. -/
theorem like_newWithTile :
    ((emptyFor tile viewSize workingArea parentArea scale width isFullWidth).addTileAt 0 tile).Like
      (newWithTile tile viewSize workingArea parentArea scale width isFullWidth) := by
  have hlen : ((emptyFor tile viewSize workingArea parentArea scale width isFullWidth).addTileAt 0
      tile).tiles.length = 1 := length_addTileAt (Nat.zero_le _)
  unfold newWithTile
  cases tile.window.pendingSizingMode with
  | normal => exact .refl _
  | maximized => exact like_setMaximized fun _ => .inl hlen
  | fullscreen => exact like_setFullscreen fun _ => .inl hlen

theorem wf_newWithTile :
    (newWithTile tile viewSize workingArea parentArea scale width isFullWidth).Wf := by
  have hparts : (emptyFor tile viewSize workingArea parentArea scale width isFullWidth).Parts :=
    ⟨rfl, Nat.zero_le 1, fun i hi => (findIdx?_eq_some_iff_getElem.mp hi).1, by simp [emptyFor],
      nodup_nil⟩
  exact (like_newWithTile ..).wf (hparts.wf_addTileAt le_rfl le_rfl not_mem_nil)

theorem windowIds_newWithTile :
    (newWithTile tile viewSize workingArea parentArea scale width isFullWidth).windowIds =
      [tile.id] := by
  have h := (like_newWithTile tile viewSize workingArea parentArea scale width isFullWidth).ids
  rw [windowIds_addTileAt] at h
  exact perm_singleton.mp h

theorem isNormal_newWithTile :
    (newWithTile tile viewSize workingArea parentArea scale width isFullWidth).isNormal =
      (tile.sizingMode == .normal) := by
  rw [(like_newWithTile ..).normal, isNormal_addTileAt (Nat.zero_le _), isNormal_eq]
  simp [emptyFor]

end NewWithTile

/-! Config updates and commits. -/

section UpdateConfig

variable {viewSize : Size} {workingArea parentArea : Rectangle} {scale : ℚ} {options : Options}

@[simp] theorem uid_updateConfig :
    (c.updateConfig viewSize workingArea parentArea scale options).uid = c.uid := by
  unfold updateConfig
  dsimp only
  split <;> simp

@[simp] theorem options_updateConfig :
    (c.updateConfig viewSize workingArea parentArea scale options).options = options := by
  unfold updateConfig
  dsimp only
  split <;> simp

theorem windowIds_updateConfig :
    (c.updateConfig viewSize workingArea parentArea scale options).windowIds = c.windowIds := by
  unfold updateConfig
  dsimp only
  split
  · rw [windowIds_updateTileSizes]
    simp [windowIds, Function.comp_def]
  · simp [windowIds, Function.comp_def]

theorem isNormal_updateConfig :
    (c.updateConfig viewSize workingArea parentArea scale options).isNormal = c.isNormal := by
  unfold updateConfig
  dsimp only
  split
  · rw [isNormal_updateTileSizes]
    exact isNormal_congr (by simp [Function.comp_def, Tile.updateConfig])
  · exact isNormal_congr (by simp [Function.comp_def, Tile.updateConfig])

theorem zipWith_update_sizes {ts : List Tile} {ds : List TileData} (h : ds.length = ts.length) :
    (List.zipWith (fun t (d : TileData) => d.update t) ts ds).map (·.size) =
      ts.map Tile.tileSize := by
  rw [map_zipWith]
  induction ts generalizing ds with
  | nil => simp
  | cons t ts ih =>
    cases ds with
    | nil => simp at h
    | cons d ds => simpa [TileData.update] using ih (by simpa using h)

theorem zipWith_update_heights {ts : List Tile} {ds : List TileData} (h : ds.length = ts.length) :
    (List.zipWith (fun t (d : TileData) => d.update t) ts ds).map (·.height) =
      ds.map (·.height) := by
  rw [map_zipWith]
  induction ts generalizing ds with
  | nil =>
    cases ds with
    | nil => rfl
    | cons d ds => simp at h
  | cons t ts ih =>
    cases ds with
    | nil => rfl
    | cons d ds => simpa [TileData.update] using ih (by simpa using h)

/-- Presets that change are forgotten, so the stored ones are in range of the new ones. -/
theorem Wf.updateConfig (hc : c.Wf) (viewSize : Size) (workingArea parentArea : Rectangle)
    (scale : ℚ) (options : Options) :
    (c.updateConfig viewSize workingArea parentArea scale options).Wf := by
  have hconv := c.like_convertHeightsToAuto.wf hc
  -- The data that the tiles are zipped with: the old one, or the one with automatic heights.
  have hdata : ∀ d : List TileData, d = (if c.options.presetWindowHeights ≠
      options.presetWindowHeights then c.convertHeightsToAuto.data else c.data) →
      d.length = c.tiles.length ∧ (d.map (·.height)).countP (!·.isAuto) ≤ 1 ∧
        ∀ h ∈ d.map (·.height), ∀ i, h = .preset i → i < options.presetWindowHeights.length := by
    rintro d rfl
    split
    · refine ⟨hconv.length_data, hconv.heights, ?_⟩
      intro h hh i hi
      obtain ⟨d, hd, rfl⟩ := List.mem_map.mp hh
      have := isAuto_of_mem_convertHeightsToAuto hc.length_data d hd
      simp [hi, WindowHeight.isAuto] at this
    · rename_i heq
      refine ⟨hc.length_data, hc.heights, ?_⟩
      intro h hh i hi
      obtain ⟨d, hd, rfl⟩ := List.mem_map.mp hh
      exact (hc.presetHeight d hd i hi).trans_eq (by rw [not_not.mp heq])
  have hwf : ∀ d : List TileData, d.length = c.tiles.length ∧
      (d.map (·.height)).countP (!·.isAuto) ≤ 1 ∧
        (∀ h ∈ d.map (·.height), ∀ i, h = .preset i → i < options.presetWindowHeights.length) →
      ({ c with
        presetWidthIdx := if c.options.presetColumnWidths ≠ options.presetColumnWidths then none
          else c.presetWidthIdx
        tiles := c.tiles.map (·.updateConfig viewSize scale options)
        data := List.zipWith (fun t (d : TileData) => d.update t)
          (c.tiles.map (·.updateConfig viewSize scale options)) d
        viewSize := viewSize, workingArea := workingArea, parentArea := parentArea
        scale := scale, options := options } : Column).Wf := by
    rintro d ⟨hlen, hcount, hpreset⟩
    have hlen' : d.length = (c.tiles.map (·.updateConfig viewSize scale options)).length := by
      simpa using hlen
    refine ⟨⟨⟨zipWith_update_sizes hlen', ?_, ?_, ?_, ?_⟩, by simpa using hc.nonempty,
      by simpa using hc.active, fun hp => by simpa using hc.single hp⟩, ?_⟩
    · unfold nonAuto
      rw [zipWith_update_heights hlen']
      exact hcount
    · intro i hi
      split at hi
      · simp at hi
      · rename_i heq
        exact (hc.presetWidth i hi).trans_eq (by rw [not_not.mp heq])
    · intro d' hd' i hi
      refine hpreset d'.height ?_ i hi
      rw [← zipWith_update_heights hlen']
      exact List.mem_map_of_mem hd'
    · simpa [windowIds, Function.comp_def] using hc.ids
    · intro t ht
      obtain ⟨t', ht', rfl⟩ := List.mem_map.mp ht
      exact hc.modes t' ht'
  unfold Column.updateConfig
  dsimp only
  split
  · exact (hwf _ (hdata _ rfl)).toShape.wf_updateTileSizes
  · exact hwf _ (hdata _ rfl)

end UpdateConfig

section UpdateWindow

variable {tileIdx : ℕ} {commit : Commit}

@[simp] theorem uid_updateWindow : (c.updateWindow tileIdx commit).uid = c.uid := by
  unfold updateWindow
  split <;> rfl

@[simp] theorem options_updateWindow : (c.updateWindow tileIdx commit).options = c.options := by
  unfold updateWindow
  split <;> rfl

theorem windowIds_updateWindow : (c.updateWindow tileIdx commit).windowIds = c.windowIds := by
  unfold updateWindow
  split
  · rfl
  · rename_i tile htile
    exact map_set_of_eq htile rfl

/-- A commit changes the size and the sizing mode, but not what is pending. -/
theorem Wf.updateWindow (hc : c.Wf) : (c.updateWindow tileIdx commit).Wf := by
  unfold Column.updateWindow
  split
  · exact hc
  · rename_i tile htile
    have hlt : tileIdx < c.data.length := hc.length_data ▸ lt_length_of_getElem? htile
    have hdata := getElem?_eq_getElem hlt
    have hheights : (c.data.modify tileIdx fun d =>
        d.update (tile.onCommit commit).updateWindow).map (·.height) = c.data.map (·.height) :=
      map_modify_of_eq fun _ => rfl
    refine ⟨⟨⟨?_, ?_, hc.presetWidth, ?_, ?_⟩, ?_, ?_, ?_⟩, ?_⟩
    · dsimp only
      rw [modify_eq_set_of_getElem? hdata, map_set, map_set, hc.sizes]
      rfl
    · unfold nonAuto
      rw [hheights]
      exact hc.heights
    · intro d hd i hi
      have hmem : d.height ∈ c.data.map (·.height) := hheights ▸ List.mem_map_of_mem hd
      obtain ⟨d', hd', heq⟩ := List.mem_map.mp hmem
      exact hc.presetHeight d' hd' i (heq.trans hi)
    · have hids : (c.tiles.set tileIdx (tile.onCommit commit).updateWindow).map Tile.id =
          c.tiles.map Tile.id := map_set_of_eq htile rfl
      exact (Perm.of_eq hids).nodup_iff.mpr hc.ids
    · simpa using hc.nonempty
    · simpa using hc.active
    · exact fun hp => by simpa using hc.single hp
    · intro t ht
      rcases mem_of_mem_set ht with rfl | ht
      · exact hc.modes tile (mem_of_getElem? htile)
      · exact hc.modes t ht

end UpdateWindow

section RemoveTile

variable {tileIdx : ℕ}

@[simp] theorem uid_removeTile : (c.removeTile tileIdx).uid = c.uid := by simp [removeTile]

@[simp] theorem options_removeTile : (c.removeTile tileIdx).options = c.options := by
  simp [removeTile]

theorem windowIds_removeTile (c : Column) (tileIdx : ℕ) :
    (c.removeTile tileIdx).windowIds = c.windowIds.eraseIdx tileIdx := by
  unfold removeTile
  rw [windowIds_updateTileSizes]
  simp [windowIds, eraseIdx_map]

theorem isNormal_removeTile (h : c.isNormal) : (c.removeTile tileIdx).isNormal := by
  unfold removeTile
  rw [isNormal_updateTileSizes, isNormal_eq, List.all_eq_true]
  rw [isNormal_eq, List.all_eq_true] at h
  exact fun t ht => h t (mem_of_mem_eraseIdx ht)

theorem sizes_resetSingleWeight (ds : List TileData) :
    (resetSingleWeight ds).map (·.size) = ds.map (·.size) := by
  unfold resetSingleWeight
  split
  · split <;> rfl
  · rfl

theorem nonAuto_resetSingleWeight (ds : List TileData) :
    ((resetSingleWeight ds).map (·.height)).countP (!·.isAuto) =
      (ds.map (·.height)).countP (!·.isAuto) := by
  unfold resetSingleWeight
  split
  · rename_i d
    cases hd : d.height.isAuto with
    | true =>
      have hauto : WindowHeight.auto1.isAuto = true := rfl
      simp [hd, hauto]
    | false => simp
  · rfl

theorem mem_resetSingleWeight {ds : List TileData} {d : TileData}
    (h : d ∈ resetSingleWeight ds) : d.height = .auto1 ∨ d ∈ ds := by
  unfold resetSingleWeight at h
  split at h
  · split at h
    · exact .inl (by simp_all)
    · exact .inr h
  · exact .inr h

theorem Wf.removeTile (hc : c.Wf) (h2 : 2 ≤ c.tiles.length) (ht : tileIdx < c.tiles.length) :
    (c.removeTile tileIdx).Wf := by
  have hlen := length_eraseIdx_of_lt ht
  unfold Column.removeTile
  refine Shape.wf_updateTileSizes ⟨⟨?_, ?_, hc.presetWidth, ?_, ?_⟩, ?_, ?_, ?_⟩
  · dsimp only
    rw [sizes_resetSingleWeight, ← eraseIdx_map, hc.sizes, eraseIdx_map]
  · unfold nonAuto
    rw [nonAuto_resetSingleWeight]
    exact ((eraseIdx_sublist c.data tileIdx).map _).countP_le.trans hc.heights
  · intro d hd i hi
    rcases mem_resetSingleWeight hd with hauto | hd
    · simp [hauto, WindowHeight.auto1] at hi
    · exact hc.presetHeight d (mem_of_mem_eraseIdx hd) i hi
  · simpa [windowIds, eraseIdx_map] using hc.ids.sublist (eraseIdx_sublist _ tileIdx)
  · rw [← length_pos_iff]
    dsimp only
    omega
  · have := hc.active
    dsimp only
    split
    · omega
    · split <;> omega
  · intro hp
    rcases hc.single hp with h1 | htab
    · omega
    · exact .inr htab

end RemoveTile

end Column

end Macniri.Layout
