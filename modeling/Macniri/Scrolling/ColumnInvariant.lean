import Macniri.Lib.ListEdit
import Macniri.Scrolling.Space

/-! The representation invariant of a column, and that every column operation keeps it. -/
namespace Macniri.Layout

open List

/-- The number of tiles with a non-automatic height. -/
def Column.nonAuto (c : Column) : ℕ := (c.data.map (·.height)).countP (!·.isAuto)

/-- What also holds of a column that has no tiles yet. -/
structure Column.Parts (c : Column) : Prop where
  sizes : c.data.map (·.size) = c.tiles.map Tile.tileSize
  heights : c.nonAuto ≤ 1
  presetWidth : ∀ i, c.presetWidthIdx = some i → i < c.options.presetColumnWidths.length
  presetHeight : ∀ d ∈ c.data, ∀ i, d.height = .preset i → i < c.options.presetWindowHeights.length
  ids : c.windowIds.Nodup

/-- What holds of a column before the sizes are requested. -/
structure Column.Shape (c : Column) : Prop extends c.Parts where
  nonempty : c.tiles ≠ []
  active : c.activeTileIdx < c.tiles.length
  single : c.pendingSizingMode ≠ .normal → c.tiles.length = 1 ∨ c.displayMode = .tabbed

structure Column.Wf (c : Column) : Prop extends c.Shape where
  modes : ∀ t ∈ c.tiles, t.window.pendingSizingMode = c.pendingSizingMode

/-- What a column sees of a tile: its window, its size and its sizing modes. -/
structure Tile.Alike (t t' : Tile) : Prop where
  id : t'.id = t.id
  tileSize : t'.tileSize = t.tileSize
  sizingMode : t'.sizingMode = t.sizingMode
  pending : t'.window.pendingSizingMode = t.window.pendingSizingMode

theorem Tile.Alike.refl (t : Tile) : t.Alike t := ⟨rfl, rfl, rfl, rfl⟩

/-- What the space sees of a column: its identity, its windows and its width. -/
structure Column.Seen (c c' : Column) : Prop where
  uid : c'.uid = c.uid
  ids : c'.windowIds.Perm c.windowIds
  width : c'.actualWidth = c.actualWidth
  options : c'.options = c.options
  normal : c'.isNormal = c.isNormal

/-- `c'` is `c` after a change that its space does not see and that keeps the invariant. -/
structure Column.Like (c c' : Column) : Prop extends c.Seen c' where
  wf : c.Wf → c'.Wf

namespace Column

variable {c c' : Column}

theorem Seen.refl (c : Column) : c.Seen c := ⟨rfl, .refl _, rfl, rfl, rfl⟩

theorem Seen.trans {c'' : Column} (h : c.Seen c') (h' : c'.Seen c'') : c.Seen c'' :=
  ⟨h'.uid.trans h.uid, h'.ids.trans h.ids, h'.width.trans h.width, h'.options.trans h.options,
    h'.normal.trans h.normal⟩

theorem Like.refl (c : Column) : c.Like c := ⟨.refl c, id⟩

theorem Like.trans {c'' : Column} (h : c.Like c') (h' : c'.Like c'') : c.Like c'' :=
  ⟨h.toSeen.trans h'.toSeen, h'.wf ∘ h.wf⟩

theorem Parts.length_data (h : c.Parts) : c.data.length = c.tiles.length := by
  simpa using congrArg List.length h.sizes

theorem mem_windowIds {w : ℕ} : w ∈ c.windowIds ↔ c.contains w := by
  simp [windowIds, contains]

theorem isNormal_eq (c : Column) : c.isNormal = c.tiles.all (·.sizingMode == .normal) := by
  rw [Bool.eq_iff_iff, List.all_eq_true]
  unfold isNormal sizingMode
  constructor
  · intro h t ht
    cases hm : t.sizingMode with
    | normal => rfl
    | maximized =>
      have : c.tiles.any (·.sizingMode == .maximized) :=
        List.any_eq_true.mpr ⟨t, ht, by simp [hm]⟩
      split at h <;> simp_all
    | fullscreen =>
      have : c.tiles.any (·.sizingMode == .fullscreen) :=
        List.any_eq_true.mpr ⟨t, ht, by simp [hm]⟩
      simp_all
  · intro h
    have hnone (m : SizingMode) (hm : m ≠ .normal) : c.tiles.any (·.sizingMode == m) = false := by
      rw [List.any_eq_false]
      intro t ht heq
      exact hm ((beq_iff_eq.mp heq).symm.trans (beq_iff_eq.mp (h t ht)))
    simp [hnone]

theorem isNormal_congr (h : c'.tiles.map (·.sizingMode) = c.tiles.map (·.sizingMode)) :
    c'.isNormal = c.isNormal := by
  have hall (ts : List Tile) :
      ts.all (·.sizingMode == .normal) = (ts.map (·.sizingMode)).all (· == .normal) := by
    simp [List.all_map, Function.comp_def]
  rw [isNormal_eq, isNormal_eq, hall, hall, h]

/-- The width is that of the tiles, and of the tab indicator for a tabbed normal column. -/
theorem actualWidth_congr (hw : c'.data.map (·.size) = c.data.map (·.size))
    (hm : c'.tiles.map (·.sizingMode) = c.tiles.map (·.sizingMode))
    (hd : c'.displayMode = c.displayMode) (ho : c'.options = c.options)
    (hs : c'.scale = c.scale) : c'.actualWidth = c.actualWidth := by
  have hlen : c'.tiles.length = c.tiles.length := by simpa using congrArg List.length hm
  have hsizes : c'.data.map (·.size.w) = c.data.map (·.size.w) := by
    simpa [Function.comp_def] using congrArg (List.map Size.w) hw
  simp only [actualWidth, isTabbed, isNormal_congr hm, hsizes, hd, ho, hs, hlen]
  rfl

/-! Requesting sizes. -/

theorem length_fill (rows : List HeightRow) (x y : ℚ) :
    (HeightRow.fill rows x y).length = rows.length := by
  induction rows generalizing x y with
  | nil => rfl
  | cons r rows ih =>
    cases h : r.height <;> simp [HeightRow.fill, h, ih]

theorem length_distribute (n : ℕ) (rows : List HeightRow) (x y : ℚ) :
    (HeightRow.distribute n rows x y).length = rows.length := by
  induction n generalizing rows x y with
  | zero => exact length_fill rows x y
  | succ n ih =>
    unfold HeightRow.distribute
    split
    · exact length_fill rows x y
    · split
      · simp [ih]
      · exact length_fill rows x y

theorem length_requestedHeights (c : Column) :
    c.requestedHeights.length = min c.tiles.length c.data.length := by
  unfold requestedHeights heightRows
  rw [length_distribute]
  simp

/-- Requests change nothing of the tiles but what is requested. -/
theorem map_tiles_updateTileSizes {β : Type} (f : Tile → β)
    (hf : ∀ (t : Tile) size mode, f { t with window := t.window.requestSize size mode } = f t)
    (c : Column) : c.updateTileSizes.tiles.map f = c.tiles.map f := by
  unfold updateTileSizes
  cases c.pendingSizingMode with
  | fullscreen =>
    simp only [List.map_map]
    exact map_congr_left fun t _ => hf t _ _
  | maximized =>
    simp only [List.map_map]
    exact map_congr_left fun t _ => hf t _ _
  | normal =>
    refine map_mapIdx_of_eq fun i t => ?_
    cases c.requestedHeights[i]? with
    | none => rfl
    | some h => exact hf t _ _

@[simp] theorem data_updateTileSizes (c : Column) : c.updateTileSizes.data = c.data := by
  unfold updateTileSizes; split <;> rfl

@[simp] theorem uid_updateTileSizes (c : Column) : c.updateTileSizes.uid = c.uid := by
  unfold updateTileSizes; split <;> rfl

@[simp] theorem activeTileIdx_updateTileSizes (c : Column) :
    c.updateTileSizes.activeTileIdx = c.activeTileIdx := by
  unfold updateTileSizes; split <;> rfl

@[simp] theorem presetWidthIdx_updateTileSizes (c : Column) :
    c.updateTileSizes.presetWidthIdx = c.presetWidthIdx := by
  unfold updateTileSizes; split <;> rfl

@[simp] theorem isPendingFullscreen_updateTileSizes (c : Column) :
    c.updateTileSizes.isPendingFullscreen = c.isPendingFullscreen := by
  unfold updateTileSizes; split <;> rfl

@[simp] theorem isPendingMaximized_updateTileSizes (c : Column) :
    c.updateTileSizes.isPendingMaximized = c.isPendingMaximized := by
  unfold updateTileSizes; split <;> rfl

@[simp] theorem displayMode_updateTileSizes (c : Column) :
    c.updateTileSizes.displayMode = c.displayMode := by
  unfold updateTileSizes; split <;> rfl

@[simp] theorem options_updateTileSizes (c : Column) : c.updateTileSizes.options = c.options := by
  unfold updateTileSizes; split <;> rfl

@[simp] theorem scale_updateTileSizes (c : Column) : c.updateTileSizes.scale = c.scale := by
  unfold updateTileSizes; split <;> rfl

@[simp] theorem pendingSizingMode_updateTileSizes (c : Column) :
    c.updateTileSizes.pendingSizingMode = c.pendingSizingMode := by
  simp [pendingSizingMode]

@[simp] theorem windowIds_updateTileSizes (c : Column) :
    c.updateTileSizes.windowIds = c.windowIds :=
  map_tiles_updateTileSizes Tile.id (fun _ _ _ => rfl) c

@[simp] theorem sizes_updateTileSizes (c : Column) :
    c.updateTileSizes.tiles.map Tile.tileSize = c.tiles.map Tile.tileSize :=
  map_tiles_updateTileSizes Tile.tileSize (fun _ _ _ => rfl) c

theorem sizingModes_updateTileSizes (c : Column) :
    c.updateTileSizes.tiles.map (·.sizingMode) = c.tiles.map (·.sizingMode) :=
  map_tiles_updateTileSizes (·.sizingMode) (fun _ _ _ => rfl) c

@[simp] theorem length_updateTileSizes (c : Column) :
    c.updateTileSizes.tiles.length = c.tiles.length := by
  simpa only [length_map] using congrArg List.length (sizes_updateTileSizes c)

@[simp] theorem nonAuto_updateTileSizes (c : Column) : c.updateTileSizes.nonAuto = c.nonAuto := by
  simp [nonAuto]

@[simp] theorem isNormal_updateTileSizes (c : Column) :
    c.updateTileSizes.isNormal = c.isNormal :=
  isNormal_congr (sizingModes_updateTileSizes c)

@[simp] theorem actualWidth_updateTileSizes (c : Column) :
    c.updateTileSizes.actualWidth = c.actualWidth :=
  actualWidth_congr (by simp) (sizingModes_updateTileSizes c) (by simp) (by simp) (by simp)

/-- After the requests every window has the pending sizing mode of the column. -/
theorem modes_updateTileSizes (hlen : c.data.length = c.tiles.length) :
    ∀ t ∈ c.updateTileSizes.tiles, t.window.pendingSizingMode = c.pendingSizingMode := by
  intro t ht
  unfold updateTileSizes at ht
  cases hm : c.pendingSizingMode with
  | fullscreen =>
    simp only [hm, List.mem_map] at ht
    obtain ⟨t', -, rfl⟩ := ht
    rfl
  | maximized =>
    simp only [hm, List.mem_map] at ht
    obtain ⟨t', -, rfl⟩ := ht
    rfl
  | normal =>
    simp only [hm, mem_mapIdx] at ht
    obtain ⟨i, hi, rfl⟩ := ht
    have hh : i < c.requestedHeights.length := by
      rw [length_requestedHeights, hlen]
      omega
    rw [getElem?_eq_getElem hh]
    rfl

/-- Requesting the sizes completes the invariant. -/
theorem Shape.wf_updateTileSizes (h : c.Shape) : c.updateTileSizes.Wf where
  sizes := by simpa using h.sizes
  heights := by simpa using h.heights
  presetWidth := by simpa using h.presetWidth
  presetHeight := by simpa using h.presetHeight
  ids := by simpa using h.ids
  nonempty := by
    rw [← length_pos_iff, length_updateTileSizes]
    exact length_pos_iff.mpr h.nonempty
  active := by simpa using h.active
  single := by simpa using h.single
  modes := by simpa using modes_updateTileSizes h.length_data

/-- Columns with the same tiles and cached sizes look the same. -/
theorem seen_of_tiles (huid : c'.uid = c.uid) (htiles : c'.tiles = c.tiles)
    (hsizes : c'.data.map (·.size) = c.data.map (·.size))
    (hdisplay : c'.displayMode = c.displayMode) (hoptions : c'.options = c.options)
    (hscale : c'.scale = c.scale) : c.Seen c' where
  uid := huid
  ids := by rw [windowIds, windowIds, htiles]
  width := actualWidth_congr hsizes (by rw [htiles]) hdisplay hoptions hscale
  options := hoptions
  normal := isNormal_congr (by rw [htiles])

theorem seen_updateTileSizes (c : Column) : c.Seen c.updateTileSizes :=
  ⟨by simp, .of_eq (by simp), by simp, by simp, by simp⟩

/-- A column that differs in what is requested from its windows. -/
theorem Seen.like_updateTileSizes (h : c.Seen c') (hs : c.Wf → c'.Shape) :
    c.Like c'.updateTileSizes :=
  ⟨h.trans c'.seen_updateTileSizes, fun hc => (hs hc).wf_updateTileSizes⟩

/-- Neither a tile's window nor its data changed, except for the animation of the column. -/
theorem like_moveAnimation (c : Column) (m : Option MoveAnimation) :
    c.Like { c with moveAnimation := m } :=
  ⟨⟨rfl, .refl _, rfl, rfl, rfl⟩, fun h => ⟨⟨⟨h.sizes, h.heights, h.presetWidth, h.presetHeight,
    h.ids⟩, h.nonempty, h.active, h.single⟩, h.modes⟩⟩

theorem like_animateMoveFrom (c : Column) (x : ℚ) : c.Like (c.animateMoveFrom x) :=
  c.like_moveAnimation _

theorem like_offsetMoveAnimCurrent (c : Column) (x : ℚ) : c.Like (c.offsetMoveAnimCurrent x) := by
  unfold offsetMoveAnimCurrent
  split
  · split
    · exact c.like_moveAnimation _
    · exact .refl c
  · exact .refl c

theorem like_activateIdx {idx : ℕ} (h : c.Wf → idx < c.tiles.length) : c.Like (c.activateIdx idx) :=
  ⟨⟨rfl, .refl _, rfl, rfl, rfl⟩, fun hc => ⟨⟨⟨hc.sizes, hc.heights, hc.presetWidth,
    hc.presetHeight, hc.ids⟩, hc.nonempty, h hc, hc.single⟩, hc.modes⟩⟩

theorem Wf.length_pos (h : c.Wf) : 0 < c.tiles.length := length_pos_iff.mpr h.nonempty

theorem like_focusIndex (c : Column) (index : ℕ) : c.Like (c.focusIndex index) :=
  like_activateIdx fun h => by have := h.length_pos; omega

theorem like_focusUp (c : Column) : c.Like c.focusUp :=
  like_activateIdx fun h => by have := h.active; omega

theorem like_focusDown (c : Column) : c.Like c.focusDown :=
  like_activateIdx fun h => by have := h.active; omega

theorem like_focusTop (c : Column) : c.Like c.focusTop := like_activateIdx Wf.length_pos

theorem like_focusBottom (c : Column) : c.Like c.focusBottom :=
  like_activateIdx fun h => by have := h.length_pos; omega

/-- The tiles differ in what neither the column nor the space looks at. -/
theorem like_tiles (c : Column) {tiles : List Tile} (h : Forall₂ Tile.Alike c.tiles tiles) :
    c.Like { c with tiles := tiles } := by
  have hids : tiles.map Tile.id = c.tiles.map Tile.id := Forall₂.map_eq h fun _ _ h => h.id
  have hsizes : tiles.map Tile.tileSize = c.tiles.map Tile.tileSize :=
    Forall₂.map_eq h fun _ _ h => h.tileSize
  have hnormal : tiles.map (·.sizingMode) = c.tiles.map (·.sizingMode) :=
    Forall₂.map_eq h fun _ _ h => h.sizingMode
  have hlen : c.tiles.length = tiles.length := h.length_eq
  refine ⟨⟨rfl, .of_eq hids, actualWidth_congr rfl hnormal rfl rfl rfl, rfl,
    isNormal_congr hnormal⟩, fun hc => ⟨⟨⟨hc.sizes.trans hsizes.symm, hc.heights, hc.presetWidth,
      hc.presetHeight, (Perm.of_eq hids).nodup_iff.mpr hc.ids⟩, ?_, hlen ▸ hc.active,
      fun hp => hlen ▸ hc.single hp⟩, ?_⟩⟩
  · intro (hnil : tiles = [])
    exact hc.nonempty (length_eq_zero_iff.mp (by simp [hlen, hnil]))
  · exact Forall₂.forall_mem h (fun _ _ halike ht => halike.pending.trans ht) hc.modes

theorem like_mapTiles (c : Column) {f : Tile → Tile} (hf : ∀ t : Tile, t.Alike (f t)) :
    c.Like { c with tiles := c.tiles.map f } :=
  c.like_tiles (forall₂_map fun t _ => hf t)

theorem like_modifyTile (c : Column) (i : ℕ) {f : Tile → Tile} (hf : ∀ t : Tile, t.Alike (f t)) :
    c.Like { c with tiles := c.tiles.modify i f } :=
  c.like_tiles (forall₂_modify Tile.Alike.refl fun t _ => hf t)

theorem like_cancelResize (c : Column) : c.Like c.cancelResize :=
  c.like_mapTiles fun _ => ⟨rfl, rfl, rfl, rfl⟩

theorem like_setInteractiveResize (c : Column) (data : Option ResizeEdge) :
    c.Like { c with tiles := c.tiles.map (·.setInteractiveResize data) } :=
  c.like_mapTiles fun _ => ⟨rfl, rfl, rfl, rfl⟩

/-! Heights. -/

theorem sizes_convertHeightsToAuto (c : Column) :
    c.convertHeightsToAuto.data.map (·.size) = c.data.map (·.size) := by
  refine map_mapIdx_of_eq fun i d => ?_
  split <;> rfl

theorem isAuto_of_mem_convertHeightsToAuto (h : c.data.length = c.tiles.length) :
    ∀ d ∈ c.convertHeightsToAuto.data, d.height.isAuto := by
  intro d hd
  obtain ⟨i, hi, rfl⟩ := mem_mapIdx.mp hd
  have hlt : i < (c.tiles.map (·.tileSize.h)).length := by simpa [← h] using hi
  rw [getElem?_eq_getElem hlt]
  rfl

theorem nonAuto_eq_zero (h : ∀ d ∈ c.data, d.height.isAuto) : c.nonAuto = 0 := by
  simpa [nonAuto, Function.comp_def] using h

/-- Setting one height adds at most that height to the non-automatic ones. -/
theorem nonAuto_setHeightAt (c : Column) (i : ℕ) (h : WindowHeight) :
    (c.setHeightAt i h).nonAuto ≤
      c.nonAuto - (if c.isAutoAt i then 0 else if i < c.data.length then 1 else 0) +
        (if h.isAuto then 0 else 1) := by
  unfold nonAuto setHeightAt isAutoAt
  cases hi : c.data[i]? with
  | none =>
    have hle : c.data.length ≤ i := by simpa using hi
    simp [modify_eq_self hle, Nat.not_lt.mpr hle]
  | some d =>
    obtain ⟨hlt, rfl⟩ := List.getElem?_eq_some_iff.mp hi
    rw [modify_eq_set_of_getElem? hi, map_set, countP_set (by simpa using hlt)]
    simp only [getElem_map, Option.any_some, if_pos hlt]
    cases h.isAuto <;> cases c.data[i].height.isAuto <;> simp

theorem nonAuto_pos_of_not_auto {i : ℕ} (hi : i < c.data.length) (h : ¬ c.isAutoAt i) :
    0 < c.nonAuto := by
  refine countP_pos_iff.mpr ⟨c.data[i].height, List.mem_map_of_mem (getElem_mem hi), ?_⟩
  simpa [isAutoAt, getElem?_eq_getElem hi] using h

theorem sizes_setHeightAt (c : Column) (i : ℕ) (h : WindowHeight) :
    (c.setHeightAt i h).data.map (·.size) = c.data.map (·.size) :=
  map_modify_of_eq fun _ => rfl

theorem like_convertHeightsToAuto (c : Column) : c.Like c.convertHeightsToAuto := by
  refine ⟨seen_of_tiles rfl rfl (sizes_convertHeightsToAuto c) rfl rfl rfl, fun h => ?_⟩
  have hauto := isAuto_of_mem_convertHeightsToAuto h.length_data
  refine ⟨⟨⟨(sizes_convertHeightsToAuto c).trans h.sizes, ?_, h.presetWidth, ?_, h.ids⟩,
    h.nonempty, h.active, h.single⟩, h.modes⟩
  · simp [nonAuto_eq_zero hauto]
  · intro d hd i hi
    simpa [hi, WindowHeight.isAuto] using hauto d hd

theorem like_autoExcept (c : Column) (i : ℕ) : c.Like (c.autoExcept i) := by
  unfold autoExcept
  split
  · exact c.like_convertHeightsToAuto
  · exact .refl c

/-- After `autoExcept` the tile is the only one that can get a non-automatic height. -/
theorem Parts.nonAuto_autoExcept (hc : c.Parts) {i : ℕ} {d : TileData}
    (hi : (c.autoExcept i).data[i]? = some d) (h : WindowHeight) :
    ((c.autoExcept i).setHeightAt i h).nonAuto ≤ 1 := by
  have hset := nonAuto_setHeightAt (c.autoExcept i) i h
  have hlt := lt_length_of_getElem? hi
  by_cases ha : c.isAutoAt i
  · have h0 : (c.autoExcept i).nonAuto = 0 := by
      rw [autoExcept, if_pos ha]
      exact nonAuto_eq_zero (isAuto_of_mem_convertHeightsToAuto hc.length_data)
    split at hset <;> split at hset <;> omega
  · rw [autoExcept, if_neg ha] at hset hlt ⊢
    have := nonAuto_pos_of_not_auto hlt ha
    have := hc.heights
    rw [if_neg ha, if_pos hlt] at hset
    split at hset <;> omega

end Column

end Macniri.Layout
