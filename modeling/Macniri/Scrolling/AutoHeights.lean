import Macniri.Scrolling.Heights

/-! Automatic heights that keep the tiles of a column as they are. -/
namespace Macniri.Layout

open List

namespace HeightRow

variable {rows : List HeightRow} {heights : List ℚ} {m : ℚ}

/-- The distribution that shares out `m` for each unit of weight gives the row the height `h`. -/
def Keeps (m : ℚ) (r : HeightRow) (h : ℚ) : Prop :=
  match r.height with
  | .fixed px => px = h
  | .auto w => w = h / m ∧ r.minH ≤ h ∧ h ∈ wholes

theorem sum_keeps (hm : 0 < m) (h : Forall₂ (Keeps m) rows heights) :
    heights.sum = (rows.map fixedHeight).sum + m * (rows.map weight).sum := by
  induction h with
  | nil => simp
  | @cons r height rest heights hr _ ih =>
    have hheight : height = r.fixedHeight + m * r.weight := by
      cases hsize : r.height with
      | fixed px =>
        have hpx : px = height := by simpa only [Keeps, hsize] using hr
        simp [fixedHeight, weight, hsize, hpx]
      | auto w =>
        have hw : w = height / m := (show w = height / m ∧ _ ∧ _ by simpa only [Keeps, hsize] using hr).1
        simp only [fixedHeight, weight, hsize, hw]
        field_simp
        simp
    simp only [map_cons, sum_cons, ih, hheight]
    ring

/-- Every share is the height that the row keeps, and so is what remains for the next one. -/
theorem fill_of_keeps {W : ℚ} (hm : 0 < m) (hok : ∀ r ∈ rows, r.Ok)
    (h : Forall₂ (Keeps m) rows heights) (hW : W = (rows.map weight).sum) :
    firstUnsatisfied rows (m * W) W = none ∧ fill rows (m * W) W = heights := by
  induction h generalizing W with
  | nil => exact ⟨rfl, rfl⟩
  | @cons r height rest heights hr _ ih =>
    have hrest : ∀ r ∈ rest, r.Ok := fun r hr => hok r (.tail _ hr)
    have hnonneg := sum_weight_nonneg hrest
    simp only [map_cons, sum_cons] at hW
    unfold Keeps at hr
    unfold firstUnsatisfied fill
    cases hheight : r.height with
    | fixed px =>
      simp only [hheight] at hr
      have hzero : r.weight = 0 := by simp [weight, hheight]
      obtain ⟨hnone, hfill⟩ := ih hrest (W := W) (by rw [hW, hzero, zero_add])
      exact ⟨by simp [hnone], by simp [hfill, hr]⟩
    | auto w =>
      simp only [hheight] at hr
      obtain ⟨rfl, hmin, hwhole⟩ := hr
      have hpos := (hok r (.head _)).weight _ hheight
      have hweight : r.weight = height / m := by simp [weight, hheight]
      have hne : W ≠ 0 := by
        rw [hW, hweight]
        linarith
      have hshare : m * W * (height / m / W) = height := by field_simp
      have hround := roundAuto_of_whole (hok r (.head _)) hwhole hmin
      have hleft : m * W - height = m * (W - height / m) := by field_simp
      obtain ⟨hnone, hfill⟩ := ih hrest (W := W - height / m) (by rw [hW, hweight]; ring)
      dsimp only
      rw [hshare, hround, hleft, hnone, hfill, if_neg (not_lt.mpr hmin)]
      exact ⟨rfl, rfl⟩

theorem distribute_of_keeps {W : ℚ} (n : ℕ) (hm : 0 < m) (hok : ∀ r ∈ rows, r.Ok)
    (h : Forall₂ (Keeps m) rows heights) (hW : W = (rows.map weight).sum) :
    distribute n rows (m * W) W = heights := by
  obtain ⟨hnone, hfill⟩ := fill_of_keeps hm hok h hW
  cases n with
  | zero => exact hfill
  | succ n =>
    rw [distribute, hnone]
    exact hfill

end HeightRow

namespace Column

open HeightRow (Keeps)

variable {c : Column} {t : Tile} {d : TileData}

/-- The tiles fill the working area in whole pixels of their windows, and none is below its minimum
height. -/
structure Filled (c : Column) : Prop where
  workingArea : c.workingArea.size.h ∈ wholes
  gaps : c.options.gaps ∈ wholes
  border : ∀ t ∈ c.tiles, t.border.width ∈ wholes
  min : ∀ t ∈ c.tiles, t.minTileHeight ≤ t.tileSize.h
  window : ∀ t ∈ c.tiles, t.windowHeightForTileHeight t.tileSize.h ∈ wholes
  sum : (c.tiles.map (·.tileSize.h)).sum + c.options.gaps * (c.tiles.length + 1) =
    c.workingArea.size.h

/-- The median of the tile heights. -/
def medianHeight (c : Column) : ℚ :=
  let sorted := (c.tiles.map (·.tileSize.h)).insertionSort (· ≤ ·)
  (sorted[sorted.length / 2]?).getD 1

theorem convertHeightsToAuto_data (c : Column) (hlen : c.data.length = c.tiles.length) :
    c.convertHeightsToAuto.data = List.zipWith (fun t d =>
      { d with height := .auto (t.tileSize.h / c.medianHeight) }) c.tiles c.data := by
  unfold convertHeightsToAuto
  refine ext_getElem? fun i => ?_
  simp only [getElem?_mapIdx, getElem?_zipWith, getElem?_map]
  cases ht : c.tiles[i]? with
  | some t =>
    cases c.data[i]? with
    | some d => rfl
    | none => rfl
  | none =>
    have hdata : c.data[i]? = none :=
      getElem?_eq_none (hlen ▸ List.getElem?_eq_none_iff.mp ht)
    rw [hdata]
    rfl

theorem minTileHeight_pos (t : Tile) : 0 < t.minTileHeight :=
  one_pos.trans_le (le_max_right ..)

theorem Filled.tileHeight_pos (h : c.Filled) (ht : t ∈ c.tiles) : 0 < t.tileSize.h :=
  (minTileHeight_pos t).trans_le (h.min t ht)

theorem Filled.tileHeight_mem_wholes (h : c.Filled) (ht : t ∈ c.tiles) : t.tileSize.h ∈ wholes := by
  have hwhole := Tile.tileHeight_mem_wholes (h.border t ht) (h.window t ht)
  rwa [Tile.tileHeight_windowHeight] at hwhole

theorem Filled.medianHeight_pos (h : c.Filled) : 0 < c.medianHeight := by
  unfold medianHeight
  dsimp only
  cases hget : ((c.tiles.map (·.tileSize.h)).insertionSort (· ≤ ·))[_ / 2]? with
  | none => exact one_pos
  | some height =>
    have hmem := (mem_insertionSort _).mp (mem_of_getElem? hget)
    obtain ⟨t, ht, rfl⟩ := List.mem_map.mp hmem
    exact h.tileHeight_pos ht

theorem integral_convertHeightsToAuto (h : c.Filled) (hlen : c.data.length = c.tiles.length) :
    c.convertHeightsToAuto.Integral := by
  have hdata := c.convertHeightsToAuto_data hlen
  have hauto : ∀ d ∈ c.convertHeightsToAuto.data,
      ∃ t ∈ c.tiles, d.height = .auto (t.tileSize.h / c.medianHeight) := by
    rw [hdata]
    intro d hd
    obtain ⟨i, hi, rfl⟩ := mem_iff_getElem.mp hd
    rw [getElem_zipWith]
    exact ⟨_, getElem_mem _, rfl⟩
  refine ⟨?_, ?_, h.workingArea, h.gaps, h.border, fun d hd w hw => ?_⟩
  · rw [hdata, length_zipWith, hlen, min_self]
    rfl
  · refine (Nat.le_of_eq (countP_eq_zero.mpr fun height hheight => ?_)).trans (Nat.zero_le 1)
    obtain ⟨d, hd, rfl⟩ := List.mem_map.mp hheight
    obtain ⟨t, -, heq⟩ := hauto d hd
    simp [heq, WindowHeight.isAuto]
  · obtain ⟨t, ht, heq⟩ := hauto d hd
    obtain rfl := WindowHeight.auto.inj (heq.symm.trans hw)
    exact div_pos (h.tileHeight_pos ht) h.medianHeight_pos

theorem pairs_convertHeightsToAuto (hlen : c.data.length = c.tiles.length) :
    c.convertHeightsToAuto.pairs = c.pairs.map fun p =>
      (p.1, { p.2 with height := .auto (p.1.tileSize.h / c.medianHeight) }) := by
  have hzip := map_zip_zipWith (fun (t : Tile) (d : TileData) =>
    { d with height := .auto (t.tileSize.h / c.medianHeight) }) id c.tiles c.data
  rw [List.map_id, ← zip_eq_zipWith, ← c.convertHeightsToAuto_data hlen] at hzip
  exact hzip

/-- Before the distribution every row keeps its height, if the tiles with a single possible height
have that. -/
theorem keeps_convertHeightsToAuto (h : c.Filled) (hlen : c.data.length = c.tiles.length)
    (htabbed : c.isTabbed = false)
    (hexact : ∀ t ∈ c.tiles, t.IsExact → t.tileSize.h = t.minTileHeight) :
    Forall₂ (Keeps c.medianHeight) c.convertHeightsToAuto.heightRows
      (c.tiles.map (·.tileSize.h)) := by
  rw [heightRows_eq (c := c.convertHeightsToAuto) htabbed, pairs_convertHeightsToAuto hlen,
    List.map_map, map_tiles_eq _ hlen, forall₂_map_left_iff, forall₂_map_right_iff,
    forall₂_same]
  rintro ⟨t, d⟩ hp
  have ht := (mem_pairs hp).1
  dsimp only [Function.comp]
  unfold Keeps
  by_cases hone : t.IsExact
  · rw [row_of_exact hone]
    exact (hexact t ht hone).symm
  · rw [row_of_auto hone rfl]
    exact ⟨rfl, h.min t ht, h.tileHeight_mem_wholes ht⟩

/-- Heights that are made automatic stay as they are, exactly if every tile with a single possible
height has that. -/
theorem convertHeightsToAuto_keeps_iff (hc : c.Shape) (htabbed : c.isTabbed = false)
    (hn : 2 ≤ c.tiles.length) (h : c.Filled) :
    c.convertHeightsToAuto.updateTileSizes.tiles.map Tile.requestedTileHeight =
        c.tiles.map (fun t => some t.tileSize.h) ↔
      ∀ t ∈ c.tiles, t.IsExact → t.tileSize.h = t.minTileHeight := by
  have hlen := hc.length_data
  have hintegral := integral_convertHeightsToAuto h hlen
  have hmode : c.pendingSizingMode = .normal := by
    by_contra hmode
    obtain hone | htab := hc.single hmode
    · omega
    · simp [isTabbed, htab] at htabbed
  have hsome : c.tiles.map (fun t => some t.tileSize.h) = (c.tiles.map (·.tileSize.h)).map some :=
    List.map_map.symm
  rw [requestedTileHeights_updateTileSizes hintegral htabbed hmode, hsome,
    List.map_inj_right fun _ _ => Option.some.inj]
  constructor
  · intro heq t ht hone
    have hgiven := given_requestedHeights hintegral htabbed
    rw [heq, heightRows_eq (c := c.convertHeightsToAuto) htabbed, pairs_convertHeightsToAuto hlen,
      List.map_map, map_tiles_eq _ hlen, forall₂_map_left_iff,
      forall₂_map_right_iff, forall₂_same] at hgiven
    rw [← map_fst_pairs hlen] at ht
    obtain ⟨⟨t, d⟩, hp, rfl⟩ := List.mem_map.mp ht
    have hheight := hgiven _ hp
    dsimp only [Function.comp] at hheight
    unfold HeightRow.Given at hheight
    rw [row_of_exact hone] at hheight
    exact hheight
  · intro hexact
    have hkeeps := keeps_convertHeightsToAuto h hlen htabbed hexact
    have hmedian := h.medianHeight_pos
    have hsum := HeightRow.sum_keeps hmedian hkeeps
    have hleft : c.convertHeightsToAuto.heightWithoutGaps -
        (c.convertHeightsToAuto.heightRows.map HeightRow.fixedHeight).sum =
        c.medianHeight * (c.convertHeightsToAuto.heightRows.map HeightRow.weight).sum := by
      have harea : c.convertHeightsToAuto.heightWithoutGaps = (c.tiles.map (·.tileSize.h)).sum :=
        sub_eq_iff_eq_add.mpr h.sum.symm
      linarith
    rw [requestedHeights_eq, hleft]
    exact HeightRow.distribute_of_keeps _ hmedian (ok_heightRows hintegral htabbed) hkeeps rfl

/-- A window that commits its own height. -/
def tallWindow (id : ℕ) (height minHeight : ℤ) : Window :=
  { ScrollingSpace.testWindow id with
    size := ⟨1000, height⟩
    minSize := ⟨0, minHeight⟩
    maxSize := ⟨0, minHeight⟩ }

/-- Two windows that fill the working area, the first with a single possible height. -/
def filledTiles (minHeight : ℤ) : Column :=
  (newWithTile (Tile.new (tallWindow 1 300 minHeight) ⟨1280, 720⟩ 1 .default) ⟨1280, 720⟩
    ⟨⟨0, 0⟩, ⟨1280, 720⟩⟩ ⟨⟨0, 0⟩, ⟨1280, 720⟩⟩ 1 (.proportion (1 / 2)) false).addTileAt 1
    (Tile.new (tallWindow 2 372 0) ⟨1280, 720⟩ 1 .default)

theorem filled_of_values (h : c.workingArea.size.h = 720 ∧ c.options.gaps = 16 ∧
    (∀ t ∈ c.tiles, t.border.width = 4 ∧ t.minTileHeight ≤ t.tileSize.h ∧
      (t.windowHeightForTileHeight t.tileSize.h = 300 ∨
        t.windowHeightForTileHeight t.tileSize.h = 372)) ∧
    (c.tiles.map (·.tileSize.h)).sum + c.options.gaps * (c.tiles.length + 1) =
      c.workingArea.size.h) : c.Filled where
  workingArea := ⟨720, h.1.symm⟩
  gaps := ⟨16, h.2.1.symm⟩
  border t ht := ⟨4, (h.2.2.1 t ht).1.symm⟩
  min t ht := (h.2.2.1 t ht).2.1
  window t ht := (h.2.2.1 t ht).2.2.elim (fun heq => ⟨300, heq.symm⟩) fun heq => ⟨372, heq.symm⟩
  sum := h.2.2.2

theorem shape_of_values (h : c.data.map (·.size) = c.tiles.map Tile.tileSize ∧ c.nonAuto ≤ 1 ∧
    c.presetWidthIdx = some 1 ∧ c.options.presetColumnWidths.length = 3 ∧
    (∀ d ∈ c.data, d.height = .auto 1) ∧ c.windowIds.Nodup ∧ c.tiles ≠ [] ∧
    c.activeTileIdx < c.tiles.length ∧ c.pendingSizingMode = .normal) : c.Shape where
  sizes := h.1
  heights := h.2.1
  presetWidth i hi := by
    rw [h.2.2.1] at hi
    rw [h.2.2.2.1]
    exact Option.some.inj hi ▸ by decide
  presetHeight d hd i hi := by
    rw [h.2.2.2.2.1 d hd] at hi
    cases hi
  ids := h.2.2.2.2.2.1
  nonempty := h.2.2.2.2.2.2.1
  active := h.2.2.2.2.2.2.2.1
  single hmode := absurd h.2.2.2.2.2.2.2.2 hmode

/-- A window of 300 pixels that asks for exactly 100 gets them. -/
theorem convertHeightsToAuto_shrinks : ¬ ∀ c : Column, c.Shape → c.isTabbed = false →
    2 ≤ c.tiles.length → c.Filled →
    c.convertHeightsToAuto.updateTileSizes.tiles.map Tile.requestedTileHeight =
      c.tiles.map (fun t => some t.tileSize.h) := by
  intro hall
  have heq := hall (filledTiles 100) (shape_of_values (by decide +kernel)) (by decide +kernel)
    (by decide +kernel) (filled_of_values (by decide +kernel))
  have hne : (filledTiles 100).convertHeightsToAuto.updateTileSizes.tiles.map
      Tile.requestedTileHeight ≠ (filledTiles 100).tiles.map (fun t => some t.tileSize.h) := by
    decide +kernel
  exact hne heq

/-- Without the constraint both windows keep their heights. -/
theorem convertHeightsToAuto_keeps_filled :
    (filledTiles 0).convertHeightsToAuto.updateTileSizes.tiles.map Tile.requestedTileHeight =
      (filledTiles 0).tiles.map fun t => some t.tileSize.h :=
  (convertHeightsToAuto_keeps_iff (c := filledTiles 0) (shape_of_values (by decide +kernel))
    (by decide +kernel) (by decide +kernel) (filled_of_values (by decide +kernel))).mpr
    (by decide +kernel)

end Column

end Macniri.Layout
