import Macniri.Scrolling.Heights

/-! The height of a tile that is alone in its column. -/
namespace Macniri.Layout

open List

variable {x : ℚ}

theorem round_le_iff {n : ℚ} (hn : n ∈ wholes) (hpos : 0 ≤ n) : round x ≤ n ↔ x < n + 1 / 2 := by
  obtain ⟨n, rfl⟩ := mem_wholes.mp hn
  unfold round
  split
  · rw [Int.cast_le, ← Int.lt_add_one_iff, Int.floor_lt]
    push_cast
    constructor
    · intro h
      linarith
    · intro h
      linarith
  · have hfloor : 0 ≤ ⌊-x + 1 / 2⌋ := Int.floor_nonneg.mpr (by linarith)
    have hcast : (0 : ℚ) ≤ (⌊-x + 1 / 2⌋ : ℤ) := Int.cast_nonneg hfloor
    exact iff_of_true (by linarith) (by linarith)

theorem clamp_le_iff {lo hi m : ℚ} (hlo : lo ≤ m) :
    clamp x lo hi ≤ m ↔ x ≤ m ∨ hi ≤ m := by
  unfold clamp
  split
  · exact iff_of_true hlo (.inl (by linarith))
  · split
    · exact ⟨.inr, fun h => h.elim (fun h => by linarith) id⟩
    · exact ⟨.inl, fun h => h.elim id (fun h => by linarith)⟩

namespace Column

variable {c : Column} {t : Tile} {d : TileData}

/-- What a lone tile may take. -/
def loneLimit (c : Column) (t : Tile) : ℚ :=
  max (c.workingArea.size.h - c.options.gaps * 2) t.minTileHeight

/-- The preset does not exceed the limit for a lone tile. -/
def PresetFits (c : Column) (t : Tile) : PresetSize → Prop
  | .proportion p =>
    (c.workingArea.size.h - c.options.gaps) * p - c.options.gaps < c.loneLimit t + 1 / 2
  | .fixed height => t.tileHeightForWindowHeight height ≤ c.loneLimit t

instance (c : Column) (t : Tile) (preset : PresetSize) : Decidable (c.PresetFits t preset) :=
  match preset with
  | .proportion _ => inferInstanceAs (Decidable (_ < _))
  | .fixed _ => inferInstanceAs (Decidable (_ ≤ _))

/-- The preset that the tile is stored with, if any, does not exceed the limit, or something else
keeps the tile from taking it. -/
def LoneFits (c : Column) (t : Tile) (d : TileData) : Prop :=
  ∀ idx preset, d.height = .preset idx → c.options.presetWindowHeights[idx]? = some preset →
    t.IsExact ∨ (0 < t.maxSizeNonfullscreen.h ∧ t.maxSizeNonfullscreen.h ≤ c.loneLimit t) ∨
    t.tileHeightForWindowHeight 100000 ≤ c.loneLimit t ∨ c.PresetFits t preset

theorem loneLimit_mem_wholes (hc : c.Integral) (hborder : t.border.width ∈ wholes) :
    c.loneLimit t ∈ wholes :=
  max_mem_wholes (wholes.sub_mem hc.workingArea (wholes.mul_mem hc.gaps (intCast_mem_wholes 2)))
    (minTileHeight_mem_wholes hborder)

theorem tileHeight_le_iff {y : ℚ} :
    t.tileHeightForWindowHeight x ≤ y ↔ x ≤ t.windowHeightForTileHeight y := by
  rw [← Tile.windowHeight_le t, Tile.windowHeight_tileHeight]

/-- The preset height, limited to what a window may be asked for, against the limit. -/
theorem presetHeight_le_iff (hc : c.Integral) (htabbed : c.isTabbed = false)
    (hborder : t.border.width ∈ wholes) (preset : PresetSize) :
    t.tileHeightForWindowHeight (c.presetWindowHeight t preset) ≤ c.loneLimit t ↔
      t.tileHeightForWindowHeight 100000 ≤ c.loneLimit t ∨ c.PresetFits t preset := by
  have hlimit := Tile.windowHeight_mem_wholes hborder (loneLimit_mem_wholes hc hborder)
  have hone : 1 ≤ t.windowHeightForTileHeight (c.loneLimit t) :=
    (one_le_windowHeight t).trans ((Tile.windowHeight_le t).mpr (le_max_right ..))
  rw [tileHeight_le_iff, tileHeight_le_iff]
  unfold presetWindowHeight
  rw [clamp_le_iff hone, round_le_iff hlimit (by linarith), or_comm]
  refine or_congr_right ?_
  unfold resolvePresetHeight resolvePresetSize
  rw [extraSize_of_not_tabbed htabbed]
  cases preset with
  | proportion p =>
    unfold PresetFits Tile.windowHeightForTileHeight
    dsimp only
    split
    · rw [sub_zero]
    · constructor
      · intro h
        linarith
      · intro h
        linarith
  | fixed height =>
    unfold PresetFits
    dsimp only
    rw [tileHeight_le_iff, ← round_le_iff hlimit (by linarith),
      round_of_whole (intCast_mem_wholes height)]

section

variable (hc : c.Integral) (htabbed : c.isTabbed = false) (ht : c.tiles = [t]) (hd : c.data = [d])
include ht

theorem maxNonAuto_of_lone : c.maxNonAutoWindowHeight = none := by
  unfold maxNonAutoWindowHeight
  rw [ht]
  rfl

theorem heightWithoutGaps_of_lone :
    c.heightWithoutGaps = c.workingArea.size.h - c.options.gaps * 2 := by
  unfold heightWithoutGaps
  rw [ht, length_singleton]
  norm_num

include hd htabbed

theorem heightRows_of_lone : c.heightRows = [c.row t d] := by
  rw [heightRows_eq htabbed, pairs, ht, hd]
  rfl

include hc

/-- A lone tile with a height is given it. -/
theorem requestedHeights_of_fixed {px : ℚ} (h : (c.row t d).height = .fixed px) :
    c.requestedHeights = [px] := by
  have hgiven := given_requestedHeights hc htabbed
  rw [heightRows_of_lone htabbed ht hd] at hgiven
  obtain ⟨height, rest, hheight, hrest, heq⟩ := forall₂_cons_left_iff.mp hgiven
  obtain rfl := forall₂_nil_left_iff.mp hrest
  unfold HeightRow.Given at hheight
  rw [h] at hheight
  rw [heq, hheight]

/-- A lone automatic tile fills the working area. -/
theorem requestedHeights_of_auto {w : ℚ} (h : (c.row t d).height = .auto w) :
    c.requestedHeights = [c.loneLimit t] := by
  have hrows := heightRows_of_lone htabbed ht hd
  have hleft := heightLeft_mem_wholes hc htabbed
  have hok := ok_heightRows hc htabbed
  have hlen := (requestedHeights_allowed hc htabbed).length_eq
  have hmin : (c.row t d).autoMin = t.minTileHeight := by
    unfold HeightRow.autoMin
    rw [h]
    rfl
  have hfixed : (c.row t d).fixedHeight = 0 := by simp [HeightRow.fixedHeight, h]
  have hlimit : c.loneLimit t = max c.heightWithoutGaps t.minTileHeight := by
    rw [loneLimit, heightWithoutGaps_of_lone ht]
  rw [requestedHeights_eq] at hlen ⊢
  rw [hrows] at hlen hleft hok ⊢
  simp only [map_cons, map_nil, sum_cons, sum_nil, hfixed, add_zero, sub_zero]
    at hlen hleft ⊢
  rw [ht] at hlen
  obtain hlt | hle := lt_or_ge c.heightWithoutGaps t.minTileHeight
  · rw [HeightRow.distribute_of_lt hok countP_le_length hleft (by simp) (by simpa [hmin] using hlt),
      hlimit, max_eq_right hlt.le]
    simp [hfixed, hmin]
  · have hsum := HeightRow.sum_distribute hok countP_le_length hleft
      (W := (c.row t d).weight) (by simp) (by simp [HeightRow.isAuto, h]) (by simpa [hmin] using hle)
    obtain ⟨height, hheight⟩ := length_eq_one_iff.mp hlen.symm
    rw [hheight] at hsum ⊢
    rw [hlimit, max_eq_left hle]
    simpa [hfixed] using hsum

omit hc htabbed ht hd in
theorem limited_le_iff {px maxH limit : ℚ} : (if 0 < maxH then min px maxH else px) ≤ limit ↔
    (0 < maxH ∧ maxH ≤ limit) ∨ px ≤ limit := by
  split
  · rename_i hpos
    rw [min_le_iff, or_comm, and_iff_right hpos]
  · rename_i hpos
    rw [or_iff_right fun h => hpos h.1]

omit hd in
/-- The height of a lone tile with a fixed height is at most the limit. -/
theorem tileHeight_lone_fixed_le {height px : ℚ} (hborder : t.border.width ∈ wholes)
    (hheight : d.height = .fixed height) (h : c.tileHeight t d = .fixed px) :
    px ≤ c.loneLimit t := by
  have hwhole := Tile.windowHeight_mem_wholes hborder
    (wholes.sub_mem hc.workingArea (wholes.mul_mem hc.gaps (intCast_mem_wholes 2)))
  have hmax : c.maxTileHeight = c.workingArea.size.h - c.options.gaps * (2 : ℤ) := by
    unfold maxTileHeight
    rw [extraSize_of_not_tabbed htabbed, sub_zero]
    rfl
  unfold tileHeight at h
  rw [hheight, maxNonAuto_of_lone ht] at h
  obtain rfl := TileHeight.fixed.inj h
  rw [hmax, round_of_whole hwhole]
  refine le_max_of_le_left ((tileHeight_le_iff).mpr ?_)
  exact min_le_right ..

/-- A lone tile stays within the working area, or at its minimum height, exactly if its preset
does. -/
theorem loneTile_fits_iff (hmode : c.pendingSizingMode = .normal)
    (hpreset : ∀ idx, d.height = .preset idx → idx < c.options.presetWindowHeights.length) :
    ∃ height, c.updateTileSizes.tiles.map Tile.requestedTileHeight = [some height] ∧
      (height + c.options.gaps * 2 ≤
        max c.workingArea.size.h (t.minTileHeight + c.options.gaps * 2) ↔ c.LoneFits t d) := by
  have hborder := hc.border t (ht ▸ mem_singleton_self t)
  have hlimit (height : ℚ) : height + c.options.gaps * 2 ≤
      max c.workingArea.size.h (t.minTileHeight + c.options.gaps * 2) ↔ height ≤ c.loneLimit t := by
    rw [loneLimit, le_max_iff, le_max_iff, le_sub_iff_add_le, add_le_add_iff_right]
  have hrequested := requestedTileHeights_updateTileSizes hc htabbed hmode
  by_cases hexact : t.IsExact
  · rw [requestedHeights_of_fixed hc htabbed ht hd (row_of_exact hexact)] at hrequested
    refine ⟨_, hrequested, (hlimit _).trans (iff_of_true (le_max_right ..) ?_)⟩
    exact fun _ _ _ _ => .inl hexact
  cases hheight : d.height with
  | auto w =>
    rw [requestedHeights_of_auto hc htabbed ht hd (row_of_auto hexact hheight)] at hrequested
    refine ⟨_, hrequested, (hlimit _).trans (iff_of_true le_rfl ?_)⟩
    rintro idx preset hidx
    rw [hheight] at hidx
    cases hidx
  | fixed height =>
    obtain ⟨px, hpx⟩ : ∃ px, c.tileHeight t d = .fixed px := by
      unfold tileHeight
      rw [hheight]
      exact ⟨_, rfl⟩
    have hle := tileHeight_lone_fixed_le hc htabbed ht hborder hheight hpx
    rw [requestedHeights_of_fixed hc htabbed ht hd (row_of_fixed hexact hpx)] at hrequested
    refine ⟨_, hrequested, (hlimit _).trans (iff_of_true ?_ ?_)⟩
    · exact max_le (limited_le_iff.mpr (.inr hle)) (le_max_right ..)
    · rintro idx preset hidx
      rw [hheight] at hidx
      cases hidx
  | preset idx =>
    obtain ⟨preset, hget⟩ : ∃ preset, c.options.presetWindowHeights[idx]? = some preset :=
      ⟨_, getElem?_eq_getElem (hpreset idx hheight)⟩
    have hpx : c.tileHeight t d =
        .fixed (t.tileHeightForWindowHeight (c.presetWindowHeight t preset)) := by
      unfold tileHeight
      rw [hheight, maxNonAuto_of_lone ht]
      simp only [hget, Option.getD_some]
    rw [requestedHeights_of_fixed hc htabbed ht hd (row_of_fixed hexact hpx)] at hrequested
    refine ⟨_, hrequested, (hlimit _).trans ?_⟩
    have hmin : t.minTileHeight ≤ c.loneLimit t := le_max_right ..
    rw [max_le_iff, and_iff_left hmin, limited_le_iff, presetHeight_le_iff hc htabbed hborder]
    constructor
    · intro hfits idx' preset' hidx hget'
      rw [hheight] at hidx
      obtain rfl := WindowHeight.preset.inj hidx
      obtain rfl := Option.some.inj (hget.symm.trans hget')
      exact .inr hfits
    · exact fun hfits => (hfits idx preset hheight hget).resolve_left hexact

end

/-- Only a preset of 2000 pixels is configured. -/
def tallPreset : Options :=
  { Options.default with
    presetWindowHeights := [.fixed 2000]
    presetWindowHeights_ne := cons_ne_nil _ _ }

/-- A lone window that is toggled to the preset. -/
def tallTile : Column := (oneTile tallPreset).toggleWindowHeight none true

/-- On a working area of 720 pixels the window takes 2000. -/
theorem loneTile_preset_exceeds : ¬ ∀ (c : Column) (t : Tile) (d : TileData) (height : ℚ),
    c.Integral → c.isTabbed = false → c.pendingSizingMode = .normal →
    c.tiles = [t] → c.data = [d] →
    c.updateTileSizes.tiles.map Tile.requestedTileHeight = [some height] →
    height + c.options.gaps * 2 ≤
      max c.workingArea.size.h (t.minTileHeight + c.options.gaps * 2) := by
  intro hall
  obtain ⟨t, ht⟩ := length_eq_one_iff.mp (show tallTile.tiles.length = 1 by decide +kernel)
  obtain ⟨d, hd⟩ := length_eq_one_iff.mp (show tallTile.data.length = 1 by decide +kernel)
  have hle := hall tallTile t d 2000 (integral_of_values (by decide +kernel)) (by decide +kernel)
    (by decide +kernel) ht hd (by decide +kernel)
  have hmin : ∀ t ∈ tallTile.tiles, t.minTileHeight = 1 := by decide +kernel
  rw [hmin t (ht ▸ mem_singleton_self t),
    show tallTile.options.gaps = 16 by decide +kernel,
    show tallTile.workingArea.size.h = 720 by decide +kernel] at hle
  norm_num at hle

/-- A lone window that is toggled to the first of the default presets. -/
def presetTile : Column := (oneTile .default).toggleWindowHeight none true

theorem loneTile_fits_oneTile : ∃ t d height, presetTile.tiles = [t] ∧ presetTile.data = [d] ∧
    d.height = .preset 0 ∧
    presetTile.updateTileSizes.tiles.map Tile.requestedTileHeight = [some height] ∧
    (height + presetTile.options.gaps * 2 ≤ max presetTile.workingArea.size.h
      (t.minTileHeight + presetTile.options.gaps * 2) ↔ presetTile.LoneFits t d) := by
  obtain ⟨t, ht⟩ := length_eq_one_iff.mp (show presetTile.tiles.length = 1 by decide +kernel)
  obtain ⟨d, hd⟩ := length_eq_one_iff.mp (show presetTile.data.length = 1 by decide +kernel)
  have hpreset : ∀ d ∈ presetTile.data, d.height = .preset 0 := by decide +kernel
  have hheight := hpreset d (hd ▸ mem_singleton_self d)
  have hlen : 0 < presetTile.options.presetWindowHeights.length := by decide +kernel
  obtain ⟨height, h⟩ := @loneTile_fits_iff presetTile t d
    (integral_of_values (by decide +kernel)) (by decide +kernel) ht hd
    (by decide +kernel) fun idx hidx => WindowHeight.preset.inj (hheight.symm.trans hidx) ▸ hlen
  exact ⟨t, d, height, ht, hd, hheight, h⟩

end Column

end Macniri.Layout
