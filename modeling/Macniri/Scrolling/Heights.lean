import Macniri.Scrolling.Distribution
import Macniri.Scrolling.Step

/-! The heights that a column requests for its tiles. -/
namespace Macniri.Layout

open Option List

/-- The height of the tile around the window of the requested size. -/
def Tile.requestedTileHeight (t : Tile) : Option ℚ :=
  t.window.requestedSize.map fun size => t.tileHeightForWindowHeight size.h

/-- The minimum height of a tile as its column sees it. -/
def Tile.minTileHeight (t : Tile) : ℚ := max t.minSizeNonfullscreen.h 1

/-- A tile with a single possible height. -/
def Tile.IsExact (t : Tile) : Prop := t.minTileHeight = t.maxSizeNonfullscreen.h

instance (t : Tile) : Decidable t.IsExact := inferInstanceAs (Decidable (_ = _))

namespace Column

open HeightRow (Given Ok)

variable {c : Column} {t : Tile} {d : TileData} {i : ℕ} {px w : ℚ}

/-- All lengths are whole numbers of pixels, and at most one height is not automatic. -/
structure Integral (c : Column) : Prop where
  data : c.data.length = c.tiles.length
  heights : c.nonAuto ≤ 1
  workingArea : c.workingArea.size.h ∈ wholes
  gaps : c.options.gaps ∈ wholes
  border : ∀ t ∈ c.tiles, t.border.width ∈ wholes
  weight : ∀ d ∈ c.data, ∀ w, d.height = .auto w → 0 < w

/-- The heights without the gaps. -/
def heightWithoutGaps (c : Column) : ℚ := c.workingArea.size.h - c.options.gaps * (c.tiles.length + 1)

/-- The requested heights as the source computes them, with its counter and its panics, in as many
rounds as there are tiles. -/
def requestedHeightsChecked (c : Column) : Option (List ℚ) :=
  let rows := c.heightRows
  HeightRow.distributeChecked c.tiles.length rows
    (c.heightWithoutGaps - (rows.map HeightRow.fixedHeight).sum) (rows.map HeightRow.weight).sum
    (c.tiles.length - rows.countP (!·.isAuto))

/-- A tile before the distribution. -/
def row (c : Column) (t : Tile) (d : TileData) : HeightRow :=
  ⟨constrainHeight (c.tileHeight t d) t.minTileHeight t.maxSizeNonfullscreen.h, t, t.minTileHeight⟩

theorem requestedHeights_eq (c : Column) :
    c.requestedHeights = HeightRow.distribute c.heightRows.length c.heightRows
      (c.heightWithoutGaps - (c.heightRows.map HeightRow.fixedHeight).sum)
      (c.heightRows.map HeightRow.weight).sum := rfl

theorem map_zip_zipWith {α β γ δ : Type} (f : α → β → γ) (g : α × γ → δ) (xs : List α) (ys : List β) :
    (List.zipWith Prod.mk xs (List.zipWith f xs ys)).map g =
      (xs.zip ys).map fun p => g (p.1, f p.1 p.2) := by
  induction xs generalizing ys with
  | nil => rfl
  | cons x xs ih =>
    cases ys with
    | nil => rfl
    | cons y ys => simp [ih]

/-- The tiles with their data. -/
def pairs (c : Column) : List (Tile × TileData) := c.tiles.zip c.data

theorem heightRows_eq (h : c.isTabbed = false) :
    c.heightRows = c.pairs.map fun p => c.row p.1 p.2 := by
  unfold heightRows
  dsimp only
  rw [map_zip_zipWith]
  simp only [h, Bool.false_eq_true, if_false]
  rfl

theorem mem_pairs (h : (t, d) ∈ c.pairs) : t ∈ c.tiles ∧ d ∈ c.data :=
  ⟨(of_mem_zip h).1, (of_mem_zip h).2⟩

/-! The height of a tile before the distribution. -/

theorem minTileHeight_mem_wholes (hborder : t.border.width ∈ wholes) : t.minTileHeight ∈ wholes := by
  refine max_mem_wholes ?_ (intCast_mem_wholes 1)
  unfold Tile.minSizeNonfullscreen
  dsimp only
  split
  · exact intCast_mem_wholes _
  · exact wholes.add_mem (max_mem_wholes (intCast_mem_wholes 1) (intCast_mem_wholes _))
      (wholes.mul_mem hborder (intCast_mem_wholes 2))

theorem maxHeight_mem_wholes (hborder : t.border.width ∈ wholes) :
    t.maxSizeNonfullscreen.h ∈ wholes := by
  unfold Tile.maxSizeNonfullscreen
  dsimp only
  split
  · exact intCast_mem_wholes _
  · dsimp only
    split
    · exact wholes.add_mem (intCast_mem_wholes _) (wholes.mul_mem hborder (intCast_mem_wholes 2))
    · exact intCast_mem_wholes _

/-- A minimum height leaves a pixel for the window. -/
theorem one_le_windowHeight (t : Tile) : 1 ≤ t.windowHeightForTileHeight t.minTileHeight := by
  unfold Tile.windowHeightForTileHeight Tile.minTileHeight Tile.minSizeNonfullscreen
  dsimp only
  split
  · exact le_max_right ..
  · dsimp only
    have hle := le_max_left (max 1 t.window.minSize.toSize.h + t.border.width * 2) 1
    have hone := le_max_left 1 t.window.minSize.toSize.h
    linarith

theorem tileHeight_one_le (t : Tile) : t.tileHeightForWindowHeight 1 ≤ t.minTileHeight := by
  have h := (Tile.tileHeight_le t).mpr (one_le_windowHeight t)
  rwa [Tile.tileHeight_windowHeight] at h

theorem presetWindowHeight_mem_wholes (c : Column) (t : Tile) (preset : PresetSize) :
    c.presetWindowHeight t preset ∈ wholes :=
  clamp_mem_wholes (round_mem_wholes _) (intCast_mem_wholes 1) (intCast_mem_wholes 100000)

theorem maxNonAuto_mem_wholes {m : ℚ} (h : c.maxNonAutoWindowHeight = some m) : m ∈ wholes := by
  unfold maxNonAutoWindowHeight at h
  split at h
  · split at h
    · cases h
    · obtain ⟨tile, -, rfl⟩ := of_map h
      exact max_mem_wholes (intCast_mem_wholes 1) (round_mem_wholes _)
  · cases h

theorem tileHeight_fixed_mem_wholes (hborder : t.border.width ∈ wholes)
    (h : c.tileHeight t d = .fixed px) : px ∈ wholes := by
  unfold tileHeight at h
  split at h
  · cases h
  · obtain rfl := TileHeight.fixed.inj h
    refine Tile.tileHeight_mem_wholes hborder ?_
    split
    · rename_i m hm
      exact min_mem_wholes (max_mem_wholes (round_mem_wholes _) (intCast_mem_wholes 1))
        (maxNonAuto_mem_wholes hm)
    · exact min_mem_wholes (max_mem_wholes (round_mem_wholes _) (intCast_mem_wholes 1))
        (round_mem_wholes _)
  · obtain rfl := TileHeight.fixed.inj h
    refine Tile.tileHeight_mem_wholes hborder ?_
    split
    · rename_i m hm
      exact min_mem_wholes (presetWindowHeight_mem_wholes c t _) (maxNonAuto_mem_wholes hm)
    · exact presetWindowHeight_mem_wholes c t _

theorem tileHeight_auto (h : c.tileHeight t d = .auto w) : d.height = .auto w := by
  unfold tileHeight at h
  split at h
  · rename_i hd
    rw [hd, TileHeight.auto.inj h]
  · cases h
  · cases h

theorem row_of_exact (h : t.IsExact) : (c.row t d).height = .fixed t.minTileHeight := by
  have heq : t.minTileHeight = t.maxSizeNonfullscreen.h := h
  unfold row constrainHeight
  rw [if_pos heq]
  dsimp only
  rw [← heq, min_self, ite_self, max_self]

theorem row_of_auto (h : ¬ t.IsExact) (hd : d.height = .auto w) : (c.row t d).height = .auto w := by
  have hne : t.minTileHeight ≠ t.maxSizeNonfullscreen.h := h
  unfold row constrainHeight tileHeight
  rw [if_neg hne, hd]

theorem row_of_fixed (h : ¬ t.IsExact) (hpx : c.tileHeight t d = .fixed px) :
    (c.row t d).height = .fixed (max (if 0 < t.maxSizeNonfullscreen.h
      then min px t.maxSizeNonfullscreen.h else px) t.minTileHeight) := by
  have hne : t.minTileHeight ≠ t.maxSizeNonfullscreen.h := h
  unfold row constrainHeight
  rw [if_neg hne, hpx]

/-- The height that a row starts with is allowed. -/
theorem row_fixed (hborder : t.border.width ∈ wholes) (h : (c.row t d).height = .fixed px) :
    t.minTileHeight ≤ px ∧ px ∈ wholes := by
  by_cases hexact : t.IsExact
  · rw [row_of_exact hexact] at h
    obtain rfl := TileHeight.fixed.inj h
    exact ⟨le_rfl, minTileHeight_mem_wholes hborder⟩
  · cases ht : c.tileHeight t d with
    | auto w =>
      rw [row_of_auto hexact (tileHeight_auto ht)] at h
      cases h
    | fixed height =>
      rw [row_of_fixed hexact ht] at h
      obtain rfl := TileHeight.fixed.inj h
      have hheight := tileHeight_fixed_mem_wholes hborder ht
      refine ⟨le_max_right .., max_mem_wholes ?_ (minTileHeight_mem_wholes hborder)⟩
      split
      · exact min_mem_wholes hheight (maxHeight_mem_wholes hborder)
      · exact hheight

theorem ok_row (hborder : t.border.width ∈ wholes) (hweight : ∀ w, d.height = .auto w → 0 < w) :
    (c.row t d).Ok := by
  refine ⟨hborder, minTileHeight_mem_wholes hborder, one_le_windowHeight t, fun w hw => ?_⟩
  by_cases hexact : t.IsExact
  · rw [row_of_exact hexact] at hw
    cases hw
  · cases ht : c.tileHeight t d with
    | auto w' =>
      have hd := tileHeight_auto ht
      rw [row_of_auto hexact hd] at hw
      exact TileHeight.auto.inj hw ▸ hweight w' hd
    | fixed height =>
      rw [row_of_fixed hexact ht] at hw
      cases hw

/-- What a tile takes before automatic tiles are given more than their minimum. -/
theorem taken_of_auto (h : t.IsExact ∨ d.height.isAuto = true) :
    (c.row t d).fixedHeight + (c.row t d).autoMin = t.minTileHeight := by
  by_cases hexact : t.IsExact
  · simp [HeightRow.fixedHeight, HeightRow.autoMin, row_of_exact hexact]
  · have hauto := h.resolve_left hexact
    cases hd : d.height with
    | auto w =>
      simp only [HeightRow.fixedHeight, HeightRow.autoMin, row_of_auto hexact hd, zero_add]
      rfl
    | fixed | preset => simp [hd, WindowHeight.isAuto] at hauto

theorem taken_le (hpx : c.tileHeight t d = .fixed px) :
    (c.row t d).fixedHeight + (c.row t d).autoMin ≤ max px t.minTileHeight := by
  by_cases hexact : t.IsExact
  · rw [taken_of_auto (.inl hexact)]
    exact le_max_right ..
  · simp only [HeightRow.fixedHeight, HeightRow.autoMin, row_of_fixed hexact hpx, add_zero]
    refine max_le_max_right _ ?_
    split
    · exact min_le_left ..
    · exact le_rfl

theorem le_taken (hborder : t.border.width ∈ wholes) :
    t.minTileHeight ≤ (c.row t d).fixedHeight + (c.row t d).autoMin := by
  unfold HeightRow.fixedHeight HeightRow.autoMin
  cases h : (c.row t d).height with
  | fixed px => simpa using (row_fixed hborder h).1
  | auto w => simp [row]

/-! All tiles together. -/

/-- The minimum heights of the tiles together. -/
def minHeight (c : Column) : ℚ := (c.tiles.map Tile.minTileHeight).sum

theorem map_fst_pairs (hdata : c.data.length = c.tiles.length) : c.pairs.map Prod.fst = c.tiles :=
  map_fst_zip hdata.ge

theorem map_tiles_eq {α : Type} (f : Tile → α) (hdata : c.data.length = c.tiles.length) :
    c.tiles.map f = c.pairs.map fun p => f p.1 := by
  calc c.tiles.map f
      = (c.pairs.map Prod.fst).map f := by rw [map_fst_pairs hdata]
    _ = c.pairs.map fun p => f p.1 := List.map_map

theorem sum_eraseIdx {α : Type} {l : List α} {a : α} (f : α → ℚ) (h : l[i]? = some a) :
    (l.map f).sum = f a + ((l.eraseIdx i).map f).sum := by
  induction l generalizing i with
  | nil => cases h
  | cons b l ih =>
    cases i with
    | zero =>
      obtain rfl := some.inj h
      simp
    | succ i =>
      simp only [eraseIdx_cons_succ, map_cons, sum_cons, ih h]
      ring

theorem sum_map_add_const {α : Type} (l : List α) (f : α → ℚ) (g : ℚ) :
    (l.map fun a => f a + g).sum = (l.map f).sum + g * l.length := by
  induction l with
  | nil => simp
  | cons a l ih =>
    simp only [map_cons, sum_cons, ih, length_cons, Nat.cast_add, Nat.cast_one]
    ring

theorem extraSize_of_not_tabbed (h : c.isTabbed = false) : c.extraSize = ⟨0, 0⟩ := by
  unfold extraSize
  rw [h]
  rfl

/-- The other tiles are automatic. -/
theorem auto_of_ne (hheights : c.nonAuto ≤ 1) (hi : c.data.findIdx? (!·.height.isAuto) = some i) :
    ∀ d ∈ c.data.eraseIdx i, d.height.isAuto = true := by
  obtain ⟨hlt, hnot, -⟩ := findIdx?_eq_some_iff_getElem.mp hi
  have hcount : c.nonAuto = c.data.countP (!·.height.isAuto) := countP_map
  have hperm := (getElem_cons_eraseIdx_perm hlt).countP_eq (!·.height.isAuto)
  rw [countP_cons, if_pos hnot] at hperm
  intro d hd
  by_contra hauto
  have hpos : 0 < (c.data.eraseIdx i).countP (!·.height.isAuto) :=
    countP_pos_iff.mpr ⟨d, hd, by simpa using hauto⟩
  omega

theorem eq_of_sum_le {α : Type} {l : List α} {f g : α → ℚ} (hle : ∀ a ∈ l, f a ≤ g a)
    (hsum : (l.map g).sum ≤ (l.map f).sum) : ∀ a ∈ l, f a = g a := by
  induction l with
  | nil => nofun
  | cons a l ih =>
    have hrest : ∀ b ∈ l, f b ≤ g b := fun b hb => hle b (.tail _ hb)
    have hsumRest := sum_le_sum hrest
    have ha := hle a (.head _)
    simp only [map_cons, sum_cons] at hsum
    intro b hb
    obtain rfl | hb := mem_cons.mp hb
    · linarith
    · exact ih hrest (by linarith) b hb

/-- What the other tiles of the column need at least. -/
def othersMinHeight (c : Column) (i : ℕ) : ℚ :=
  ((c.tiles.eraseIdx i).map Tile.minTileHeight).sum

theorem maxNonAuto_eq (htabbed : c.isTabbed = false) (hn : 2 ≤ c.tiles.length)
    (hi : c.data.findIdx? (!·.height.isAuto) = some i) (ht : c.tiles[i]? = some t) :
    c.maxNonAutoWindowHeight = some
      (max 1 (round (t.windowHeightForTileHeight (c.heightWithoutGaps - c.othersMinHeight i)))) := by
  have hlt : i < c.tiles.length := (List.getElem?_eq_some_iff.mp ht).1
  have hlen : ((c.tiles.eraseIdx i).length : ℚ) = c.tiles.length - 1 := by
    rw [length_eraseIdx_of_lt hlt, Nat.cast_sub (by omega), Nat.cast_one]
  have htaken : ((c.minSizes.eraseIdx i).map (·.h + c.options.gaps)).sum =
      c.othersMinHeight i + c.options.gaps * (c.tiles.length - 1) := by
    unfold minSizes
    rw [eraseIdx_map, List.map_map, ← hlen]
    exact sum_map_add_const (c.tiles.eraseIdx i) Tile.minTileHeight c.options.gaps
  have hleft : c.maxTileHeight - (c.othersMinHeight i + c.options.gaps * (c.tiles.length - 1)) =
      c.heightWithoutGaps - c.othersMinHeight i := by
    unfold maxTileHeight heightWithoutGaps
    rw [extraSize_of_not_tabbed htabbed]
    ring
  unfold maxNonAutoWindowHeight
  rw [if_pos (by simp [htabbed]; omega), hi]
  dsimp only
  rw [ht, htaken, hleft]
  rfl

/-- The height that is not automatic leaves room for the other tiles. -/
theorem tileHeight_fixed_le {m : ℚ} (hm : c.maxNonAutoWindowHeight = some m)
    (h : c.tileHeight t d = .fixed px) : px ≤ t.tileHeightForWindowHeight m := by
  unfold tileHeight at h
  rw [hm] at h
  split at h
  · cases h
  · obtain rfl := TileHeight.fixed.inj h
    exact (Tile.tileHeight_le t).mpr (min_le_right ..)
  · obtain rfl := TileHeight.fixed.inj h
    exact (Tile.tileHeight_le t).mpr (min_le_right ..)

theorem heightWithoutGaps_mem_wholes (hc : c.Integral) : c.heightWithoutGaps ∈ wholes :=
  wholes.sub_mem hc.workingArea
    (wholes.mul_mem hc.gaps (wholes.add_mem (intCast_mem_wholes c.tiles.length) wholes.one_mem))

theorem othersMinHeight_mem_wholes (hc : c.Integral) (i : ℕ) : c.othersMinHeight i ∈ wholes := by
  refine wholes.list_sum_mem fun x hx => ?_
  obtain ⟨t, ht, rfl⟩ := List.mem_map.mp hx
  exact minTileHeight_mem_wholes (hc.border t (mem_of_mem_eraseIdx ht))

theorem taken_nonAuto_le (hc : c.Integral) (htabbed : c.isTabbed = false)
    (hn : 2 ≤ c.tiles.length) (hi : c.data.findIdx? (!·.height.isAuto) = some i)
    (ht : c.tiles[i]? = some t) (hd : d.height.isAuto = false) :
    (c.row t d).fixedHeight + (c.row t d).autoMin ≤
      max t.minTileHeight (c.heightWithoutGaps - c.othersMinHeight i) := by
  have hborder := hc.border t (mem_of_getElem? ht)
  have hwhole := Tile.windowHeight_mem_wholes hborder
    (wholes.sub_mem (heightWithoutGaps_mem_wholes hc) (othersMinHeight_mem_wholes hc i))
  have hmax := maxNonAuto_eq htabbed hn hi ht
  rw [round_of_whole hwhole] at hmax
  cases hpx : c.tileHeight t d with
  | auto w => simp [tileHeight_auto hpx, WindowHeight.isAuto] at hd
  | fixed px =>
    have hle := tileHeight_fixed_le hmax hpx
    have hone := tileHeight_one_le t
    have hpx' : px ≤ max t.minTileHeight (c.heightWithoutGaps - c.othersMinHeight i) := by
      obtain h | h := max_choice 1
        (t.windowHeightForTileHeight (c.heightWithoutGaps - c.othersMinHeight i))
      · rw [h] at hle
        exact le_max_of_le_left (hle.trans hone)
      · rw [h, Tile.tileHeight_windowHeight] at hle
        exact le_max_of_le_right hle
    exact (taken_le hpx).trans (max_le hpx' (le_max_left ..))

theorem zip_eraseIdx {α β : Type} (xs : List α) (ys : List β) (i : ℕ) :
    (xs.zip ys).eraseIdx i = (xs.eraseIdx i).zip (ys.eraseIdx i) := by
  induction xs generalizing ys i with
  | nil => simp
  | cons x xs ih =>
    cases ys with
    | nil => simp
    | cons y ys =>
      cases i with
      | zero => rfl
      | succ i => simp [ih]

/-- The automatic tiles besides the `i`-th start with their minimum heights. -/
theorem sum_taken_of_auto (hc : c.Integral)
    (hauto : ∀ d ∈ c.data.eraseIdx i, d.height.isAuto = true) :
    ((c.pairs.eraseIdx i).map fun p =>
      (c.row p.1 p.2).fixedHeight + (c.row p.1 p.2).autoMin).sum = c.othersMinHeight i := by
  have hlen : (c.tiles.eraseIdx i).length ≤ (c.data.eraseIdx i).length := by
    rw [length_eraseIdx, length_eraseIdx, hc.data]
  unfold pairs
  rw [zip_eraseIdx, othersMinHeight, ← map_fst_zip hlen, List.map_map, map_fst_zip hlen]
  refine congrArg List.sum (map_congr_left ?_)
  rintro ⟨t, d⟩ hp
  exact taken_of_auto (.inr (hauto d (of_mem_zip hp).2))

theorem sum_taken_le (hc : c.Integral) (htabbed : c.isTabbed = false) (hn : 2 ≤ c.tiles.length) :
    (c.pairs.map fun p => (c.row p.1 p.2).fixedHeight + (c.row p.1 p.2).autoMin).sum ≤
      max c.minHeight c.heightWithoutGaps := by
  have hmin : c.minHeight = (c.pairs.map fun p => p.1.minTileHeight).sum :=
    congrArg List.sum (map_tiles_eq Tile.minTileHeight hc.data)
  cases hi : c.data.findIdx? (!·.height.isAuto) with
  | none =>
    refine le_max_of_le_left (hmin ▸ le_of_eq (congrArg List.sum (map_congr_left ?_)))
    rintro ⟨t, d⟩ hp
    have hauto := findIdx?_eq_none_iff.mp hi d (mem_pairs hp).2
    exact taken_of_auto (.inr (by simpa using hauto))
  | some i =>
    obtain ⟨hlt, hnot, -⟩ := findIdx?_eq_some_iff_getElem.mp hi
    obtain ⟨t, ht⟩ : ∃ t, c.tiles[i]? = some t := ⟨_, getElem?_eq_getElem (hc.data ▸ hlt)⟩
    have hp : c.pairs[i]? = some (t, c.data[i]) :=
      getElem?_zip_eq_some.mpr ⟨ht, getElem?_eq_getElem hlt⟩
    have htaken := taken_nonAuto_le hc htabbed hn hi ht (by simpa using hnot)
    have hothers : ((c.pairs.eraseIdx i).map fun p =>
        (c.row p.1 p.2).fixedHeight + (c.row p.1 p.2).autoMin).sum = c.othersMinHeight i :=
      sum_taken_of_auto hc (auto_of_ne hc.heights hi)
    have hminEq : c.minHeight = t.minTileHeight + c.othersMinHeight i := sum_eraseIdx _ ht
    rw [sum_eraseIdx _ hp, hothers, hminEq]
    obtain h | h := le_max_iff.mp htaken
    · exact le_max_of_le_left (by linarith)
    · exact le_max_of_le_right (by linarith)

/-! The heights after the distribution. -/

section

variable (hc : c.Integral) (htabbed : c.isTabbed = false)
include hc htabbed

theorem ok_heightRows : ∀ r ∈ c.heightRows, r.Ok := by
  rw [heightRows_eq htabbed]
  intro r hr
  obtain ⟨⟨t, d⟩, hp, rfl⟩ := List.mem_map.mp hr
  obtain ⟨ht, hd⟩ := mem_pairs hp
  exact ok_row (hc.border t ht) (hc.weight d hd)

theorem length_heightRows : c.heightRows.length = c.tiles.length := by
  rw [heightRows_eq htabbed, length_map, pairs, length_zip, hc.data, min_self]

theorem sum_fixedHeight_mem_wholes : (c.heightRows.map HeightRow.fixedHeight).sum ∈ wholes := by
  rw [heightRows_eq htabbed]
  refine wholes.list_sum_mem fun x hx => ?_
  obtain ⟨r, hr, rfl⟩ := List.mem_map.mp hx
  obtain ⟨⟨t, d⟩, hp, rfl⟩ := List.mem_map.mp hr
  unfold HeightRow.fixedHeight
  cases h : (c.row t d).height with
  | fixed px => exact (row_fixed (hc.border t (mem_pairs hp).1) h).2
  | auto w => exact wholes.zero_mem

theorem heightLeft_mem_wholes :
    c.heightWithoutGaps - (c.heightRows.map HeightRow.fixedHeight).sum ∈ wholes :=
  wholes.sub_mem (heightWithoutGaps_mem_wholes hc) (sum_fixedHeight_mem_wholes hc htabbed)

/-- The source's loop ends without a panic. -/
theorem requestedHeightsChecked_eq : c.requestedHeightsChecked = some c.requestedHeights := by
  have hcount : c.tiles.length - c.heightRows.countP (!·.isAuto) =
      c.heightRows.countP HeightRow.isAuto := by
    have hsplit := length_eq_countP_add_countP HeightRow.isAuto (l := c.heightRows)
    rw [length_heightRows hc htabbed] at hsplit
    simp only [Bool.not_eq_true, Bool.decide_eq_false] at hsplit
    omega
  unfold requestedHeightsChecked
  dsimp only
  rw [hcount, ← length_heightRows hc htabbed]
  exact HeightRow.distributeChecked_eq countP_le_length _ _

theorem given_requestedHeights : Forall₂ Given c.heightRows c.requestedHeights :=
  HeightRow.given_distribute (ok_heightRows hc htabbed) countP_le_length _ _

/-- Every tile is given a whole height that is at least its minimum height. -/
theorem requestedHeights_allowed :
    Forall₂ (fun t h => t.minTileHeight ≤ h ∧ h ∈ wholes) c.tiles c.requestedHeights := by
  have hgiven := given_requestedHeights hc htabbed
  rw [heightRows_eq htabbed, forall₂_map_left_iff] at hgiven
  rw [← map_fst_pairs hc.data, forall₂_map_left_iff]
  have hborder : ∀ p ∈ c.pairs, p.1.border.width ∈ wholes :=
    fun p hp => hc.border p.1 (mem_pairs hp).1
  refine ((forall₂_and_left _ _).mpr ⟨hborder, hgiven⟩).imp ?_
  rintro ⟨t, d⟩ h ⟨hwidth, hh⟩
  unfold Given at hh
  cases hr : (c.row t d).height with
  | fixed px =>
    rw [hr] at hh
    exact hh ▸ row_fixed hwidth hr
  | auto w =>
    rw [hr] at hh
    exact hh

omit hc in
theorem sum_taken_eq :
    (c.heightRows.map HeightRow.fixedHeight).sum + (c.heightRows.map HeightRow.autoMin).sum =
      (c.pairs.map fun p => (c.row p.1 p.2).fixedHeight + (c.row p.1 p.2).autoMin).sum := by
  rw [heightRows_eq htabbed, List.map_map, List.map_map, ← sum_map_add]
  rfl

theorem sum_requestedHeights (hn : 2 ≤ c.tiles.length) (hfit : c.minHeight ≤ c.heightWithoutGaps)
    (hauto : ∃ p ∈ c.pairs, p.2.height.isAuto = true ∧ ¬ p.1.IsExact) :
    c.requestedHeights.sum = c.heightWithoutGaps := by
  have hpos : 0 < c.heightRows.countP HeightRow.isAuto := by
    obtain ⟨⟨t, d⟩, hp, hd, hexact⟩ := hauto
    refine countP_pos_iff.mpr ⟨c.row t d, ?_, ?_⟩
    · rw [heightRows_eq htabbed]
      exact List.mem_map.mpr ⟨(t, d), hp, rfl⟩
    · cases hw : d.height with
      | auto w => simp [HeightRow.isAuto, row_of_auto hexact hw]
      | fixed | preset => simp [hw, WindowHeight.isAuto] at hd
  have htaken := sum_taken_le hc htabbed hn
  rw [← sum_taken_eq htabbed, max_eq_right hfit] at htaken
  have hsum := HeightRow.sum_distribute (ok_heightRows hc htabbed) countP_le_length
    (heightLeft_mem_wholes hc htabbed) rfl hpos (by linarith)
  rw [sub_add_cancel] at hsum
  exact hsum

/-- When the minimum heights do not fit, no tile is given more. -/
theorem requestedHeights_of_lt (hn : 2 ≤ c.tiles.length) (hlt : c.heightWithoutGaps < c.minHeight) :
    c.requestedHeights = c.tiles.map Tile.minTileHeight := by
  have htaken := sum_taken_le hc htabbed hn
  rw [max_eq_left hlt.le] at htaken
  have hmin : c.minHeight = (c.pairs.map fun p => p.1.minTileHeight).sum :=
    congrArg List.sum (map_tiles_eq Tile.minTileHeight hc.data)
  have hle : ∀ p ∈ c.pairs, p.1.minTileHeight ≤ (c.row p.1 p.2).fixedHeight + (c.row p.1 p.2).autoMin :=
    fun p hp => le_taken (hc.border p.1 (mem_pairs hp).1)
  have heq := eq_of_sum_le hle (htaken.trans hmin.le)
  have hsum := sum_taken_eq htabbed
  rw [← map_congr_left heq, ← hmin] at hsum
  rw [requestedHeights_eq, HeightRow.distribute_of_lt (ok_heightRows hc htabbed) countP_le_length
      (heightLeft_mem_wholes hc htabbed) rfl (by linarith [hlt]),
    map_tiles_eq Tile.minTileHeight hc.data, heightRows_eq htabbed, List.map_map]
  exact map_congr_left fun p hp => (heq p hp).symm

end

/-- A whole height that is allowed is requested as it is. -/
theorem requestedTileHeight_requestTileSize (hborder : t.border.width ∈ wholes)
    (size : Size) (hmin : t.minTileHeight ≤ size.h) (hsize : size.h ∈ wholes) :
    (t.requestTileSize size).requestedTileHeight = some size.h := by
  have hroom := (one_le_windowHeight t).trans ((Tile.windowHeight_le t).mpr hmin)
  obtain ⟨n, hn⟩ := mem_wholes.mp (Tile.windowHeight_mem_wholes (t := t) hborder hsize)
  have hback := t.tileHeight_windowHeight size.h
  unfold Tile.windowHeightForTileHeight at hroom hn hback
  unfold Tile.tileHeightForWindowHeight at hback
  unfold Tile.requestedTileHeight Tile.requestTileSize Window.requestSize
    Tile.tileHeightForWindowHeight
  dsimp only
  split at hn
  · rename_i hoff
    simp only [hoff, if_true, map_some, ← hn, Int.floor_intCast]
  · rename_i hoff
    rw [if_neg hoff] at hroom hback
    rw [if_neg hoff] at hback
    simp only [hoff, Bool.false_eq_true, if_false, map_some, max_eq_right hroom]
    rw [← hn, Int.floor_intCast, hn, hback]

/-- The heights that the windows of a column are asked for. -/
theorem requestedTileHeights_updateTileSizes (hc : c.Integral) (htabbed : c.isTabbed = false)
    (hmode : c.pendingSizingMode = .normal) :
    c.updateTileSizes.tiles.map Tile.requestedTileHeight = c.requestedHeights.map some := by
  have hallowed := requestedHeights_allowed hc htabbed
  have hlen := hallowed.length_eq
  unfold updateTileSizes
  rw [hmode]
  refine ext_getElem (by simp [hlen]) fun i hi hi' => ?_
  simp only [length_map, length_mapIdx] at hi hi'
  obtain ⟨hmin, hwhole⟩ := hallowed.get hi hi'
  simp only [getElem_map, getElem_mapIdx, getElem?_eq_getElem hi']
  exact requestedTileHeight_requestTileSize (hc.border _ (getElem_mem hi))
    ⟨c.requestedWidth, c.requestedHeights[i]⟩ hmin hwhole

/-- The heights of a column fill the working area exactly, unless the minimum heights do not fit. -/
theorem updateTileSizes_exact (hc : c.Integral) (htabbed : c.isTabbed = false)
    (hmode : c.pendingSizingMode = .normal) (hn : 2 ≤ c.tiles.length) :
    c.requestedHeightsChecked = some c.requestedHeights ∧
    c.updateTileSizes.tiles.map Tile.requestedTileHeight = c.requestedHeights.map some ∧
    Forall₂ (fun t h => t.minTileHeight ≤ h) c.tiles c.requestedHeights ∧
    ((c.tiles.map Tile.minTileHeight).sum + c.options.gaps * (c.tiles.length + 1) ≤
        c.workingArea.size.h →
      (∃ p ∈ c.tiles.zip c.data, p.2.height.isAuto = true ∧ ¬ p.1.IsExact) →
      c.requestedHeights.sum + c.options.gaps * (c.tiles.length + 1) = c.workingArea.size.h) ∧
    (c.workingArea.size.h <
        (c.tiles.map Tile.minTileHeight).sum + c.options.gaps * (c.tiles.length + 1) →
      c.requestedHeights = c.tiles.map Tile.minTileHeight) := by
  refine ⟨requestedHeightsChecked_eq hc htabbed,
    requestedTileHeights_updateTileSizes hc htabbed hmode,
    (requestedHeights_allowed hc htabbed).imp fun _ _ h => h.1, fun hfit hauto => ?_, fun hlt => ?_⟩
  · have hsum := sum_requestedHeights hc htabbed hn (le_sub_iff_add_le.mpr hfit) hauto
    rw [hsum, heightWithoutGaps, sub_add_cancel]
  · exact requestedHeights_of_lt hc htabbed hn (sub_lt_iff_lt_add.mpr hlt)

/-- A column with a window. -/
def oneTile (options : Options) : Column :=
  newWithTile (Tile.new (ScrollingSpace.testWindow 1) ⟨1280, 720⟩ 1 options) ⟨1280, 720⟩
    ⟨⟨0, 0⟩, ⟨1280, 720⟩⟩ ⟨⟨0, 0⟩, ⟨1280, 720⟩⟩ 1 (.proportion (1 / 2)) false

/-- A second window is opened under it. -/
def twoTiles : Column := (oneTile .default).addTileAt 1 (ScrollingSpace.testTile 2)

theorem integral_of_values (h : c.data.length = c.tiles.length ∧ c.nonAuto ≤ 1 ∧
    c.workingArea.size.h = 720 ∧ c.options.gaps = 16 ∧ (∀ t ∈ c.tiles, t.border.width = 4) ∧
    ∀ d ∈ c.data, d.height = .auto 1 ∨ d.height.isAuto = false) : c.Integral where
  data := h.1
  heights := h.2.1
  workingArea := ⟨720, h.2.2.1.symm⟩
  gaps := ⟨16, h.2.2.2.1.symm⟩
  border t ht := ⟨4, (h.2.2.2.2.1 t ht).symm⟩
  weight d hd w hw := by
    obtain hauto | hauto := h.2.2.2.2.2 d hd
    · exact WindowHeight.auto.inj (hauto.symm.trans hw) ▸ one_pos
    · simp [hw, WindowHeight.isAuto] at hauto

/-- Two windows share the working area. -/
theorem updateTileSizes_exact_twoTiles : twoTiles.requestedHeights.sum + 48 = 720 := by
  have hsum := (@updateTileSizes_exact twoTiles (integral_of_values (by decide +kernel))
    (by decide +kernel) (by decide +kernel) (by decide +kernel)).2.2.2.1 (by decide +kernel)
    (by decide +kernel)
  have hgaps : twoTiles.options.gaps * (twoTiles.tiles.length + 1) = 48 := by decide +kernel
  have harea : twoTiles.workingArea.size.h = 720 := by decide +kernel
  rwa [hgaps, harea] at hsum

end Column

end Macniri.Layout
