import Mathlib.Algebra.Ring.Subring.Basic
import Mathlib.Algebra.Order.BigOperators.Group.List
import Mathlib.Tactic.Linarith
import Mathlib.Tactic.FieldSimp
import Mathlib.Tactic.Ring
import Macniri.Scrolling.Column

/-! The distribution of the height of a column among its tiles. -/
namespace Macniri.Layout

open Option List

/-! Whole numbers of pixels. -/

/-- The rationals that are integers. -/
def wholes : Subring ℚ := (Int.castRingHom ℚ).range

theorem mem_wholes {x : ℚ} : x ∈ wholes ↔ ∃ n : ℤ, (n : ℚ) = x := Iff.rfl

variable {x y : ℚ}

theorem max_mem_wholes (hx : x ∈ wholes) (hy : y ∈ wholes) : max x y ∈ wholes := by
  obtain h | h := max_choice x y
  · rwa [h]
  · rwa [h]

theorem min_mem_wholes (hx : x ∈ wholes) (hy : y ∈ wholes) : min x y ∈ wholes := by
  obtain h | h := min_choice x y
  · rwa [h]
  · rwa [h]

theorem intCast_mem_wholes (n : ℤ) : (n : ℚ) ∈ wholes := ⟨n, rfl⟩

theorem round_mem_wholes (x : ℚ) : round x ∈ wholes := by
  unfold round
  split
  · exact intCast_mem_wholes _
  · exact wholes.neg_mem (intCast_mem_wholes _)

theorem clamp_mem_wholes {lo hi : ℚ} (hx : x ∈ wholes) (hlo : lo ∈ wholes) (hhi : hi ∈ wholes) :
    clamp x lo hi ∈ wholes := by
  unfold clamp
  split
  · exact hlo
  · split
    · exact hhi
    · exact hx

theorem round_of_whole (hx : x ∈ wholes) : round x = x := by
  obtain ⟨n, rfl⟩ := mem_wholes.mp hx
  have hfloor (m : ℤ) : ⌊(m : ℚ) + 1 / 2⌋ = m := by
    rw [Int.floor_eq_iff]
    constructor
    · linarith
    · linarith
  unfold round
  split
  · rw [hfloor]
  · rw [← Int.cast_neg n, hfloor, Int.cast_neg, neg_neg]

theorem le_round (hx : x ∈ wholes) (hpos : 0 ≤ x) (h : x ≤ y) : x ≤ round y := by
  obtain ⟨n, rfl⟩ := mem_wholes.mp hx
  unfold round
  rw [if_pos (hpos.trans h), Int.cast_le]
  exact Int.le_floor.mpr (by linarith)

/-! Tiles. -/

namespace Tile

variable {t : Tile}

@[simp] theorem tileHeight_windowHeight (t : Tile) (x : ℚ) :
    t.tileHeightForWindowHeight (t.windowHeightForTileHeight x) = x := by
  unfold tileHeightForWindowHeight windowHeightForTileHeight
  split
  · rfl
  · ring

@[simp] theorem windowHeight_tileHeight (t : Tile) (x : ℚ) :
    t.windowHeightForTileHeight (t.tileHeightForWindowHeight x) = x := by
  unfold tileHeightForWindowHeight windowHeightForTileHeight
  split
  · rfl
  · ring

theorem windowHeight_le (t : Tile) :
    t.windowHeightForTileHeight x ≤ t.windowHeightForTileHeight y ↔ x ≤ y := by
  unfold windowHeightForTileHeight
  split
  · rfl
  · exact sub_le_sub_iff_right _

theorem tileHeight_le (t : Tile) :
    t.tileHeightForWindowHeight x ≤ t.tileHeightForWindowHeight y ↔ x ≤ y := by
  unfold tileHeightForWindowHeight
  split
  · rfl
  · exact add_le_add_iff_right _

theorem windowHeight_mem_wholes (hborder : t.border.width ∈ wholes) (hx : x ∈ wholes) :
    t.windowHeightForTileHeight x ∈ wholes := by
  unfold windowHeightForTileHeight
  split
  · exact hx
  · exact wholes.sub_mem hx (wholes.mul_mem hborder (intCast_mem_wholes 2))

theorem tileHeight_mem_wholes (hborder : t.border.width ∈ wholes) (hx : x ∈ wholes) :
    t.tileHeightForWindowHeight x ∈ wholes := by
  unfold tileHeightForWindowHeight
  split
  · exact hx
  · exact wholes.add_mem hx (wholes.mul_mem hborder (intCast_mem_wholes 2))

end Tile

/-! One round of the distribution. -/

namespace HeightRow

variable {r : HeightRow} {rows : List HeightRow} {H W a w : ℚ} {n i : ℕ}

/-- Heights are whole, minimum heights leave room for the window, and weights are positive. -/
structure Ok (r : HeightRow) : Prop where
  border : r.tile.border.width ∈ wholes
  minH : r.minH ∈ wholes
  room : 1 ≤ r.tile.windowHeightForTileHeight r.minH
  weight : ∀ w, r.height = .auto w → 0 < w

def isAuto (r : HeightRow) : Bool :=
  match r.height with
  | .auto _ => true
  | .fixed _ => false

/-- The minimum height that an automatic tile still has to get. -/
def autoMin (r : HeightRow) : ℚ :=
  match r.height with
  | .auto _ => r.minH
  | .fixed _ => 0

theorem roundAuto_mem_wholes (h : r.Ok) (a : ℚ) : r.roundAuto a ∈ wholes :=
  Tile.tileHeight_mem_wholes h.border (max_mem_wholes (round_mem_wholes _) (intCast_mem_wholes 1))

theorem roundAuto_of_whole (h : r.Ok) (ha : a ∈ wholes) (hmin : r.minH ≤ a) : r.roundAuto a = a := by
  have hroom := h.room.trans ((Tile.windowHeight_le r.tile).mpr hmin)
  unfold roundAuto
  rw [round_of_whole (Tile.windowHeight_mem_wholes h.border ha), max_eq_left hroom,
    Tile.tileHeight_windowHeight]

theorem minH_le_roundAuto (h : r.Ok) (hmin : r.minH ≤ a) : r.minH ≤ r.roundAuto a := by
  have hle : r.tile.windowHeightForTileHeight r.minH ≤ round (r.tile.windowHeightForTileHeight a) :=
    le_round (Tile.windowHeight_mem_wholes h.border h.minH) (zero_le_one.trans h.room)
      ((Tile.windowHeight_le r.tile).mpr hmin)
  have hmax := (Tile.tileHeight_le r.tile).mpr (hle.trans (le_max_left _ 1))
  rwa [Tile.tileHeight_windowHeight] at hmax

theorem fixedHeight_of_fixed {px : ℚ} (h : r.height = .fixed px) : r.fixedHeight = px := by
  unfold fixedHeight
  rw [h]

theorem sum_weight_nonneg (hok : ∀ r ∈ rows, r.Ok) : 0 ≤ (rows.map weight).sum := by
  refine sum_nonneg fun x hx => ?_
  obtain ⟨r, hr, rfl⟩ := List.mem_map.mp hx
  unfold weight
  split
  · exact le_rfl
  · rename_i w h
    exact ((hok r hr).weight w h).le

theorem sum_weight_eq_zero (h : rows.countP isAuto = 0) : (rows.map weight).sum = 0 := by
  refine sum_eq_zero fun x hx => ?_
  obtain ⟨r, hr, rfl⟩ := List.mem_map.mp hx
  have hfixed := countP_eq_zero.mp h r hr
  unfold isAuto at hfixed
  unfold weight
  cases hh : r.height with
  | fixed px => rfl
  | auto w => simp [hh] at hfixed

/-- Without automatic tiles the fixed heights are filled in. -/
theorem fill_of_fixed (h : rows.countP isAuto = 0) (H W : ℚ) : fill rows H W = rows.map fixedHeight := by
  induction rows generalizing H W with
  | nil => rfl
  | cons r rest ih =>
    cases hr : r.height with
    | fixed px =>
      have hrest : rest.countP isAuto = 0 := by
        simpa [countP_cons, isAuto, hr] using h
      simp only [fill, hr, map_cons, fixedHeight]
      rw [ih hrest]
    | auto w => simp [isAuto, hr] at h

theorem firstUnsatisfied_of_fixed (h : rows.countP isAuto = 0) (H W : ℚ) :
    firstUnsatisfied rows H W = none := by
  induction rows generalizing H W with
  | nil => rfl
  | cons r rest ih =>
    cases hr : r.height with
    | fixed px =>
      have hrest : rest.countP isAuto = 0 := by
        simpa [countP_cons, isAuto, hr] using h
      simp only [firstUnsatisfied, hr, ih hrest, map_none]
    | auto w => simp [isAuto, hr] at h

/-- What the distribution may give to a tile. -/
def Given (r : HeightRow) (h : ℚ) : Prop :=
  match r.height with
  | .fixed px => h = px
  | .auto _ => r.minH ≤ h ∧ h ∈ wholes

theorem given_fixedHeight (h : rows.countP isAuto = 0) :
    Forall₂ Given rows (rows.map fixedHeight) := by
  induction rows with
  | nil => exact .nil
  | cons r rest ih =>
    cases hr : r.height with
    | fixed px =>
      have hrest : rest.countP isAuto = 0 := by
        simpa [countP_cons, isAuto, hr] using h
      exact .cons (by simp [Given, fixedHeight, hr]) (ih hrest)
    | auto w => simp [isAuto, hr] at h

theorem sum_le_of_given {heights : List ℚ} (h : Forall₂ Given rows heights) :
    (rows.map fixedHeight).sum + (rows.map autoMin).sum ≤ heights.sum := by
  induction h with
  | nil => simp
  | @cons r height rest heights hr _ ih =>
    have hhead : r.fixedHeight + r.autoMin ≤ height := by
      unfold Given at hr
      unfold fixedHeight autoMin
      cases hh : r.height with
      | fixed px =>
        rw [hh] at hr
        simp [hr]
      | auto w =>
        rw [hh] at hr
        simpa using hr.1
    simp only [map_cons, sum_cons]
    linarith

/-- When no minimum height is left unsatisfied, every tile is given what it may get. -/
theorem given_fill (hok : ∀ r ∈ rows, r.Ok) (h : firstUnsatisfied rows H W = none) :
    Forall₂ Given rows (fill rows H W) := by
  induction rows generalizing H W with
  | nil => exact .nil
  | cons r rest ih =>
    have hrest : ∀ r ∈ rest, r.Ok := fun r hr => hok r (mem_cons_of_mem _ hr)
    unfold firstUnsatisfied at h
    unfold fill
    cases hr : r.height with
    | fixed px =>
      simp only [hr, map_eq_none_iff] at h
      exact .cons (by simp [Given, hr]) (ih hrest h)
    | auto w =>
      simp only [hr] at h
      split at h
      · cases h
      · rename_i hmin
        have hr' := hok r mem_cons_self
        refine .cons ?_ (ih hrest (map_eq_none_iff.mp h))
        simp only [Given, hr]
        exact ⟨minH_le_roundAuto hr' (not_lt.mp hmin), roundAuto_mem_wholes hr' _⟩

/-- The last automatic tile takes all that is left, so nothing is. -/
theorem sum_fill (hok : ∀ r ∈ rows, r.Ok) (hH : H ∈ wholes) (hW : W = (rows.map weight).sum)
    (hauto : 0 < rows.countP isAuto) (h : firstUnsatisfied rows H W = none) :
    (fill rows H W).sum = H + (rows.map fixedHeight).sum := by
  induction rows generalizing H W with
  | nil => simp at hauto
  | cons r rest ih =>
    have hrest : ∀ r ∈ rest, r.Ok := fun r hr => hok r (mem_cons_of_mem _ hr)
    have hr' := hok r mem_cons_self
    unfold firstUnsatisfied at h
    unfold fill
    cases hr : r.height with
    | fixed px =>
      simp only [hr, map_eq_none_iff] at h
      have hcount : 0 < rest.countP isAuto := by simpa [countP_cons, isAuto, hr] using hauto
      have hW' : W = (rest.map weight).sum := by simpa [weight, hr] using hW
      have htail := ih hrest hH hW' hcount h
      simp only [sum_cons, map_cons, htail, fixedHeight_of_fixed hr]
      ring
    | auto w =>
      simp only [hr] at h
      split at h
      · cases h
      · rename_i hmin
        have hsum : W = w + (rest.map weight).sum := by simpa [weight, hr] using hW
        have hfixed : r.fixedHeight = 0 := by simp [fixedHeight, hr]
        simp only [sum_cons, map_cons, hfixed]
        obtain hnone | hcount := Nat.eq_zero_or_pos (rest.countP isAuto)
        · have hlast : W = w := by rw [hsum, sum_weight_eq_zero hnone, add_zero]
          have hall : H * (w / W) = H := by
            rw [hlast, div_self (hr'.weight w hr).ne', mul_one]
          rw [hall] at hmin ⊢
          rw [fill_of_fixed hnone, roundAuto_of_whole hr' hH (not_lt.mp hmin)]
          ring
        · have htail := ih hrest (wholes.sub_mem hH (roundAuto_mem_wholes hr' _))
            (show W - w = (rest.map weight).sum by rw [hsum]; ring) hcount (map_eq_none_iff.mp h)
          rw [htail]
          ring

theorem firstUnsatisfied_auto (h : firstUnsatisfied rows H W = some i) :
    ∃ w tile minH, rows[i]? = some ⟨.auto w, tile, minH⟩ := by
  induction rows generalizing H W i with
  | nil => cases h
  | cons r rest ih =>
    unfold firstUnsatisfied at h
    cases hr : r.height with
    | fixed px =>
      simp only [hr, map_eq_some_iff] at h
      obtain ⟨j, hj, rfl⟩ := h
      exact ih hj
    | auto w =>
      simp only [hr] at h
      split at h
      · obtain rfl := some.inj h
        exact ⟨w, r.tile, r.minH, by rw [← hr]; rfl⟩
      · obtain ⟨j, hj, rfl⟩ := map_eq_some_iff.mp h
        exact ih hj

/-- A single automatic tile is given all of the height. -/
theorem lt_of_firstUnsatisfied (hok : ∀ r ∈ rows, r.Ok) (hW : W = (rows.map weight).sum)
    (hone : rows.countP isAuto = 1) (h : firstUnsatisfied rows H W = some i) :
    H < (rows.map autoMin).sum := by
  induction rows generalizing H W i with
  | nil => cases h
  | cons r rest ih =>
    unfold firstUnsatisfied at h
    cases hr : r.height with
    | fixed px =>
      simp only [hr, map_eq_some_iff] at h
      obtain ⟨j, hj, rfl⟩ := h
      have hcount : rest.countP isAuto = 1 := by simpa [countP_cons, isAuto, hr] using hone
      have hlt := ih (fun r hr => hok r (mem_cons_of_mem _ hr)) (by simpa [weight, hr] using hW)
        hcount hj
      simpa [autoMin, hr] using hlt
    | auto w =>
      have hcount : rest.countP isAuto = 0 := by simpa [countP_cons, isAuto, hr] using hone
      have hlast : W = w := by
        rw [hW, map_cons, sum_cons, sum_weight_eq_zero hcount, add_zero]
        simp [weight, hr]
      have hrest : (rest.map autoMin).sum = 0 := by
        refine sum_eq_zero fun x hx => ?_
        obtain ⟨r', hr', rfl⟩ := List.mem_map.mp hx
        have hfixed := countP_eq_zero.mp hcount r' hr'
        unfold isAuto at hfixed
        unfold autoMin
        cases hh : r'.height with
        | fixed px => rfl
        | auto w => simp [hh] at hfixed
      simp only [hr] at h
      rw [hlast, div_self ((hok r mem_cons_self).weight w hr).ne', mul_one] at h
      split at h
      · rename_i hmin
        simpa [autoMin, hr, hrest] using hmin
      · rw [firstUnsatisfied_of_fixed hcount] at h
        cases h

/-! The whole loop. -/

theorem sum_map_set {α : Type} {l : List α} {i : ℕ} {a b : α} (f : α → ℚ) (h : l[i]? = some a) :
    ((l.set i b).map f).sum = (l.map f).sum - f a + f b := by
  induction l generalizing i with
  | nil => cases h
  | cons c l ih =>
    cases i with
    | zero =>
      obtain rfl := some.inj h
      simp only [set_cons_zero, map_cons, sum_cons]
      ring
    | succ i =>
      simp only [set_cons_succ, map_cons, sum_cons, ih h]
      ring

/-- A tile gets its minimum height. -/
def fixAtMin (rows : List HeightRow) (i : ℕ) (r : HeightRow) : List HeightRow :=
  rows.set i ⟨.fixed r.minH, r.tile, r.minH⟩

section fixAtMin

variable (hr : rows[i]? = some r) (hw : r.height = .auto w)

include hr hw

theorem countP_fixAtMin : (fixAtMin rows i r).countP isAuto = rows.countP isAuto - 1 := by
  obtain ⟨hi, hget⟩ := List.getElem?_eq_some_iff.mp hr
  unfold fixAtMin
  rw [countP_set hi, hget]
  simp [isAuto, hw]

theorem sum_weight_fixAtMin : ((fixAtMin rows i r).map weight).sum = (rows.map weight).sum - w := by
  have hweight : r.weight = w := by simp [weight, hw]
  rw [fixAtMin, sum_map_set weight hr, hweight]
  simp [weight]

theorem sum_fixedHeight_fixAtMin :
    ((fixAtMin rows i r).map fixedHeight).sum = (rows.map fixedHeight).sum + r.minH := by
  have hfixed : r.fixedHeight = 0 := by simp [fixedHeight, hw]
  rw [fixAtMin, sum_map_set fixedHeight hr, hfixed]
  simp [fixedHeight]

theorem sum_autoMin_fixAtMin :
    ((fixAtMin rows i r).map autoMin).sum = (rows.map autoMin).sum - r.minH := by
  have hmin : r.autoMin = r.minH := by simp [autoMin, hw]
  rw [fixAtMin, sum_map_set autoMin hr, hmin]
  simp [autoMin]

end fixAtMin

theorem ok_fixAtMin (hok : ∀ r ∈ rows, r.Ok) (hr : rows[i]? = some r) :
    ∀ r' ∈ fixAtMin rows i r, r'.Ok := by
  intro r' hr'
  obtain h | h := mem_or_eq_of_mem_set hr'
  · exact hok r' h
  · have hmem := hok r (mem_of_getElem? hr)
    rw [h]
    exact ⟨hmem.border, hmem.minH, hmem.room, fun w hw => nomatch hw⟩

/-- A round of the loop: the first tile with too little gets its minimum height, or all are given
their share. -/
theorem distribute_cases (n : ℕ) (rows : List HeightRow) (H W : ℚ) :
    (firstUnsatisfied rows H W = none ∧ distribute (n + 1) rows H W = fill rows H W) ∨
    ∃ i r w, firstUnsatisfied rows H W = some i ∧ rows[i]? = some r ∧ r.height = .auto w ∧
      distribute (n + 1) rows H W = distribute n (fixAtMin rows i r) (H - r.minH) (W - w) := by
  cases h : firstUnsatisfied rows H W with
  | none => exact .inl ⟨rfl, by simp [distribute, h]⟩
  | some i =>
    obtain ⟨w, tile, minH, hr⟩ := firstUnsatisfied_auto h
    exact .inr ⟨i, _, w, rfl, hr, rfl, by simp [distribute, h, hr, fixAtMin]⟩

theorem forall₂_of_set {α β : Type} {P : α → β → Prop} {l : List α} {i : ℕ} {a b : α} {m : List β}
    (ha : l[i]? = some a) (hp : ∀ y, P b y → P a y) (h : Forall₂ P (l.set i b) m) :
    Forall₂ P l m := by
  induction l generalizing i m with
  | nil => cases ha
  | cons c l ih =>
    cases i with
    | zero =>
      obtain rfl := some.inj ha
      obtain _ | ⟨hhead, htail⟩ := h
      exact .cons (hp _ hhead) htail
    | succ i =>
      obtain _ | ⟨hhead, htail⟩ := h
      exact .cons hhead (ih ha htail)

/-- As many rounds as there are automatic tiles are enough. -/
theorem given_distribute (hok : ∀ r ∈ rows, r.Ok) (hn : rows.countP isAuto ≤ n) (H W : ℚ) :
    Forall₂ Given rows (distribute n rows H W) := by
  induction n generalizing rows H W with
  | zero =>
    have hzero := Nat.le_zero.mp hn
    rw [distribute, fill_of_fixed hzero]
    exact given_fixedHeight hzero
  | succ n ih =>
    obtain ⟨hnone, heq⟩ | ⟨i, r, w, -, hr, hw, heq⟩ := distribute_cases n rows H W
    · exact heq ▸ given_fill hok hnone
    · have hcount := countP_fixAtMin hr hw
      rw [heq]
      refine forall₂_of_set hr (fun y hy => ?_) (ih (ok_fixAtMin hok hr) (by omega) _ _)
      have hmin : y = r.minH := hy
      simp only [Given, hw]
      exact ⟨hmin.ge, hmin ▸ (hok r (mem_of_getElem? hr)).minH⟩

/-- If the minimum heights fit, the heights add up. -/
theorem sum_distribute (hok : ∀ r ∈ rows, r.Ok) (hn : rows.countP isAuto ≤ n) (hH : H ∈ wholes)
    (hW : W = (rows.map weight).sum) (hauto : 0 < rows.countP isAuto)
    (hfit : (rows.map autoMin).sum ≤ H) :
    (distribute n rows H W).sum = H + (rows.map fixedHeight).sum := by
  induction n generalizing rows H W with
  | zero => omega
  | succ n ih =>
    obtain ⟨hnone, heq⟩ | ⟨i, r, w, hi, hr, hw, heq⟩ := distribute_cases n rows H W
    · exact heq ▸ sum_fill hok hH hW hauto hnone
    · have hcount := countP_fixAtMin hr hw
      have hmore : rows.countP isAuto ≠ 1 :=
        fun hone => absurd (lt_of_firstUnsatisfied hok hW hone hi) (not_lt.mpr hfit)
      have hrest := ih (H := H - r.minH) (W := W - w) (ok_fixAtMin hok hr) (by omega)
        (wholes.sub_mem hH (hok r (mem_of_getElem? hr)).minH)
        (by rw [sum_weight_fixAtMin hr hw, hW]) (by omega)
        (by rw [sum_autoMin_fixAtMin hr hw]; linarith)
      rw [heq, hrest, sum_fixedHeight_fixAtMin hr hw]
      ring

/-- If they do not, each automatic tile gets its minimum height. -/
theorem distribute_of_lt (hok : ∀ r ∈ rows, r.Ok) (hn : rows.countP isAuto ≤ n) (hH : H ∈ wholes)
    (hW : W = (rows.map weight).sum) (hlt : H < (rows.map autoMin).sum) :
    distribute n rows H W = rows.map fun r => r.fixedHeight + r.autoMin := by
  have hfixed {rows : List HeightRow} (hzero : rows.countP isAuto = 0) :
      rows.map fixedHeight = rows.map fun r => r.fixedHeight + r.autoMin := by
    refine map_congr_left fun r hr => ?_
    have hnot := countP_eq_zero.mp hzero r hr
    unfold isAuto at hnot
    cases hh : r.height with
    | fixed px => simp [autoMin, hh]
    | auto w => simp [hh] at hnot
  induction n generalizing rows H W with
  | zero =>
    have hzero := Nat.le_zero.mp hn
    rw [distribute, fill_of_fixed hzero, hfixed hzero]
  | succ n ih =>
    obtain ⟨hnone, heq⟩ | ⟨i, r, w, hi, hr, hw, heq⟩ := distribute_cases n rows H W
    · obtain hzero | hauto := Nat.eq_zero_or_pos (rows.countP isAuto)
      · rw [heq, fill_of_fixed hzero, hfixed hzero]
      · -- Every tile has its minimum height, and together they take no more than there is.
        have hsum := sum_fill hok hH hW hauto hnone
        have hle := sum_le_of_given (given_fill hok hnone)
        linarith
    · have hcount := countP_fixAtMin hr hw
      rw [heq, ih (ok_fixAtMin hok hr) (by omega)
        (wholes.sub_mem hH (hok r (mem_of_getElem? hr)).minH)
        (by rw [sum_weight_fixAtMin hr hw, hW])
        (by rw [sum_autoMin_fixAtMin hr hw]; linarith)]
      unfold fixAtMin
      rw [map_set]
      obtain ⟨hlt, rfl⟩ := List.getElem?_eq_some_iff.mp hr
      have hsame : HeightRow.fixedHeight ⟨.fixed rows[i].minH, rows[i].tile, rows[i].minH⟩ +
          HeightRow.autoMin ⟨.fixed rows[i].minH, rows[i].tile, rows[i].minH⟩ =
          rows[i].fixedHeight + rows[i].autoMin := by
        simp [fixedHeight, autoMin, hw]
      rw [hsame]
      exact ext_getElem? fun j => by grind

/-- The height of a tile that has one by now. -/
def fixed? (r : HeightRow) : Option ℚ :=
  match r.height with
  | .fixed px => some px
  | .auto _ => none

/-- The loop with the number of automatic tiles that are left, as the source counts it. It is `none`
where the source panics, and where it takes more than the given number of rounds. -/
def distributeChecked : ℕ → List HeightRow → ℚ → ℚ → ℕ → Option (List ℚ)
  | _, rows, _, _, 0 => rows.mapM fixed?
  | 0, _, _, _, _ + 1 => none
  | rounds + 1, rows, heightLeft, totalWeight, autoTilesLeft + 1 =>
    match firstUnsatisfied rows heightLeft totalWeight with
    | some i =>
      match rows[i]? with
      | some r => distributeChecked rounds (fixAtMin rows i r) (heightLeft - r.minH)
          (totalWeight - r.weight) autoTilesLeft
      | none => none
    | none =>
      -- All automatic tiles are filled in, and none is left.
      if rows.countP isAuto = autoTilesLeft + 1 then some (fill rows heightLeft totalWeight) else none

theorem mapM_fixed (h : rows.countP isAuto = 0) : rows.mapM fixed? = some (rows.map fixedHeight) := by
  induction rows with
  | nil => rfl
  | cons r rest ih =>
    cases hr : r.height with
    | fixed px =>
      have hrest : rest.countP isAuto = 0 := by simpa [countP_cons, isAuto, hr] using h
      simp [mapM_cons, fixed?, hr, ih hrest, fixedHeight]
    | auto w => simp [isAuto, hr] at h

theorem distribute_of_fixed (h : rows.countP isAuto = 0) (n : ℕ) (H W : ℚ) :
    distribute n rows H W = rows.map fixedHeight := by
  cases n with
  | zero => exact fill_of_fixed h H W
  | succ n =>
    rw [distribute, firstUnsatisfied_of_fixed h]
    exact fill_of_fixed h H W

/-- The loop ends without a panic. -/
theorem distributeChecked_eq (hn : rows.countP isAuto ≤ n) (H W : ℚ) :
    distributeChecked n rows H W (rows.countP isAuto) = some (distribute n rows H W) := by
  induction n generalizing rows H W with
  | zero =>
    have hzero := Nat.le_zero.mp hn
    rw [distribute_of_fixed hzero, hzero, distributeChecked, mapM_fixed hzero]
  | succ n ih =>
    cases hcount : rows.countP isAuto with
    | zero => rw [distribute_of_fixed hcount, distributeChecked, mapM_fixed hcount]
    | succ k =>
      rw [distributeChecked]
      obtain ⟨hnone, heq⟩ | ⟨i, r, w, hi, hr, hw, heq⟩ := distribute_cases n rows H W
      · rw [hnone, heq, if_pos hcount]
      · have hleft := countP_fixAtMin hr hw
        have hweight : r.weight = w := by simp [weight, hw]
        have hrest := @ih (fixAtMin rows i r) (by omega) (H - r.minH) (W - w)
        rw [hleft, hcount, Nat.add_sub_cancel] at hrest
        rw [hi, heq, ← hrest]
        simp only [hr, hweight]

end HeightRow

end Macniri.Layout
