import Macniri.Scrolling.LoneTile

/-! Where the tab indicator draws the tabs of a column. -/
namespace Macniri.Layout

open List

def floorLogicalInPhysicalMax1 (scale logical : ℚ) : ℚ :=
  if logical = 0 then 0 else (⌊max (logical * scale) 1⌋ : ℤ) / scale

/-- `x.copysign(sign)`, of a number that is not negative. -/
def copysign (x sign : ℚ) : ℚ := if sign < 0 then -x else x

def Point.add (p q : Point) : Point := ⟨p.x + q.x, p.y + q.y⟩

def Rectangle.contains (r : Rectangle) (p : Point) : Bool :=
  r.loc.x ≤ p.x && p.x < r.loc.x + r.size.w && r.loc.y ≤ p.y && p.y < r.loc.y + r.size.h

namespace TabIndicatorPosition

def isVertical : TabIndicatorPosition → Bool
  | left | right => true
  | top | bottom => false

end TabIndicatorPosition

/-- The config, with what only the rectangles need. -/
structure TabIndicatorConfig extends TabIndicator where
  gapsBetweenTabs : ℚ
  totalProportion : Option ℚ
  deriving DecidableEq, Repr

/-- The tab indicator of a column, with the value of its open animation. -/
structure ColumnTabIndicator where
  openAnim : Option ℚ
  config : TabIndicatorConfig
  deriving DecidableEq, Repr

/-- What all tabs have in common. -/
structure TabRun where
  position : TabIndicatorPosition
  width : ℚ
  pixel : ℚ
  pxPerTab : ℚ
  gapsBetween : ℚ
  deriving DecidableEq, Repr

namespace TabRun

/-- The rectangle of a tab, by its length. -/
def tab (t : TabRun) (loc : Point) (length : ℚ) : Rectangle :=
  ⟨loc, if t.position.isVertical then ⟨t.width, length⟩ else ⟨length, t.width⟩⟩

/-- Go along the side. -/
def advance (t : TabRun) (loc : Point) (distance : ℚ) : Point :=
  if t.position.isVertical then { loc with y := loc.y + distance }
  else { loc with x := loc.x + distance }

/-- The tabs in order; the first ones are a pixel longer. -/
def rects (t : TabRun) : ℕ → ℕ → Point → List Rectangle
  | 0, _, _ => []
  | count + 1, onesLeft, loc =>
    let length := if 0 < onesLeft then t.pxPerTab + t.pixel else t.pxPerTab
    t.tab loc length :: t.rects count (onesLeft - 1) (t.advance loc (length + t.gapsBetween))

end TabRun

namespace ColumnTabIndicator

variable (t : ColumnTabIndicator)

def progress : ℚ := t.openAnim.elim 1 (max · 0)

/-- The size of the area along the side of the tabs. -/
def side (area : Rectangle) : ℚ :=
  if t.config.position.isVertical then area.size.h else area.size.w

def minLength (area : Rectangle) (scale : ℚ) : ℚ :=
  roundLogicalInPhysical scale (t.side area * clamp (t.config.totalProportion.getD (1 / 2)) 0 2)

/-- The gaps that the lengths are computed with. -/
def fullGaps (scale : ℚ) : ℚ :=
  roundLogicalInPhysicalMax1 scale t.config.gapsBetweenTabs

def shortestLength (count : ℕ) (scale : ℚ) : ℚ :=
  count * (1 / scale + t.fullGaps scale) - t.fullGaps scale

def fullLength (area : Rectangle) (count : ℕ) (scale : ℚ) : ℚ :=
  max (t.minLength area scale) (t.shortestLength count scale)

/-- The gaps that are drawn. -/
def gapsBetween (scale : ℚ) : ℚ :=
  roundLogicalInPhysical scale (t.config.gapsBetweenTabs * t.progress)

/-- The length of a tab before it is floored to pixels. -/
def exactPerTab (area : Rectangle) (count : ℕ) (scale : ℚ) : ℚ :=
  -- Computed before applying the animation to the gaps.
  ((t.fullLength area count scale + t.fullGaps scale) / count - t.fullGaps scale) * t.progress

def pxPerTab (area : Rectangle) (count : ℕ) (scale : ℚ) : ℚ :=
  floorLogicalInPhysicalMax1 scale (t.exactPerTab area count scale)

/-- The length of the tabs of a length each, with the gaps between them. -/
def lengthOf (count : ℕ) (scale perTab : ℚ) : ℚ :=
  count * (perTab + t.gapsBetween scale) - t.gapsBetween scale

/-- How many tabs are a pixel longer. -/
def onesLeft (area : Rectangle) (count : ℕ) (scale : ℚ) : ℕ :=
  ⌊round ((t.lengthOf count scale (t.exactPerTab area count scale) -
    t.lengthOf count scale (t.pxPerTab area count scale)) / (1 / scale))⌋.toNat

def width (scale : ℚ) : ℚ := roundLogicalInPhysicalMax1 scale t.config.width

def gap (scale : ℚ) : ℚ :=
  copysign (roundLogicalInPhysicalMax1 scale |t.config.gap|) t.config.gap

/-- Where the first tab is. -/
def shaderLoc (area : Rectangle) (count : ℕ) (scale : ℚ) : Point :=
  let start := roundLogicalInPhysical scale
    ((t.side area - t.lengthOf count scale (t.exactPerTab area count scale)) / 2)
  let loc : Point := match t.config.position with
    | .left => ⟨-t.gap scale - t.width scale, start⟩
    | .right => ⟨area.size.w + t.gap scale, start⟩
    | .top => ⟨start, -t.gap scale - t.width scale⟩
    | .bottom => ⟨start, area.size.h + t.gap scale⟩
  loc.add area.loc

def tabRun (area : Rectangle) (count : ℕ) (scale : ℚ) : TabRun where
  position := t.config.position
  width := t.width scale
  pixel := 1 / scale
  pxPerTab := t.pxPerTab area count scale
  gapsBetween := t.gapsBetween scale

def tabRects (area : Rectangle) (count : ℕ) (scale : ℚ) : List Rectangle :=
  (t.tabRun area count scale).rects count (t.onesLeft area count scale) (t.shaderLoc area count scale)

def hit (area : Rectangle) (tabCount : ℕ) (scale : ℚ) (point : Point) :
    Option ℕ :=
  if t.config.off then none
  else if t.config.hideWhenSingleTab && tabCount == 1 then none
  else (t.tabRects area tabCount scale).findIdx? (·.contains point)

end ColumnTabIndicator

/-! Along the side, and across it. -/

namespace Rectangle

def startAlong (r : Rectangle) (position : TabIndicatorPosition) : ℚ :=
  if position.isVertical then r.loc.y else r.loc.x

def lengthAlong (r : Rectangle) (position : TabIndicatorPosition) : ℚ :=
  if position.isVertical then r.size.h else r.size.w

def startAcross (r : Rectangle) (position : TabIndicatorPosition) : ℚ :=
  if position.isVertical then r.loc.x else r.loc.y

end Rectangle

/-- The rectangles are in order along the side, about equally long and with equal gaps, and span
`total`. -/
structure Tiles (position : TabIndicatorPosition) (pixel total : ℚ) (count : ℕ)
    (rects : List Rectangle) : Prop where
  all : rects.length = count
  long : ∀ r ∈ rects, pixel ≤ r.lengthAlong position
  even : ∀ r ∈ rects, ∀ r' ∈ rects, |r.lengthAlong position - r'.lengthAlong position| ≤ pixel
  aligned : ∀ r ∈ rects, ∀ r' ∈ rects, r.startAcross position = r'.startAcross position
  gaps : ∃ gap, 0 ≤ gap ∧ ∀ (i : ℕ) (r r' : Rectangle), rects[i]? = some r →
    rects[i + 1]? = some r' →
    r'.startAlong position = r.startAlong position + r.lengthAlong position + gap
  span : ∀ r r' : Rectangle, rects[0]? = some r → rects[count - 1]? = some r' →
    r'.startAlong position + r'.lengthAlong position - r.startAlong position = total

/-- Only a point inside of a tab hits it, and a point is inside of one tab at most. -/
structure HitsInside (t : ColumnTabIndicator) (area : Rectangle) (count : ℕ) (scale : ℚ) : Prop where
  inside : ∀ point i, t.hit area count scale point = some i →
    ∃ r, (t.tabRects area count scale)[i]? = some r ∧ r.contains point = true
  unique : ∀ (point : Point) (i j : ℕ) (r r' : Rectangle), (t.tabRects area count scale)[i]? = some r →
    (t.tabRects area count scale)[j]? = some r' → r.contains point = true →
      r'.contains point = true → i = j

/-! Where each tab is. -/

namespace TabRun

variable {t : TabRun} {count ones i j : ℕ} {loc : Point} {length distance : ℚ} {r : Rectangle}

@[simp] theorem startAlong_tab :
    (t.tab (t.advance loc distance) length).startAlong t.position =
      (t.tab loc length).startAlong t.position + distance := by
  unfold Rectangle.startAlong tab advance
  cases t.position.isVertical <;> rfl

@[simp] theorem lengthAlong_tab : (t.tab loc length).lengthAlong t.position = length := by
  unfold Rectangle.lengthAlong tab
  cases t.position.isVertical <;> rfl

@[simp] theorem startAcross_tab :
    (t.tab (t.advance loc distance) length).startAcross t.position =
      (t.tab loc length).startAcross t.position := by
  unfold Rectangle.startAcross tab advance
  cases t.position.isVertical <;> rfl

theorem advance_advance (x y : ℚ) : t.advance (t.advance loc x) y = t.advance loc (x + y) := by
  unfold advance
  cases t.position.isVertical
  · exact congrArg (fun x => Point.mk x loc.y) (add_assoc loc.x x y)
  · exact congrArg (fun y => Point.mk loc.x y) (add_assoc loc.y x y)

theorem advance_zero : t.advance loc 0 = loc := by
  unfold advance
  cases t.position.isVertical <;> simp

/-- The length of a tab. -/
def lengthAt (t : TabRun) (ones i : ℕ) : ℚ := if i < ones then t.pxPerTab + t.pixel else t.pxPerTab

/-- Where a tab starts after the first one. -/
def offset (t : TabRun) (ones i : ℕ) : ℚ :=
  i * (t.pxPerTab + t.gapsBetween) + (min i ones : ℕ) * t.pixel

theorem offset_succ (t : TabRun) (ones i : ℕ) :
    t.offset ones (i + 1) = t.offset ones i + t.lengthAt ones i + t.gapsBetween := by
  unfold offset lengthAt
  split
  · rename_i hlt
    rw [min_eq_left (by omega), min_eq_left (by omega)]
    push_cast
    ring
  · rename_i hge
    rw [min_eq_right (by omega), min_eq_right (by omega)]
    push_cast
    ring

theorem getElem?_rects (t : TabRun) (count ones : ℕ) (loc : Point) (i : ℕ) :
    (t.rects count ones loc)[i]? = if i < count
      then some (t.tab (t.advance loc (t.offset ones i)) (t.lengthAt ones i)) else none := by
  induction count generalizing ones loc i with
  | zero => rfl
  | succ count ih =>
    cases i with
    | zero =>
      have hoffset : t.offset ones 0 = 0 := by simp [offset]
      rw [if_pos (Nat.succ_pos count), hoffset, advance_zero]
      rfl
    | succ i =>
      have hrest : (t.rects (count + 1) ones loc)[i + 1]? = (t.rects count (ones - 1)
          (t.advance loc (t.lengthAt ones 0 + t.gapsBetween)))[i]? := rfl
      have hlength : t.lengthAt (ones - 1) i = t.lengthAt ones (i + 1) := by
        unfold lengthAt
        exact if_congr (by omega) rfl rfl
      have hoffset : t.lengthAt ones 0 + t.gapsBetween + t.offset (ones - 1) i =
          t.offset ones (i + 1) := by
        unfold offset lengthAt
        split
        · have hmin : min (i + 1) ones = min i (ones - 1) + 1 := by omega
          rw [hmin]
          push_cast
          ring
        · have hmin : min i (ones - 1) = 0 := by omega
          have hmin' : min (i + 1) ones = 0 := by omega
          rw [hmin, hmin']
          push_cast
          ring
      rw [hrest, ih, advance_advance, hoffset, hlength]
      exact if_congr (by omega) rfl rfl

theorem length_rects (t : TabRun) (count ones : ℕ) (loc : Point) :
    (t.rects count ones loc).length = count := by
  induction count generalizing ones loc with
  | zero => rfl
  | succ count ih => exact congrArg (· + 1) (ih ..)

theorem getElem?_rects_eq_some (h : (t.rects count ones loc)[i]? = some r) : i < count ∧
    r = t.tab (t.advance loc (t.offset ones i)) (t.lengthAt ones i) := by
  rw [getElem?_rects] at h
  split at h
  · exact ⟨‹_›, (Option.some.inj h).symm⟩
  · cases h

theorem mem_rects (h : r ∈ t.rects count ones loc) :
    ∃ i, i < count ∧ r = t.tab (t.advance loc (t.offset ones i)) (t.lengthAt ones i) := by
  obtain ⟨i, hi⟩ := mem_iff_getElem?.mp h
  exact ⟨i, getElem?_rects_eq_some hi⟩

theorem lengthAt_bounds (hpixel : 0 ≤ t.pixel) (ones i : ℕ) :
    t.pxPerTab ≤ t.lengthAt ones i ∧ t.lengthAt ones i ≤ t.pxPerTab + t.pixel := by
  unfold lengthAt
  split
  · exact ⟨by linarith, le_rfl⟩
  · exact ⟨le_rfl, by linarith⟩

/-- What all the tabs and the gaps between them span. -/
theorem tiles_rects (hpixel : 0 ≤ t.pixel) (hlong : t.pixel ≤ t.pxPerTab) (hgaps : 0 ≤ t.gapsBetween)
    (hcount : 1 ≤ count) (hones : ones ≤ count) (loc : Point) :
    Tiles t.position t.pixel (count * (t.pxPerTab + t.gapsBetween) - t.gapsBetween + ones * t.pixel)
      count (t.rects count ones loc) := by
  refine ⟨length_rects .., fun r hr => ?_, fun r hr r' hr' => ?_, fun r hr r' hr' => ?_,
    ⟨t.gapsBetween, hgaps, fun i r r' hr hr' => ?_⟩, fun r r' hr hr' => ?_⟩
  · obtain ⟨i, -, rfl⟩ := mem_rects hr
    rw [lengthAlong_tab]
    exact hlong.trans (lengthAt_bounds hpixel ones i).1
  · obtain ⟨i, -, rfl⟩ := mem_rects hr
    obtain ⟨j, -, rfl⟩ := mem_rects hr'
    have hi := lengthAt_bounds hpixel ones i
    have hj := lengthAt_bounds hpixel ones j
    rw [lengthAlong_tab, lengthAlong_tab, abs_le]
    exact ⟨by linarith, by linarith⟩
  · obtain ⟨i, -, rfl⟩ := mem_rects hr
    obtain ⟨j, -, rfl⟩ := mem_rects hr'
    rw [startAcross_tab, startAcross_tab]
    unfold Rectangle.startAcross tab
    rfl
  · obtain ⟨-, rfl⟩ := getElem?_rects_eq_some hr
    obtain ⟨-, rfl⟩ := getElem?_rects_eq_some hr'
    rw [startAlong_tab, startAlong_tab, lengthAlong_tab, offset_succ]
    unfold Rectangle.startAlong tab
    cases t.position.isVertical
    · dsimp only
      ring
    · dsimp only
      ring
  · obtain ⟨-, rfl⟩ := getElem?_rects_eq_some hr
    obtain ⟨-, rfl⟩ := getElem?_rects_eq_some hr'
    have hlast := t.offset_succ ones (count - 1)
    rw [Nat.sub_add_cancel hcount] at hlast
    have hfirst : t.offset ones 0 = 0 := by simp [offset]
    have htotal : t.offset ones count = count * (t.pxPerTab + t.gapsBetween) + ones * t.pixel := by
      rw [offset, min_eq_right hones]
    rw [startAlong_tab, startAlong_tab, lengthAlong_tab, hfirst]
    unfold Rectangle.startAlong tab
    cases t.position.isVertical
    · dsimp only
      linarith
    · dsimp only
      linarith

theorem offset_mono (ones : ℕ) (hpixel : 0 ≤ t.pixel) (hlong : t.pixel ≤ t.pxPerTab)
    (hgaps : 0 ≤ t.gapsBetween) (hij : i ≤ j) : t.offset ones i ≤ t.offset ones j := by
  induction j, hij using Nat.le_induction with
  | base => exact le_rfl
  | succ j _ ih =>
    have hlength := (lengthAt_bounds hpixel ones j).1
    rw [offset_succ]
    linarith

theorem contains_along {p : Point} (h : r.contains p = true) (position : TabIndicatorPosition) :
    r.startAlong position ≤ (if position.isVertical then p.y else p.x) ∧
      (if position.isVertical then p.y else p.x) < r.startAlong position + r.lengthAlong position := by
  unfold Rectangle.contains at h
  simp only [Bool.and_eq_true, decide_eq_true_eq] at h
  obtain ⟨⟨⟨hx, hx'⟩, hy⟩, hy'⟩ := h
  unfold Rectangle.startAlong Rectangle.lengthAlong
  cases position.isVertical
  · exact ⟨hx, hx'⟩
  · exact ⟨hy, hy'⟩

/-- A point is inside of one tab at most. -/
theorem eq_of_contains (hpixel : 0 ≤ t.pixel) (hlong : t.pixel ≤ t.pxPerTab)
    (hgaps : 0 ≤ t.gapsBetween) {p : Point} {r' : Rectangle}
    (hr : (t.rects count ones loc)[i]? = some r) (hr' : (t.rects count ones loc)[j]? = some r')
    (hp : r.contains p = true) (hp' : r'.contains p = true) : i = j := by
  -- A later tab starts after the end of an earlier one.
  have hafter (i j : ℕ) (hij : i < j) (hi : (t.tab (t.advance loc (t.offset ones i))
      (t.lengthAt ones i)).contains p = true) (hj : (t.tab (t.advance loc (t.offset ones j))
        (t.lengthAt ones j)).contains p = true) : False := by
    have hend := (contains_along hi t.position).2
    have hstart := (contains_along hj t.position).1
    rw [startAlong_tab, lengthAlong_tab] at hend
    rw [startAlong_tab] at hstart
    have hnext := offset_mono ones hpixel hlong hgaps (Nat.succ_le_of_lt hij)
    rw [offset_succ] at hnext
    have hsame : (t.tab loc (t.lengthAt ones j)).startAlong t.position =
        (t.tab loc (t.lengthAt ones i)).startAlong t.position := rfl
    linarith
  obtain ⟨-, rfl⟩ := getElem?_rects_eq_some hr
  obtain ⟨-, rfl⟩ := getElem?_rects_eq_some hr'
  rcases Nat.lt_trichotomy i j with hlt | heq | hgt
  · exact (hafter i j hlt hp hp').elim
  · exact heq
  · exact (hafter j i hgt hp' hp).elim

end TabRun

/-! The lengths, in pixels. -/

namespace ColumnTabIndicator

variable {t : ColumnTabIndicator} {area : Rectangle} {count : ℕ} {scale : ℚ}

theorem roundLogicalInPhysical_mul (hscale : 0 < scale) (x : ℚ) :
    roundLogicalInPhysical scale x * scale = round (x * scale) := div_mul_cancel₀ _ hscale.ne'

theorem fullGaps_mul (hscale : 0 < scale) : t.fullGaps scale * scale =
    if t.config.gapsBetweenTabs = 0 then 0 else round (max (t.config.gapsBetweenTabs * scale) 1) := by
  unfold fullGaps roundLogicalInPhysicalMax1
  split
  · exact zero_mul scale
  · exact div_mul_cancel₀ _ hscale.ne'

theorem fullGaps_mem_wholes (hscale : 0 < scale) : t.fullGaps scale * scale ∈ wholes := by
  rw [fullGaps_mul hscale]
  split
  · exact wholes.zero_mem
  · exact round_mem_wholes _

theorem fullLength_mem_wholes (hscale : 0 < scale) :
    t.fullLength area count scale * scale ∈ wholes := by
  have hshortest : t.shortestLength count scale * scale =
      count * (1 + t.fullGaps scale * scale) - t.fullGaps scale * scale := by
    unfold shortestLength
    field_simp
  have hcount : (count : ℚ) ∈ wholes := by exact_mod_cast intCast_mem_wholes count
  unfold fullLength
  rw [max_mul_of_nonneg _ _ hscale.le, hshortest]
  refine max_mem_wholes ?_ ?_
  · unfold minLength
    rw [roundLogicalInPhysical_mul hscale]
    exact round_mem_wholes _
  · have hgaps := fullGaps_mem_wholes (t := t) hscale
    exact wholes.sub_mem (wholes.mul_mem hcount (wholes.add_mem wholes.one_mem hgaps)) hgaps

/-- The length of a tab is not less than a pixel. -/
theorem one_le_exactPerTab (area : Rectangle) (hscale : 0 < scale) (hcount : 1 ≤ count)
    (hopen : t.progress = 1) : 1 ≤ t.exactPerTab area count scale * scale := by
  have hpos : (0 : ℚ) < count := by exact_mod_cast hcount
  have hle : t.shortestLength count scale ≤ t.fullLength area count scale := le_max_right _ _
  have hshare : 1 / scale + t.fullGaps scale ≤
      (t.fullLength area count scale + t.fullGaps scale) / count := by
    rw [le_div_iff₀ hpos]
    unfold shortestLength at hle
    linarith
  have hexact : 1 / scale ≤ t.exactPerTab area count scale := by
    rw [exactPerTab, hopen, mul_one]
    linarith
  exact (div_le_iff₀ hscale).mp hexact

theorem pxPerTab_mul (area : Rectangle) (hscale : 0 < scale) (hcount : 1 ≤ count) (hopen : t.progress = 1) :
    t.pxPerTab area count scale * scale = (⌊t.exactPerTab area count scale * scale⌋ : ℤ) := by
  have hone := one_le_exactPerTab area hscale hcount hopen
  have hne : t.exactPerTab area count scale ≠ 0 := by
    intro hzero
    rw [hzero, zero_mul] at hone
    linarith
  rw [pxPerTab, floorLogicalInPhysicalMax1, if_neg hne, max_eq_left hone, div_mul_cancel₀ _ hscale.ne']

/-- The tabs that are a pixel longer make up for what was floored. -/
theorem onesLeft_eq (area : Rectangle) (hscale : 0 < scale) (hcount : 1 ≤ count) (hopen : t.progress = 1) :
    (t.onesLeft area count scale : ℚ) = count * (t.exactPerTab area count scale * scale -
      (⌊t.exactPerTab area count scale * scale⌋ : ℤ)) := by
  have hpos : (0 : ℚ) < count := by exact_mod_cast hcount
  have hfloor := pxPerTab_mul area hscale hcount hopen
  have hmissing : (t.lengthOf count scale (t.exactPerTab area count scale) -
      t.lengthOf count scale (t.pxPerTab area count scale)) / (1 / scale) =
      count * (t.exactPerTab area count scale * scale -
        (⌊t.exactPerTab area count scale * scale⌋ : ℤ)) := by
    rw [← hfloor]
    unfold lengthOf
    field_simp
    ring
  have hexact : count * (t.exactPerTab area count scale * scale) =
      t.fullLength area count scale * scale + t.fullGaps scale * scale -
        count * (t.fullGaps scale * scale) := by
    rw [exactPerTab, hopen]
    field_simp
  have hcast : (count : ℚ) ∈ wholes := by exact_mod_cast intCast_mem_wholes count
  have hwhole : count * (t.exactPerTab area count scale * scale -
      (⌊t.exactPerTab area count scale * scale⌋ : ℤ)) ∈ wholes := by
    have hgaps := fullGaps_mem_wholes (t := t) hscale
    rw [mul_sub, hexact]
    exact wholes.sub_mem (wholes.sub_mem (wholes.add_mem (fullLength_mem_wholes hscale) hgaps)
      (wholes.mul_mem hcast hgaps)) (wholes.mul_mem hcast (intCast_mem_wholes _))
  have hnonneg : 0 ≤ count * (t.exactPerTab area count scale * scale -
      (⌊t.exactPerTab area count scale * scale⌋ : ℤ)) :=
    mul_nonneg hpos.le (sub_nonneg.mpr (Int.floor_le _))
  unfold onesLeft
  rw [hmissing, round_of_whole hwhole]
  obtain ⟨n, hn⟩ := mem_wholes.mp hwhole
  rw [← hn] at hnonneg ⊢
  rw [Int.floor_intCast]
  exact_mod_cast Int.toNat_of_nonneg (by exact_mod_cast hnonneg)

theorem onesLeft_le (area : Rectangle) (hscale : 0 < scale) (hcount : 1 ≤ count) (hopen : t.progress = 1) :
    t.onesLeft area count scale ≤ count := by
  have hpos : (0 : ℚ) < count := by exact_mod_cast hcount
  have hlt := Int.lt_floor_add_one (t.exactPerTab area count scale * scale)
  have hle : (t.onesLeft area count scale : ℚ) ≤ count := by
    rw [onesLeft_eq area hscale hcount hopen]
    exact mul_le_of_le_one_right hpos.le (by linarith)
  exact_mod_cast hle

/-- What is spanned differs from the full length by what the gaps differ. -/
theorem span_eq (area : Rectangle) (hscale : 0 < scale) (hcount : 1 ≤ count) (hopen : t.progress = 1) :
    count * (t.pxPerTab area count scale + t.gapsBetween scale) - t.gapsBetween scale +
      t.onesLeft area count scale * (1 / scale) = t.fullLength area count scale +
        (count - 1) * (t.gapsBetween scale - t.fullGaps scale) := by
  have hpos : (0 : ℚ) < count := by exact_mod_cast hcount
  have hpx : t.pxPerTab area count scale =
      (⌊t.exactPerTab area count scale * scale⌋ : ℤ) / scale := by
    rw [← pxPerTab_mul area hscale hcount hopen, mul_div_cancel_right₀ _ hscale.ne']
  have hexact : count * t.exactPerTab area count scale = t.fullLength area count scale +
      t.fullGaps scale - count * t.fullGaps scale := by
    rw [exactPerTab, hopen]
    field_simp
  rw [onesLeft_eq area hscale hcount hopen, hpx]
  have hsum : count * ((⌊t.exactPerTab area count scale * scale⌋ : ℤ) / scale) +
      count * (t.exactPerTab area count scale * scale -
        (⌊t.exactPerTab area count scale * scale⌋ : ℤ)) * (1 / scale) =
      count * t.exactPerTab area count scale := by
    field_simp
    ring
  linarith

/-- The gaps agree unless a pixel is made of less than half of one. -/
theorem gapsBetween_eq_iff (hscale : 0 < scale) (hgaps : 0 ≤ t.config.gapsBetweenTabs)
    (hopen : t.progress = 1) : t.gapsBetween scale = t.fullGaps scale ↔
      ¬ (0 < t.config.gapsBetweenTabs * scale ∧ t.config.gapsBetweenTabs * scale < 1 / 2) := by
  have hdrawn : t.gapsBetween scale * scale = round (t.config.gapsBetweenTabs * scale) := by
    rw [gapsBetween, roundLogicalInPhysical_mul hscale, hopen, mul_one]
  have hzero : round 0 = 0 := round_of_whole wholes.zero_mem
  have hone : round 1 = 1 := round_of_whole wholes.one_mem
  rw [← mul_left_inj' hscale.ne', hdrawn, fullGaps_mul hscale]
  rcases hgaps.eq_or_lt with hnone | hsome
  · rw [← hnone, zero_mul, if_pos rfl, hzero]
    exact iff_of_true rfl fun hlt => lt_irrefl 0 hlt.1
  · rw [if_neg hsome.ne']
    have hpos := mul_pos hsome hscale
    generalize t.config.gapsBetweenTabs * scale = x at hpos
    rcases le_or_gt 1 x with hlarge | hsmall
    · rw [max_eq_left hlarge]
      exact iff_of_true rfl fun hlt => by linarith
    · rw [max_eq_right hsmall.le, hone]
      have hle : round x ≤ 1 := (round_le_iff wholes.one_mem zero_le_one).mpr (by linarith)
      have hiff : round x ≤ 0 ↔ x < 1 / 2 := by
        rw [round_le_iff wholes.zero_mem le_rfl, zero_add]
      constructor
      · rintro heq ⟨-, hlt⟩
        have hzero := hiff.mpr hlt
        rw [heq] at hzero
        linarith
      · intro hno
        have hgt : ¬ round x ≤ 0 := fun hzero => hno ⟨hpos, hiff.mp hzero⟩
        obtain ⟨n, hn⟩ := mem_wholes.mp (round_mem_wholes x)
        rw [← hn] at hle hgt ⊢
        have hle : n ≤ 1 := by exact_mod_cast hle
        have hgt : ¬ n ≤ 0 := fun hzero => hgt (by exact_mod_cast hzero)
        have heq : n = 1 := by omega
        rw [heq, Int.cast_one]

/-- The tabs span the full length, with points inside of one tab at most, unless there are several
and less than half a pixel between them is drawn as none. -/
theorem tabRects_tiles_iff (hscale : 0 < scale) (hcount : 1 ≤ count)
    (hgaps : 0 ≤ t.config.gapsBetweenTabs) (hopen : t.openAnim = none ∨ t.openAnim = some 1) :
    (Tiles t.config.position (1 / scale) (t.fullLength area count scale) count
      (t.tabRects area count scale) ∧ HitsInside t area count scale) ↔
    count = 1 ∨ ¬ (0 < t.config.gapsBetweenTabs * scale ∧
      t.config.gapsBetweenTabs * scale < 1 / 2) := by
  have hopen : t.progress = 1 := by
    unfold progress
    rcases hopen with hnone | hdone
    · rw [hnone]
      rfl
    · rw [hdone]
      exact max_eq_left zero_le_one
  have hpixel : 0 ≤ 1 / scale := (one_div_pos.mpr hscale).le
  have hlong : 1 / scale ≤ t.pxPerTab area count scale := by
    rw [div_le_iff₀ hscale, pxPerTab_mul area hscale hcount hopen]
    have hone : (1 : ℤ) ≤ ⌊t.exactPerTab area count scale * scale⌋ :=
      Int.le_floor.mpr (by simpa using one_le_exactPerTab area hscale hcount hopen)
    exact_mod_cast hone
  have hdrawn : 0 ≤ t.gapsBetween scale := by
    have hmul : t.gapsBetween scale * scale = round (t.config.gapsBetweenTabs * scale) := by
      rw [gapsBetween, roundLogicalInPhysical_mul hscale, hopen, mul_one]
    have hround := le_round wholes.zero_mem le_rfl (mul_nonneg hgaps hscale.le)
    rw [← hmul] at hround
    exact nonneg_of_mul_nonneg_left hround hscale
  have htiles : Tiles t.config.position (1 / scale)
      (count * (t.pxPerTab area count scale + t.gapsBetween scale) - t.gapsBetween scale +
        t.onesLeft area count scale * (1 / scale)) count (t.tabRects area count scale) :=
    TabRun.tiles_rects (t := t.tabRun area count scale) hpixel hlong hdrawn hcount
      (onesLeft_le area hscale hcount hopen) _
  rw [span_eq area hscale hcount hopen] at htiles
  have hhits : HitsInside t area count scale := by
    refine ⟨fun point i hi => ?_, fun point i j r r' hr hr' hp hp' => ?_⟩
    · unfold hit at hi
      split at hi
      · cases hi
      · split at hi
        · cases hi
        · obtain ⟨hlt, hcontains, -⟩ := findIdx?_eq_some_iff_getElem.mp hi
          exact ⟨_, getElem?_eq_getElem hlt, hcontains⟩
    · exact TabRun.eq_of_contains (t := t.tabRun area count scale) hpixel hlong hdrawn hr hr' hp hp'
  have hcond : count = 1 ∨ t.gapsBetween scale = t.fullGaps scale ↔
      (count - 1) * (t.gapsBetween scale - t.fullGaps scale) = 0 := by
    rw [mul_eq_zero, sub_eq_zero, sub_eq_zero, Nat.cast_eq_one]
  rw [← gapsBetween_eq_iff hscale hgaps hopen, hcond]
  constructor
  · rintro ⟨hall, -⟩
    have hlen := htiles.all
    obtain ⟨first, hfirst⟩ : ∃ r, (t.tabRects area count scale)[0]? = some r :=
      ⟨_, getElem?_eq_getElem (show 0 < (t.tabRects area count scale).length from
        hlen.symm ▸ hcount)⟩
    obtain ⟨last, hlast⟩ : ∃ r, (t.tabRects area count scale)[count - 1]? = some r :=
      ⟨_, getElem?_eq_getElem (show count - 1 < (t.tabRects area count scale).length from
        hlen.symm ▸ Nat.sub_lt hcount Nat.one_pos)⟩
    have hspan := hall.span first last hfirst hlast
    have hspan' := htiles.span first last hfirst hlast
    linarith
  · intro hzero
    rw [hzero, add_zero] at htiles
    exact ⟨htiles, hhits⟩

/-- The default tab indicator, with some gaps between the tabs. -/
def withGaps (gapsBetweenTabs : ℚ) : ColumnTabIndicator :=
  ⟨none, ⟨⟨false, false, false, 5, 4, .left⟩, gapsBetweenTabs, some (1 / 2)⟩⟩

def hundred : Rectangle := ⟨⟨0, 0⟩, ⟨100, 100⟩⟩

theorem tabRects_tiles_one : Tiles .left (1 / 1) ((withGaps 1).fullLength hundred 3 1) 3
    ((withGaps 1).tabRects hundred 3 1) ∧ HitsInside (withGaps 1) hundred 3 1 := by
  have hgaps : 0 ≤ (withGaps 1).config.gapsBetweenTabs := by decide +kernel
  exact (tabRects_tiles_iff zero_lt_one (by decide) hgaps (.inl rfl)).mpr (.inr (by decide +kernel))

/-- A quarter of a pixel between the tabs: they span 48 pixels, not 50. -/
theorem tabRects_short : (withGaps (1 / 4)).fullLength hundred 3 1 = 50 ∧
    ((withGaps (1 / 4)).tabRects hundred 3 1).map (fun r => (r.loc.y, r.size.h)) =
      [(26, 16), (42, 16), (58, 16)] ∧
    ¬ Tiles .left (1 / 1) ((withGaps (1 / 4)).fullLength hundred 3 1) 3
      ((withGaps (1 / 4)).tabRects hundred 3 1) := by
  have hfull : (withGaps (1 / 4)).fullLength hundred 3 1 = 50 := by decide +kernel
  refine ⟨hfull, by decide +kernel, fun htiles => ?_⟩
  have hspan := htiles.span ⟨⟨-9, 26⟩, ⟨4, 16⟩⟩ ⟨⟨-9, 58⟩, ⟨4, 16⟩⟩ (by decide +kernel) (by decide +kernel)
  rw [hfull] at hspan
  revert hspan
  decide +kernel

end ColumnTabIndicator

end Macniri.Layout
