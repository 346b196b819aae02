import Mathlib.Tactic.Linarith
import Macniri.Scrolling.Step
import Macniri.Floating.Space

/-! The position of a floating window. It is stored relative to the working area; the logical one is
computed from it, so that enough of the window stays on screen. -/
namespace Macniri.Layout

/-- The part of a tile that stays on screen, along one axis. -/
def partOnScreen (size : ℚ) : ℚ := min size (clamp (size / 4) 10 75)

/-- How much of a tile overlaps an area, along one axis. -/
def overlap (pos size areaLoc available : ℚ) : ℚ :=
  min (pos + size) (areaLoc + available) - max pos areaLoc

section Axis

variable {x size available areaLoc : ℚ}

theorem clamp_between (x : ℚ) : 10 ≤ clamp x 10 75 ∧ clamp x 10 75 ≤ 75 := by
  unfold clamp
  split
  · constructor <;> norm_num
  · split
    · constructor <;> norm_num
    · constructor <;> linarith

theorem partOnScreen_le (size : ℚ) : partOnScreen size ≤ size ∧ partOnScreen size ≤ 75 :=
  ⟨min_le_left .., (min_le_right ..).trans (clamp_between _).2⟩

/-- What may leave the screen. -/
theorem maxOffScreen_eq (size : ℚ) :
    max 0 (size - clamp (size / 4) 10 75) = size - partOnScreen size := by
  unfold partOnScreen
  rcases le_total size (clamp (size / 4) 10 75) with h | h
  · rw [min_eq_left h, max_eq_left (by linarith), sub_self]
  · rw [min_eq_right h, max_eq_right (by linarith)]

theorem clampOnScreen_eq (x size available : ℚ) :
    FloatingData.clampOnScreen x size available =
      min (max x (partOnScreen size - size)) (available - partOnScreen size) := by
  unfold FloatingData.clampOnScreen
  dsimp only
  rw [maxOffScreen_eq, neg_sub, sub_add_sub_cancel]

/-- The two bounds do not cross, since the area has room for the part that stays. -/
theorem bounds_clampOnScreen (harea : 75 ≤ available) :
    partOnScreen size - size ≤ FloatingData.clampOnScreen x size available ∧
      FloatingData.clampOnScreen x size available ≤ available - partOnScreen size := by
  have hpart := partOnScreen_le size
  rw [clampOnScreen_eq]
  refine ⟨le_min (le_max_right ..) ?_, min_le_right ..⟩
  linarith

theorem clampOnScreen_of_bounds (hlow : partOnScreen size - size ≤ x)
    (hhigh : x ≤ available - partOnScreen size) :
    FloatingData.clampOnScreen x size available = x := by
  rw [clampOnScreen_eq, max_eq_left hlow, min_eq_left hhigh]

/-- Enough of the tile overlaps the area exactly if it lies between the bounds. -/
theorem partOnScreen_le_overlap_iff (harea : 75 ≤ available) :
    partOnScreen size ≤ overlap x size areaLoc available ↔
      partOnScreen size - size ≤ x - areaLoc ∧ x - areaLoc ≤ available - partOnScreen size := by
  obtain ⟨hsize, hpart⟩ := partOnScreen_le size
  unfold overlap
  constructor
  · intro h
    have hright := min_le_right (x + size) (areaLoc + available)
    have hend := min_le_left (x + size) (areaLoc + available)
    have hleft := le_max_left x areaLoc
    have hstart := le_max_right x areaLoc
    constructor <;> linarith
  · rintro ⟨hlow, hhigh⟩
    rcases min_choice (x + size) (areaLoc + available) with hmin | hmin <;>
      rcases max_choice x areaLoc with hmax | hmax <;> rw [hmin, hmax] <;> linarith

end Axis

namespace FloatingData

/-- The logical position that belongs to a stored one. -/
def logicalPosFor (pos : Point) (size : Size) (workingArea : Rectangle) : Point :=
  (recomputeLogicalPos ⟨pos, ⟨0, 0⟩, size, workingArea⟩).logicalPos

/-- The cached logical position is up to date. -/
def Cached (d : FloatingData) : Prop :=
  d.logicalPos = logicalPosFor d.pos d.size d.workingArea

/-- Enough of the tile is on screen at this position, in both directions. -/
def OnScreen (d : FloatingData) (p : Point) : Prop :=
  partOnScreen d.size.w ≤ overlap p.x d.size.w d.workingArea.loc.x d.workingArea.size.w ∧
    partOnScreen d.size.h ≤ overlap p.y d.size.h d.workingArea.loc.y d.workingArea.size.h

/-- The working area has room for what has to stay on screen. -/
structure Roomy (d : FloatingData) : Prop where
  width : 75 ≤ d.workingArea.size.w
  height : 75 ≤ d.workingArea.size.h

variable {d : FloatingData}

theorem cached_recompute (d : FloatingData) : d.recomputeLogicalPos.Cached := rfl

theorem Cached.update (h : d.Cached) (tile : Tile) : (d.update tile).Cached := by
  unfold FloatingData.update
  split
  · exact h
  · exact cached_recompute _

theorem Cached.updateConfig (h : d.Cached) (area : Rectangle) : (d.updateConfig area).Cached := by
  unfold FloatingData.updateConfig
  split
  · exact h
  · exact cached_recompute _

theorem cached_setLogicalPos (d : FloatingData) (p : Point) : (d.setLogicalPos p).Cached :=
  cached_recompute _

theorem cached_new (area : Rectangle) (tile : Tile) (p : Point) : (new area tile p).Cached :=
  cached_setLogicalPos ..

theorem size_update (d : FloatingData) (tile : Tile) : (d.update tile).size = tile.tileSize := by
  unfold FloatingData.update
  split
  · rename_i h
    exact h
  · rfl

theorem workingArea_update (d : FloatingData) (tile : Tile) :
    (d.update tile).workingArea = d.workingArea := by
  unfold FloatingData.update
  split <;> rfl

theorem pos_update (d : FloatingData) (tile : Tile) : (d.update tile).pos = d.pos := by
  unfold FloatingData.update
  split <;> rfl

theorem workingArea_updateConfig (d : FloatingData) (area : Rectangle) :
    (d.updateConfig area).workingArea = area := by
  unfold FloatingData.updateConfig
  split
  · rename_i h
    exact h
  · rfl

theorem size_updateConfig (d : FloatingData) (area : Rectangle) :
    (d.updateConfig area).size = d.size := by
  unfold FloatingData.updateConfig
  split <;> rfl

theorem pos_updateConfig (d : FloatingData) (area : Rectangle) :
    (d.updateConfig area).pos = d.pos := by
  unfold FloatingData.updateConfig
  split <;> rfl

/-! Positions on screen. -/

theorem Cached.onScreen (h : d.Cached) (hroomy : d.Roomy) : d.OnScreen d.logicalPos := by
  have hx : d.logicalPos.x = _ := congrArg Point.x h
  have hy : d.logicalPos.y = _ := congrArg Point.y h
  constructor
  · rw [partOnScreen_le_overlap_iff hroomy.width, hx]
    unfold logicalPosFor recomputeLogicalPos
    dsimp only
    rw [add_sub_cancel_right]
    exact bounds_clampOnScreen hroomy.width
  · rw [partOnScreen_le_overlap_iff hroomy.height, hy]
    unfold logicalPosFor recomputeLogicalPos
    dsimp only
    rw [add_sub_cancel_right]
    exact bounds_clampOnScreen hroomy.height

/-- One coordinate, stored and computed again. -/
theorem scale_frac {x available areaLoc : ℚ} (h : 75 ≤ available) :
    (x - areaLoc) / max available 1 * available + areaLoc = x := by
  have hone : (1 : ℚ) ≤ available := by linarith
  have hne : available ≠ 0 := by linarith
  rw [max_eq_left hone, div_mul_cancel₀ _ hne, sub_add_cancel]

theorem scale_logicalToSizeFrac (hroomy : d.Roomy) (p : Point) :
    scaleByWorkingArea d.workingArea (logicalToSizeFracInWorkingArea d.workingArea p) = p := by
  obtain ⟨x, y⟩ := p
  exact congrArg₂ Point.mk (scale_frac hroomy.width) (scale_frac hroomy.height)

/-- A position on screen is not clamped. -/
theorem logicalPosFor_of_onScreen (hroomy : d.Roomy) {pos : Point}
    (h : d.OnScreen (scaleByWorkingArea d.workingArea pos)) :
    logicalPosFor pos d.size d.workingArea = scaleByWorkingArea d.workingArea pos := by
  obtain ⟨hx, hy⟩ := h
  obtain ⟨hxlow, hxhigh⟩ := (partOnScreen_le_overlap_iff hroomy.width).mp hx
  obtain ⟨hylow, hyhigh⟩ := (partOnScreen_le_overlap_iff hroomy.height).mp hy
  unfold logicalPosFor recomputeLogicalPos
  dsimp only
  rw [clampOnScreen_of_bounds hxlow hxhigh, clampOnScreen_of_bounds hylow hyhigh, sub_add_cancel,
    sub_add_cancel]

theorem setLogicalPos_of_onScreen (hroomy : d.Roomy) {p : Point} (h : d.OnScreen p) :
    (d.setLogicalPos p).logicalPos = p := by
  have hscale := scale_logicalToSizeFrac hroomy p
  have hpos := logicalPosFor_of_onScreen hroomy (hscale.symm ▸ h)
  exact hpos.trans hscale

/-- Storing the position again leaves a tile alone that is where it was put. -/
theorem setLogicalPos_self (hcached : d.Cached) (hroomy : d.Roomy)
    (h : d.OnScreen (scaleByWorkingArea d.workingArea d.pos)) : d.setLogicalPos d.logicalPos = d := by
  have hlogical : d.logicalPos = scaleByWorkingArea d.workingArea d.pos :=
    hcached.trans (logicalPosFor_of_onScreen hroomy h)
  have hpos : logicalToSizeFracInWorkingArea d.workingArea d.logicalPos = d.pos := by
    have hw : (1 : ℚ) ≤ d.workingArea.size.w := le_trans (by norm_num) hroomy.width
    have hh : (1 : ℚ) ≤ d.workingArea.size.h := le_trans (by norm_num) hroomy.height
    rw [hlogical]
    unfold logicalToSizeFracInWorkingArea scaleByWorkingArea
    dsimp only
    rw [max_eq_left hw, max_eq_left hh, add_sub_cancel_right, add_sub_cancel_right,
      mul_div_cancel_right₀ _ (by linarith), mul_div_cancel_right₀ _ (by linarith)]
  unfold setLogicalPos
  rw [hpos]
  obtain ⟨pos, logicalPos, size, workingArea⟩ := d
  exact congrArg (FloatingData.mk pos · size workingArea) hcached.symm

/-! Runs. -/

/-- What changes around a floating window. -/
inductive Change where
  | update (tile : Tile)
  | updateConfig (workingArea : Rectangle)

def change (d : FloatingData) : Change → FloatingData
  | .update tile => d.update tile
  | .updateConfig workingArea => d.updateConfig workingArea

def Change.size : Change → Option Size
  | update tile => some tile.tileSize
  | updateConfig _ => none

def Change.workingArea : Change → Option Rectangle
  | update _ => none
  | updateConfig workingArea => some workingArea

/-- The data of a tile is made, and then it changes or the tile is moved. -/
inductive Reachable : FloatingData → Prop where
  | new (workingArea : Rectangle) (tile : Tile) (logicalPos : Point) :
    Reachable (new workingArea tile logicalPos)
  | change {d : FloatingData} (c : Change) : Reachable d → Reachable (d.change c)
  | setLogicalPos {d : FloatingData} (logicalPos : Point) :
    Reachable d → Reachable (d.setLogicalPos logicalPos)

theorem Cached.change (h : d.Cached) (c : Change) : (d.change c).Cached := by
  cases c with
  | update tile => exact h.update tile
  | updateConfig area => exact h.updateConfig area

theorem Reachable.cached (h : d.Reachable) : d.Cached := by
  induction h with
  | new area tile p => exact cached_new area tile p
  | change c _ ih => exact ih.change c
  | setLogicalPos p _ _ => exact cached_setLogicalPos _ p

theorem pos_change (d : FloatingData) (c : Change) : (d.change c).pos = d.pos := by
  cases c with
  | update tile => exact pos_update d tile
  | updateConfig area => exact pos_updateConfig d area

theorem size_change (d : FloatingData) (c : Change) : (d.change c).size = c.size.getD d.size := by
  cases c with
  | update tile => exact size_update d tile
  | updateConfig area => exact size_updateConfig d area

theorem workingArea_change (d : FloatingData) (c : Change) :
    (d.change c).workingArea = c.workingArea.getD d.workingArea := by
  cases c with
  | update tile => exact workingArea_update d tile
  | updateConfig area => exact workingArea_updateConfig d area

/-- A run of changes keeps the stored position and leaves the last size and the last area. -/
structure Changed (d : FloatingData) (changes : List Change) (d' : FloatingData) : Prop where
  cached : d'.Cached
  pos : d'.pos = d.pos
  size : d'.size = changes.foldl (fun size c => c.size.getD size) d.size
  workingArea : d'.workingArea =
    changes.foldl (fun area c => c.workingArea.getD area) d.workingArea

theorem changed_foldl (h : d.Cached) (changes : List Change) :
    Changed d changes (changes.foldl change d) := by
  induction changes generalizing d with
  | nil => exact ⟨h, rfl, rfl, rfl⟩
  | cons c changes ih =>
    obtain ⟨hcached, hpos, hsize, harea⟩ := ih (h.change c)
    refine ⟨hcached, hpos.trans (pos_change d c), ?_, ?_⟩
    · rw [List.foldl_cons, List.foldl_cons, hsize, size_change]
    · rw [List.foldl_cons, List.foldl_cons, harea, workingArea_change]

theorem Cached.ext {d' : FloatingData} (h : d.Cached) (h' : d'.Cached) (hpos : d'.pos = d.pos)
    (hsize : d'.size = d.size) (harea : d'.workingArea = d.workingArea) : d' = d := by
  have hlogical : d'.logicalPos = d.logicalPos := by
    rw [h, h', hpos, hsize, harea]
  obtain ⟨pos, logicalPos, size, workingArea⟩ := d
  obtain ⟨pos', logicalPos', size', workingArea'⟩ := d'
  obtain rfl : pos' = pos := hpos
  obtain rfl : logicalPos' = logicalPos := hlogical
  obtain rfl : size' = size := hsize
  obtain rfl : workingArea' = workingArea := harea
  rfl

/-- Whatever happens in between, the logical position is the one for the stored position, the last
size and the last working area. It is on screen, and positions on screen are taken as they are. -/
theorem floating_position (h : d.Reachable) (changes : List Change) :
    ∃ d', changes.foldl change d = d' ∧ d'.pos = d.pos ∧
      d'.size = changes.foldl (fun size c => c.size.getD size) d.size ∧
      d'.workingArea = changes.foldl (fun area c => c.workingArea.getD area) d.workingArea ∧
      d'.logicalPos = logicalPosFor d.pos d'.size d'.workingArea ∧
      (d'.size = d.size → d'.workingArea = d.workingArea → d' = d) ∧
      (d'.Roomy → d'.OnScreen d'.logicalPos ∧
        (∀ p, d'.OnScreen p → (d'.setLogicalPos p).logicalPos = p) ∧
        (d'.setLogicalPos d'.logicalPos).logicalPos = d'.logicalPos ∧
        (d'.setLogicalPos d'.logicalPos).size = d'.size ∧
        (d'.setLogicalPos d'.logicalPos).workingArea = d'.workingArea ∧
        (d'.OnScreen (scaleByWorkingArea d'.workingArea d'.pos) →
          d'.setLogicalPos d'.logicalPos = d')) := by
  obtain ⟨hcached, hpos, hsize, harea⟩ := changed_foldl h.cached changes
  refine ⟨_, rfl, hpos, hsize, harea, hpos ▸ hcached, h.cached.ext hcached hpos, fun hroomy => ?_⟩
  have honScreen := hcached.onScreen hroomy
  exact ⟨honScreen, fun p hp => setLogicalPos_of_onScreen hroomy hp,
    setLogicalPos_of_onScreen hroomy honScreen, rfl, rfl, setLogicalPos_self hcached hroomy⟩

/-- A tile near the bottom right of its working area. -/
def testData : FloatingData :=
  new ⟨⟨0, 0⟩, ⟨1280, 720⟩⟩ (ScrollingSpace.testTile 1) ⟨1200, 600⟩

/-- The working area shrinks for a while. -/
def shrunk : List Change :=
  [.updateConfig ⟨⟨0, 0⟩, ⟨640, 480⟩⟩, .updateConfig ⟨⟨0, 0⟩, ⟨1280, 720⟩⟩]

theorem floating_position_shrunk :
    shrunk.foldl change testData = testData ∧ testData.OnScreen testData.logicalPos := by
  obtain ⟨d', hd', -, hsize, harea, -, hback, honScreen⟩ :=
    floating_position (d := testData) (.new ..) shrunk
  obtain rfl := hback hsize (harea.trans (by decide +kernel))
  exact ⟨hd', (honScreen ⟨by decide +kernel, by decide +kernel⟩).1⟩

/-- While the working area is smaller, the tile is shown left of its stored position. -/
def clampedData : FloatingData := testData.updateConfig ⟨⟨0, 0⟩, ⟨640, 480⟩⟩

/-- Storing the position where the tile is shown, as at the end of a move, forgets the one it would go
back to. -/
theorem stored_again_forgets : clampedData.Reachable ∧ clampedData.Roomy ∧
    clampedData.OnScreen clampedData.logicalPos ∧
    clampedData.setLogicalPos clampedData.logicalPos ≠ clampedData ∧
    (clampedData.updateConfig testData.workingArea).logicalPos = testData.logicalPos ∧
    ((clampedData.setLogicalPos clampedData.logicalPos).updateConfig testData.workingArea).logicalPos ≠
      testData.logicalPos := by
  refine ⟨.change (.updateConfig _) (.new ..), ⟨by decide +kernel, by decide +kernel⟩,
    ⟨by decide +kernel, by decide +kernel⟩, fun h => ?_, by decide +kernel, by decide +kernel⟩
  have hpos := congrArg FloatingData.pos h
  revert hpos
  decide +kernel

end FloatingData

end Macniri.Layout
