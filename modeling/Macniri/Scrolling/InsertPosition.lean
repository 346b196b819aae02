import Macniri.Layout.Monitor
import Macniri.Lib.Nearest
import Macniri.Scrolling.ColumnPositions

/-! Where a dragged window is dropped among the columns: into the nearest gap between columns, or
between the tiles of the column under the pointer. -/
namespace Macniri.Layout

open Option List

def TileData.dummy : TileData := ⟨.auto1, ⟨0, 0⟩, false⟩

namespace Column

/-- The widest tile; the extra size of the tab indicator is not included. -/
def tilesWidth (c : Column) : ℚ := ((c.data.map (·.size.w)).max?).getD 0

def tileOffsetX (c : Column) (d : TileData) : ℚ :=
  if c.options.centerFocusedColumn = .always then (c.tilesWidth - d.size.w) / 2
  else if d.interactivelyResizingByLeftEdge then c.tilesWidth - d.size.w
  else 0

def tileOffsetsIter (c : Column) : Point → List TileData → List Point
  | _, [] => []
  | origin, d :: data =>
    ⟨origin.x + c.tileOffsetX d, origin.y⟩ ::
      c.tileOffsetsIter (if c.isTabbed then origin else ⟨origin.x, origin.y + d.size.h + c.options.gaps⟩)
        data

/-- The positions of the tiles, and the one past them. -/
def tileOffsets (c : Column) : List Point := c.tileOffsetsIter c.tilesOrigin (c.data ++ [.dummy])

/-- The top and the bottom of the one tile that is visible in a tabbed column. -/
def visibleEdges (c : Column) : Option (ℚ × ℚ) := do
  let offset ← c.tileOffsets[c.activeTileIdx]?
  let d ← c.data[c.activeTileIdx]?
  return (offset.y, offset.y + d.size.h)

/-- The Y position and the index of the closest gap between tiles. -/
def closestTileGap (c : Column) (y : ℚ) : Option (ℚ × ℕ) :=
  if c.isTabbed then
    c.visibleEdges.map fun (top, bottom) =>
      if |top - y| ≤ |bottom - y| then (top, c.activeTileIdx) else (bottom, c.activeTileIdx + 1)
  else (c.tileOffsets.map (·.y)).zipIdx.argmin fun p => |p.1 - y|

/-- The height and the Y position of the hint for a tile index. -/
def hintSpan (c : Column) (tileIndex : ℕ) (gaps : ℚ) : Option (ℚ × ℚ) :=
  if c.isTabbed then
    c.visibleEdges.map fun (top, bottom) =>
      if tileIndex ≤ c.activeTileIdx then (150, top) else (150, bottom - 150)
  else
    c.tileOffsets[tileIndex]?.map fun offset =>
      if tileIndex = 0 then (150, offset.y)
      else if tileIndex = c.tiles.length then (150, offset.y - gaps - 150)
      else (300, offset.y - gaps / 2 - 150)

end Column

namespace ScrollingSpace

variable (s : ScrollingSpace)

/-- The X positions of the columns, and the one past them. -/
def xs : List ℚ := columnXs s.options.gaps 0 s.data

/-- The point that distances are taken from. It aims for the center of a gap: moved by half a gap, the
pointer is as far from the far edge of a gap as it was from its center. -/
def aim (pos : Point) : Point :=
  ⟨pos.x + s.viewPos + s.options.gaps / 2, pos.y + s.options.gaps / 2⟩

/-- The insertion into a column under the pointer, if its gap is closer than that at `colX`. -/
def closerGap (aim : Point) (colX : ℚ) (closestColIdx colIdx : ℕ) :
    Option InsertPosition := do
  let col ← s.columns[colIdx]?
  let (tileY, closestTileIdx) ← col.closestTileGap aim.y
  if |colX - aim.x| ≤ |tileY - aim.y| then some (.newColumn closestColIdx)
  else some (.inColumn colIdx closestTileIdx)

def insertPosition (pos : Point) : Option InsertPosition :=
  let aim := s.aim pos
  if s.columns.isEmpty then some (.newColumn 0)
  -- Insert position is before the first column.
  else if aim.x < 0 then some (.newColumn 0)
  else do
    let (colX, closestColIdx) ← s.xs.zipIdx.argmin fun p => |p.1 - aim.x|
    -- Find the column containing the position.
    let colIdx := ((s.xs.zipIdx.takeWhile fun p => decide (p.1 ≤ aim.x)).getLast?.getD (0, 0)).2
    -- Insert position is past the last column.
    if colIdx = s.columns.length then some (.newColumn closestColIdx)
    else s.closerGap aim colX closestColIdx colIdx

/-- The hint for a new column; the inner option is empty for an index that is out of range. -/
def newColumnHint (columnIndex : ℕ) : Option (Option Rectangle) :=
  let size : Size := ⟨300, s.workingArea.size.h - s.options.gaps * 2⟩
  let y := s.workingArea.loc.y + s.options.gaps
  if columnIndex = 0 ∨ columnIndex = s.columns.length then
    s.xs[columnIndex]?.map fun x =>
      some ⟨⟨if columnIndex = 0 ∧ !s.columns.isEmpty then x - (size.w + s.options.gaps) else x, y⟩, size⟩
  else if s.columns.length < columnIndex then some none
  else s.xs[columnIndex]?.map fun x => some ⟨⟨x - size.w / 2 - s.options.gaps / 2, y⟩, size⟩

def inColumnHint (columnIndex tileIndex : ℕ) : Option (Option Rectangle) :=
  if s.columns.length < columnIndex then some none
  else do
    let col ← s.columns[columnIndex]?
    if col.tiles.length < tileIndex then some none
    else
      let (height, y) ← col.hintSpan tileIndex s.options.gaps
      let d ← s.data[columnIndex]?
      let x ← s.xs[columnIndex]?
      -- Adjust for place-within-column tab indicator.
      let extraW := if col.isTabbed && col.isNormal
        then (col.options.tabIndicator.extraSize col.tiles.length col.scale).w else 0
      return some ⟨⟨x + col.tilesOrigin.x, y⟩, ⟨d.width - extraW, height⟩⟩

/-- First window on an empty workspace will cancel out any view offset. -/
def hintOffset (width : ℚ) : ℚ :=
  if s.columns.isEmpty then
    if s.isCenteringFocusedColumn then s.computeNewViewOffsetCentered (some 0) 0 width .normal
    else s.computeNewViewOffsetFit (some 0) 0 width .normal
  else s.viewPos

def hintArea : InsertPosition → Option (Option Rectangle)
  | .newColumn columnIndex => s.newColumnHint columnIndex
  | .inColumn columnIndex tileIndex => s.inColumnHint columnIndex tileIndex
  | .floating => some none

/-- The outer option is empty where an index is out of range unchecked. -/
def insertHintArea (position : InsertPosition) : Option (Option Rectangle) := do
  let area ← s.hintArea position
  return area.map fun r => { r with loc := ⟨r.loc.x - s.hintOffset r.size.w, r.loc.y⟩ }

end ScrollingSpace

/-! The gaps and the nearest of them. -/

namespace Column

/-- The horizontal gap of a column that a tile index stands for is at `y`. In a tabbed column these
are the top and the bottom of the visible tile. -/
def HasGap (c : Column) (t : ℕ) (y : ℚ) : Prop :=
  if c.isTabbed then
    ∃ top bottom, c.visibleEdges = some (top, bottom) ∧
      (t = c.activeTileIdx ∧ y = top ∨ t = c.activeTileIdx + 1 ∧ y = bottom)
  else (c.tileOffsets.map (·.y))[t]? = some y

variable {c : Column} {t : ℕ} {y y' : ℚ}

theorem length_tileOffsetsIter (c : Column) (origin : Point) (data : List TileData) :
    (c.tileOffsetsIter origin data).length = data.length := by
  induction data generalizing origin with
  | nil => rfl
  | cons d data ih => exact congrArg (· + 1) (ih _)

theorem length_tileOffsets (c : Column) : c.tileOffsets.length = c.data.length + 1 := by
  rw [tileOffsets, length_tileOffsetsIter, length_append, length_singleton]

theorem exists_visibleEdges (h : c.Wf) : ∃ top bottom, c.visibleEdges = some (top, bottom) := by
  have hlen := h.length_data
  have hactive := h.active
  have hoffset : c.activeTileIdx < c.tileOffsets.length := by
    rw [length_tileOffsets]
    omega
  have hd : c.activeTileIdx < c.data.length := hlen ▸ hactive
  unfold visibleEdges
  rw [getElem?_eq_getElem hoffset, getElem?_eq_getElem hd]
  exact ⟨_, _, rfl⟩

theorem HasGap.le (h : c.Wf) (hgap : c.HasGap t y) : t ≤ c.tiles.length := by
  have hlen := h.length_data
  have hactive := h.active
  unfold HasGap at hgap
  split at hgap
  · obtain ⟨top, bottom, -, ⟨rfl, -⟩ | ⟨rfl, -⟩⟩ := hgap <;> omega
  · have hlt := lt_length_of_getElem? hgap
    rw [length_map, length_tileOffsets] at hlt
    omega

/-- The search finds a gap, and no other one is nearer. -/
theorem exists_closestTileGap (h : c.Wf) (y : ℚ) : ∃ y' t, c.closestTileGap y = some (y', t) ∧
    c.HasGap t y' ∧ ∀ u z, c.HasGap u z → |y' - y| ≤ |z - y| := by
  unfold closestTileGap HasGap
  split
  · obtain ⟨top, bottom, hedges⟩ := exists_visibleEdges h
    rw [hedges]
    dsimp only [map_some]
    split
    · rename_i hle
      refine ⟨top, _, rfl, ⟨top, bottom, rfl, .inl ⟨rfl, rfl⟩⟩, fun u z hz => ?_⟩
      obtain ⟨_, _, heq, hz⟩ := hz
      obtain ⟨rfl, rfl⟩ := pair_inj heq
      rcases hz with ⟨-, rfl⟩ | ⟨-, rfl⟩
      · exact le_rfl
      · exact hle
    · rename_i hlt
      refine ⟨bottom, _, rfl, ⟨top, bottom, rfl, .inr ⟨rfl, rfl⟩⟩, fun u z hz => ?_⟩
      obtain ⟨_, _, heq, hz⟩ := hz
      obtain ⟨rfl, rfl⟩ := pair_inj heq
      rcases hz with ⟨-, rfl⟩ | ⟨-, rfl⟩
      · exact (not_le.mp hlt).le
      · exact le_rfl
  · have hne : c.tileOffsets.map (·.y) ≠ [] := by
      refine ne_nil_of_length_pos ?_
      rw [length_map, length_tileOffsets]
      omega
    obtain ⟨y', t, hmin⟩ := exists_argmin hne (|· - y|)
    obtain ⟨hat, hleast⟩ := argmin_zipIdx (f := (|· - y|)) hmin
    exact ⟨y', t, hmin, hat, hleast⟩

theorem exists_hintSpan (h : c.Wf) (ht : t ≤ c.tiles.length) (gaps : ℚ) :
    ∃ height y, c.hintSpan t gaps = some (height, y) := by
  unfold hintSpan
  split
  · obtain ⟨top, bottom, hedges⟩ := exists_visibleEdges h
    rw [hedges]
    exact ⟨_, _, rfl⟩
  · have hlen := h.length_data
    have hlt : t < c.tileOffsets.length := by
      rw [length_tileOffsets]
      omega
    rw [getElem?_eq_getElem hlt]
    exact ⟨_, _, rfl⟩

theorem extraSize_nonneg (config : TabIndicator) (n : ℕ) (scale : ℚ) :
    0 ≤ (config.extraSize n scale).w := by
  unfold TabIndicator.extraSize
  split
  · exact le_rfl
  · dsimp only
    split
    all_goals first | exact le_max_left .. | exact le_rfl

theorem actualWidth_nonneg (h : ∀ x ∈ c.data.map (·.size.w), 0 ≤ x) : 0 ≤ c.actualWidth := by
  have htiles : 0 ≤ ((c.data.map (·.size.w)).max?).getD 0 := by
    cases hmax : (c.data.map (·.size.w)).max? with
    | none => exact le_rfl
    | some x => exact h x (max?_mem hmax)
  unfold actualWidth
  dsimp only
  split
  · exact add_nonneg htiles (extraSize_nonneg ..)
  · exact htiles

end Column

namespace ScrollingSpace

/-- Tiles and gaps do not have negative widths. -/
structure Spread (s : ScrollingSpace) : Prop where
  gaps : 0 ≤ s.options.gaps
  widths : ∀ t ∈ s.tiles, 0 ≤ t.tileSize.w

/-- The place is a gap that no gap between columns, and no gap of the column around the given point,
is nearer than. -/
def IsNearest (s : ScrollingSpace) (aim : Point) : InsertPosition → Prop
  | .newColumn i => i ≤ s.columns.length ∧
    (∀ j ≤ s.columns.length, |s.columnX i - aim.x| ≤ |s.columnX j - aim.x|) ∧
    ∀ k c, s.columns[k]? = some c → s.columnX k ≤ aim.x → aim.x < s.columnX (k + 1) →
      ∀ t y, c.HasGap t y → |s.columnX i - aim.x| ≤ |y - aim.y|
  | .inColumn k t => ∃ c y, s.columns[k]? = some c ∧ s.columnX k ≤ aim.x ∧ aim.x < s.columnX (k + 1) ∧
    c.HasGap t y ∧ (∀ u z, c.HasGap u z → |y - aim.y| ≤ |z - aim.y|) ∧
    ∀ j ≤ s.columns.length, |y - aim.y| < |s.columnX j - aim.x|
  | .floating => False

/-- Indexing with the position does not go out of range. -/
def InRange (s : ScrollingSpace) : InsertPosition → Prop
  | .newColumn i => i ≤ s.columns.length
  | .inColumn k t => ∃ c, s.columns[k]? = some c ∧ t ≤ c.tiles.length
  | .floating => False

variable {s : ScrollingSpace} {i j k : ℕ} {x : ℚ} {p : InsertPosition} {aim : Point}

theorem xs_getElem? (hs : s.Inv) (h : i ≤ s.columns.length) : s.xs[i]? = some (s.columnX i) := by
  have hlen : i ≤ s.data.length := by rwa [hs.data, length_map]
  unfold xs columnX
  rw [columnXs_getElem? 0 hlen]
  rfl

theorem xs_getElem?_iff (hs : s.Inv) :
    s.xs[i]? = some x ↔ i ≤ s.columns.length ∧ s.columnX i = x := by
  have hlen : s.xs.length = s.columns.length + 1 := by
    rw [xs, length_columnXs, hs.data, length_map]
  constructor
  · intro h
    have hlt := lt_length_of_getElem? h
    have hle : i ≤ s.columns.length := by omega
    exact ⟨hle, some.inj ((xs_getElem? hs hle).symm.trans h)⟩
  · rintro ⟨hle, rfl⟩
    exact xs_getElem? hs hle

theorem Spread.width_nonneg (h : s.Spread) (hs : s.Inv) {d : ColumnData} (hd : d ∈ s.data) :
    0 ≤ d.width := by
  rw [hs.data] at hd
  obtain ⟨c, hc, rfl⟩ := List.mem_map.mp hd
  refine Column.actualWidth_nonneg fun x hx => ?_
  obtain ⟨size, hsize, rfl⟩ : ∃ size ∈ c.data.map (·.size), size.w = x := by simpa using hx
  rw [(hs.columns c hc).sizes] at hsize
  obtain ⟨t, ht, rfl⟩ := List.mem_map.mp hsize
  exact h.widths t (mem_flatMap.mpr ⟨c, hc, ht⟩)

theorem Spread.columnX_mono (h : s.Spread) (hs : s.Inv) (hij : i ≤ j) (hj : j ≤ s.columns.length) :
    s.columnX i ≤ s.columnX j := by
  induction j, hij using Nat.le_induction with
  | base => exact le_rfl
  | succ j hij ih =>
    have hlt : j < s.data.length := by rw [hs.data, length_map]; omega
    have hnext : s.columnX (j + 1) = s.columnX j + (s.data[j].width + s.options.gaps) :=
      columnXAt_succ (getElem?_eq_getElem hlt)
    have hwidth := h.width_nonneg hs (getElem_mem hlt)
    have hgaps := h.gaps
    have := ih (by omega)
    linarith

theorem columnX_zero (s : ScrollingSpace) : s.columnX 0 = 0 := by
  unfold columnX
  cases s.data <;> rfl

/-- Only one column is around a point. -/
theorem Spread.column_unique (h : s.Spread) (hs : s.Inv) (hi : i < s.columns.length)
    (hk : k < s.columns.length) (hix : s.columnX i ≤ x) (hxi : x < s.columnX (i + 1))
    (hkx : s.columnX k ≤ x) (hxk : x < s.columnX (k + 1)) : i = k := by
  rcases Nat.lt_trichotomy i k with hlt | heq | hlt
  · have := h.columnX_mono hs (Nat.succ_le_of_lt hlt) hk.le
    linarith
  · exact heq
  · have := h.columnX_mono hs (Nat.succ_le_of_lt hlt) hi.le
    linarith

/-- A point left of all columns is nearest to the first gap. -/
theorem isNearest_first (h : s.Spread) (hs : s.Inv) (hneg : s.columns = [] ∨ aim.x < 0) :
    s.IsNearest aim (.newColumn 0) := by
  have hpos (j : ℕ) (hj : j ≤ s.columns.length) : 0 ≤ s.columnX j :=
    s.columnX_zero ▸ h.columnX_mono hs (Nat.zero_le j) hj
  refine ⟨Nat.zero_le _, fun j hj => ?_, fun k c hc hkx _ => ?_⟩
  · rcases hneg with hnil | hneg
    · obtain rfl : j = 0 := by simpa [hnil] using hj
      exact le_rfl
    · have := hpos j hj
      rw [columnX_zero, abs_of_nonneg (by linarith), abs_of_nonneg (by linarith)]
      linarith
  · rcases hneg with hnil | hneg
    · simp [hnil] at hc
    · have := hpos k (lt_length_of_getElem? hc).le
      linarith

theorem exists_closerGap (h : s.Spread) (hs : s.Inv) (hi : i ≤ s.columns.length)
    (hleast : ∀ j ≤ s.columns.length, |s.columnX i - aim.x| ≤ |s.columnX j - aim.x|)
    (hk : k < s.columns.length) (hkx : s.columnX k ≤ aim.x) (hxk : aim.x < s.columnX (k + 1)) :
    ∃ p, s.closerGap aim (s.columnX i) i k = some p ∧ s.IsNearest aim p := by
  have hc := getElem?_eq_getElem hk
  obtain ⟨y, t, hclosest, hgap, hnearest⟩ :=
    Column.exists_closestTileGap (hs.columns _ (getElem_mem hk)) aim.y
  unfold closerGap
  rw [hc]
  dsimp only [bind_eq_bind, bind_some]
  rw [hclosest]
  dsimp only [bind_some]
  split
  · rename_i hle
    refine ⟨_, rfl, hi, hleast, fun j c hj hjx hxj u z hz => ?_⟩
    obtain rfl := h.column_unique hs hk (lt_length_of_getElem? hj) hkx hxk hjx hxj
    obtain rfl := some.inj (hc.symm.trans hj)
    exact hle.trans (hnearest u z hz)
  · rename_i hlt
    exact ⟨_, rfl, _, y, hc, hkx, hxk, hgap, hnearest,
      fun j hj => (not_le.mp hlt).trans_le (hleast j hj)⟩

theorem exists_insertPosition (h : s.Spread) (hs : s.Inv) (pos : Point) :
    ∃ p, s.insertPosition pos = some p ∧ s.IsNearest (s.aim pos) p := by
  unfold insertPosition
  dsimp only
  split
  · rename_i hnil
    exact ⟨_, rfl, isNearest_first h hs (.inl (List.isEmpty_iff.mp hnil))⟩
  split
  · rename_i hneg
    exact ⟨_, rfl, isNearest_first h hs (.inr hneg)⟩
  rename_i hx
  have hfirst := xs_getElem? hs (Nat.zero_le s.columns.length)
  rw [columnX_zero] at hfirst
  have hne : s.xs ≠ [] := ne_nil_of_length_pos (lt_length_of_getElem? hfirst)
  obtain ⟨colX, i, hmin⟩ := exists_argmin hne (|· - (s.aim pos).x|)
  obtain ⟨hi, hleast⟩ := argmin_zipIdx (f := (|· - (s.aim pos).x|)) hmin
  obtain ⟨hile, rfl⟩ := (xs_getElem?_iff hs).mp hi
  replace hleast (j : ℕ) (hj : j ≤ s.columns.length) := hleast j _ (xs_getElem? hs hj)
  have hhead : s.xs.head?.any (fun x => decide (x ≤ (s.aim pos).x)) = true := by
    rw [head?_eq_getElem?, hfirst]
    simpa using hx
  obtain ⟨x, k, hlast⟩ := exists_getLast?_takeWhile hhead
  obtain ⟨hk, hkx, hnext⟩ := getLast?_takeWhile_zipIdx (p := fun x => decide (x ≤ (s.aim pos).x)) hlast
  obtain ⟨hkle, rfl⟩ := (xs_getElem?_iff hs).mp hk
  rw [hmin]
  dsimp only [bind_eq_bind, bind_some]
  rw [hlast]
  dsimp only [getD_some]
  have hkx' : s.columnX k ≤ (s.aim pos).x := by simpa using hkx
  split
  · rename_i hend
    subst hend
    -- No column is around a point past all of them.
    refine ⟨_, rfl, hile, hleast, fun j c hj _ hxj => ?_⟩
    have := h.columnX_mono hs (lt_length_of_getElem? hj) le_rfl
    linarith
  · have hlt : k < s.columns.length := by omega
    have hxk := hnext _ (xs_getElem? hs hlt)
    exact exists_closerGap h hs hile hleast hlt hkx' (by simpa using hxk)

theorem IsNearest.inRange (hs : s.Inv) (h : s.IsNearest aim p) : s.InRange p := by
  cases p with
  | newColumn i => exact h.1
  | inColumn k t =>
    obtain ⟨c, y, hc, -, -, hgap, -⟩ := h
    exact ⟨c, hc, hgap.le (hs.columns c (mem_of_getElem? hc))⟩
  | floating => exact h.elim

theorem exists_hintArea (hs : s.Inv) (h : s.InRange p) : ∃ area, s.hintArea p = some area := by
  cases p with
  | newColumn i =>
    dsimp only [hintArea]
    unfold newColumnHint
    rw [xs_getElem? hs h]
    split
    · exact ⟨_, rfl⟩
    · split <;> exact ⟨_, rfl⟩
  | inColumn k t =>
    obtain ⟨c, hc, ht⟩ := h
    have hlt := lt_length_of_getElem? hc
    have hd : k < s.data.length := by rwa [hs.data, length_map]
    obtain ⟨height, y, hspan⟩ :=
      Column.exists_hintSpan (hs.columns c (mem_of_getElem? hc)) ht s.options.gaps
    dsimp only [hintArea]
    unfold inColumnHint
    rw [if_neg (by omega), hc]
    dsimp only [bind_eq_bind, bind_some]
    rw [if_neg (by omega), hspan]
    dsimp only [bind_some]
    rw [getElem?_eq_getElem hd, xs_getElem? hs hlt.le]
    exact ⟨_, rfl⟩
  | floating => exact ⟨none, rfl⟩

theorem exists_insertHintArea (hs : s.Inv) (h : s.InRange p) :
    ∃ area, s.insertHintArea p = some area := by
  obtain ⟨area, harea⟩ := exists_hintArea hs h
  unfold insertHintArea
  rw [harea]
  exact ⟨_, rfl⟩

end ScrollingSpace

end Macniri.Layout
