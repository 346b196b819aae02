import Macniri.Scrolling.InView

/-! When a single operation scrolls the column that it activates into view. -/
namespace Macniri.Layout.ScrollingSpace

open List

variable {s s' t u : ScrollingSpace} {c d : Column} {i k n a : ℕ}

/-! Consuming and expelling the active window. -/

/-- A removal of one of several tiles leaves the view and the configuration alone. -/
theorem removeTileByIdx_many {r : RemovedTile} (hc : s.columns[i]? = some c)
    (hlen : c.tiles.length ≠ 1) (h : s.removeTileByIdx i k = some (r, t)) :
    ∃ cs ds v ir, t = { s with
      columns := cs, data := ds, viewOffsetToRestore := v, interactiveResize := ir } := by
  obtain ⟨d, hd, h⟩ := of_bind h
  obtain rfl := Option.some.inj (hc.symm.trans hd)
  rw [if_neg hlen] at h
  obtain ⟨tile, -, h⟩ := of_bind h
  obtain ⟨-, rfl⟩ := pair_inj h
  have hframe (u : ScrollingSpace) (p q : ℕ → Bool) (x y : ℚ) :
      ∃ cs, (if u.activeColumnIdx ≤ i then u.animateColumns p x else u.animateColumns q y) =
        { u with columns := cs } := by
    split
    · exact ⟨_, rfl⟩
    · exact ⟨_, rfl⟩
  obtain ⟨cs, hcs⟩ := hframe (({ s with
      viewOffsetToRestore := if i = s.activeColumnIdx ∧
        (!c.isNormal && (c.removeTile k).isNormal) = true then none else s.viewOffsetToRestore
      interactiveResize := s.interactiveResize.filter fun resize => tile.id != resize.window } :
    ScrollingSpace).setColumn i (c.removeTile k) |>.updateData i (c.removeTile k)) (i + 1 ≤ ·) (· ≤ i)
    (s.dataWidth i - (c.removeTile k).actualWidth) (-(s.dataWidth i - (c.removeTile k).actualWidth))
  exact ⟨cs, _, _, _, hcs⟩

theorem actualWidth_insertTile_still (c : Column) (m : Option MoveAnimation) (k : ℕ) (tile : Tile)
    (activate : Bool) :
    (({ c with moveAnimation := m } : Column).insertTile k tile activate).actualWidth =
      (c.insertTile k tile activate).actualWidth := by
  have hadd : (({ c with moveAnimation := m } : Column).addTileAt k tile).actualWidth =
      (c.addTileAt k tile).actualWidth := by
    unfold Column.addTileAt
    rw [Column.actualWidth_updateTileSizes, Column.actualWidth_updateTileSizes]
    have htabbed : ({ c with moveAnimation := m } : Column).isTabbed = c.isTabbed := rfl
    rw [htabbed]
    split
    · rfl
    · rfl
  exact hadd

/-- A tile is added to the active column. -/
theorem addTileToColumn_active {tile : Tile}
    (h : s.addTileToColumn s.activeColumnIdx none tile true = some s') :
    ∃ cs ds, s' = { s with columns := cs, data := ds } := by
  obtain ⟨d, hd, h⟩ := of_bind h
  dsimp only at h
  split at h
  · cases h
  obtain rfl := Option.some.inj h
  have hstay : (true && decide (((s.updateData s.activeColumnIdx
      (d.insertTile ((none : Option ℕ).getD d.tiles.length) tile true)).setColumn s.activeColumnIdx
      (d.insertTile ((none : Option ℕ).getD d.tiles.length) tile true)).activeColumnIdx ≠
        s.activeColumnIdx)) = false := by simp [setColumn, updateData]
  rw [hstay]
  simp only [Bool.false_eq_true, if_false]
  split
  · exact ⟨_, _, rfl⟩
  · exact ⟨_, _, rfl⟩

/-- No gesture moves the view, and it is at the offset `o` from the active column `i`. -/
structure ViewsAt (t : ScrollingSpace) (area : Rectangle) (i : ℕ) (o : ℚ) : Prop
    extends t.Steady where
  workingArea : t.workingArea = area
  active : t.activeColumnIdx = i
  target : t.viewOffset.target = o

theorem ViewsAt.scrolledIntoView_addTileToColumn {area : Rectangle} {tile : Tile}
    (hs : s.ViewsAt area i o) (hc : s.columns[i]? = some c)
    (h : s.addTileToColumn i none tile true = some s') :
    s'.ScrolledIntoView ↔ HasRoom area o (c.insertTile c.tiles.length tile true).actualWidth := by
  obtain rfl := hs.active
  obtain rfl := hs.target
  obtain rfl := hs.workingArea
  obtain ⟨b, hb, -, hmap⟩ := map_addTileToColumn (f := (·.actualWidth)) (fun _ _ => rfl) h
  obtain rfl := Option.some.inj (hc.symm.trans hb)
  obtain ⟨cs, ds, rfl⟩ := addTileToColumn_active h
  have hget := congrArg (·[s.activeColumnIdx]?) hmap
  simp only [List.getElem?_map] at hget
  rw [List.getElem?_set_self (by simpa using lt_length_of_getElem? hc)] at hget
  obtain ⟨d, hd, hwidth⟩ := of_map hget
  rw [scrolledIntoView_kept (t := { s with columns := cs, data := ds }) hs.toSteady hd rfl rfl,
    hwidth]
  rfl

theorem isDndScroll_animateTo {v : ViewOffset} (h : v.isDndScroll = false) (x p : ℚ) :
    (v.animateTo x p).isDndScroll = false := by
  unfold ViewOffset.animateTo
  cases v with
  | static o => dsimp only; split <;> rfl
  | animation m => dsimp only; split <;> rfl
  | gesture g =>
    have hg : g.dndLastEventTime.isSome = false := h
    dsimp only
    rw [hg]
    split
    · exact hg
    · rfl

theorem isDndScroll_animateViewOffset (h : s.viewOffset.isDndScroll = false) (i : ℕ) (x : ℚ) :
    (s.animateViewOffset i x).viewOffset.isDndScroll = false := by
  refine isDndScroll_animateTo ?_ ..
  cases hv : s.viewOffset with
  | static o => rfl
  | animation m => rfl
  | gesture g => rwa [hv] at h

/-- The view offset that is computed for a column shows its left edge. -/
theorem left_computeNewViewOffsetForColumn (hs : s.Fits) (hc : s.columns[i]? = some c)
    (target : Option ℚ) (prev : Option ℕ) :
    s.computeNewViewOffsetForColumn target i prev + s.workingArea.loc.x ≤ 0 := by
  obtain hw | hw := lt_or_ge c.actualWidth s.workingArea.size.w
  · exact (contains_computeNewViewOffsetForColumn hs hc hw target prev).1
  · have hmode : c.sizingMode = .normal := by
      simpa [Column.isNormal] using hs.normal c (List.mem_of_getElem? hc)
    have hfit : s.computeNewViewOffsetFit target (s.columnX i) c.actualWidth .normal =
        -s.workingArea.loc.x := by
      unfold computeNewViewOffsetFit areaFor
      simp only [reduceCtorEq, if_false]
      rw [computeNewViewOffset_wide hw, zero_sub]
    have hcentered : s.computeNewViewOffsetCentered target (s.columnX i) c.actualWidth .normal =
        -s.workingArea.loc.x := by
      unfold computeNewViewOffsetCentered
      rw [if_neg (by simp)]
      exact (if_pos hw).trans hfit
    obtain hx | ⟨-, hx⟩ := s.computeNewViewOffsetForColumn_cases target i prev
    · rw [hx]
      unfold computeNewViewOffsetForColumnCentered
      rw [hc]
      dsimp only
      rw [hmode, hcentered, neg_add_cancel]
    · rw [hx]
      unfold computeNewViewOffsetForColumnFit
      rw [hc]
      dsimp only
      rw [hmode, hfit, neg_add_cancel]

theorem SameColumn.computeNewViewOffsetForColumn (h : SameColumn s u a)
    (hlen : s.columns.length = u.columns.length) (x : ℚ) :
    u.computeNewViewOffsetForColumn (some x) a none =
      s.computeNewViewOffsetForColumn (some x) a none := by
  have hcentering : u.isCenteringFocusedColumn = s.isCenteringFocusedColumn := by
    unfold isCenteringFocusedColumn
    rw [h.options, hlen]
  rw [computeNewViewOffsetForColumn_of_none, computeNewViewOffsetForColumn_of_none, hcentering,
    h.fit, h.centered]

/-- The space as it is without its active column. -/
def withoutActive (s : ScrollingSpace) : ScrollingSpace :=
  { s with
    columns := s.columns.eraseIdx s.activeColumnIdx
    data := s.data.eraseIdx s.activeColumnIdx }

/-- The view offset of the column on the left when it takes over from the active column, and the
view would go to the offset `prev` from it. -/
def offsetOnLeft (s : ScrollingSpace) (prev : ℚ) : ℚ :=
  s.withoutActive.computeNewViewOffsetForColumn
    (some (s.columnX (s.activeColumnIdx - 1) + prev)) (s.activeColumnIdx - 1) none

theorem sameColumn_withoutActive (hc : s.columns[s.activeColumnIdx]? = some c)
    (hd : (s.columnTaken s.activeColumnIdx c).columns[s.activeColumnIdx - 1]? = some d) :
    SameColumn s.withoutActive (s.columnTaken s.activeColumnIdx c) (s.activeColumnIdx - 1) := by
  obtain ⟨cs, heq⟩ := s.columnTaken_eq s.activeColumnIdx c
  have hframe : SameFrame s.withoutActive (s.columnTaken s.activeColumnIdx c) := by
    rw [heq]
    exact ⟨rfl, rfl, rfl⟩
  have hwidths := map_columnTaken (f := fun c => (c.actualWidth, c.sizingMode)) (fun _ _ => rfl) hc
  refine ⟨hframe, ?_, ?_, ?_⟩
  · have hlen := congrArg List.length hwidths
    rw [List.length_map, List.eraseIdx_map, List.length_map] at hlen
    exact hlen.ge
  · rw [columnX_columnTaken]
    rfl
  · rw [List.eraseIdx_map] at hwidths
    have hget := congrArg (·[s.activeColumnIdx - 1]?) hwidths
    simp only [List.getElem?_map, hd] at hget
    obtain ⟨c', hc', hsame⟩ := of_map hget.symm
    obtain ⟨hwidth, hmode⟩ := Prod.mk.inj hsame
    exact ⟨c', d, hc', hd, hwidth.symm, hmode.symm⟩

theorem viewsAt_restore {prev : ℚ} (hfits : u.Fits) (hdnd : u.viewOffset.isDndScroll = false)
    (hactive : u.activeColumnIdx = s.activeColumnIdx - 1)
    (hsame : SameColumn s.withoutActive u (s.activeColumnIdx - 1))
    (hsize : s.withoutActive.columns.length = u.columns.length)
    (hleft : s.withoutActive.columnX (s.activeColumnIdx - 1) = s.columnX (s.activeColumnIdx - 1)) :
    ViewsAt ((u.animateViewOffset u.activeColumnIdx prev).animateViewOffsetToColumn none
      u.activeColumnIdx none) s.workingArea (s.activeColumnIdx - 1) (s.offsetOnLeft prev) := by
  obtain ⟨-, d, -, hd, -⟩ := hsame.column
  have hw : (u.animateViewOffset u.activeColumnIdx prev).Fits :=
    ⟨hfits.never, hfits.gaps, hfits.normal⟩
  have hsamew : SameColumn s.withoutActive (u.animateViewOffset u.activeColumnIdx prev)
      (s.activeColumnIdx - 1) :=
    ⟨⟨hsame.options, hsame.workingArea, hsame.parentArea⟩, hsame.length, hsame.columnX, hsame.column⟩
  have htarget : ((u.animateViewOffset u.activeColumnIdx prev).animateViewOffsetToColumn none
      u.activeColumnIdx none).viewOffset.target =
      (u.animateViewOffset u.activeColumnIdx prev).computeNewViewOffsetForColumn none
        u.activeColumnIdx none := target_animateViewOffset ..
  refine ⟨⟨⟨hfits.never, hfits.gaps, hfits.normal⟩, ?_, ?_⟩, hsame.workingArea, hactive, ?_⟩
  · exact isDndScroll_animateViewOffset (isDndScroll_animateViewOffset hdnd ..) ..
  · rw [htarget]
    exact left_computeNewViewOffsetForColumn hw (hactive ▸ hd) ..
  · have hpos : (u.animateViewOffset u.activeColumnIdx prev).targetViewPos =
        s.columnX (s.activeColumnIdx - 1) + prev := by
      have hX : u.columnX u.activeColumnIdx = s.columnX (s.activeColumnIdx - 1) := by
        rw [hactive, hsame.columnX, hleft]
      unfold targetViewPos
      rw [target_animateViewOffset]
      exact congrArg (· + prev) hX
    rw [hactive] at hsamew hpos htarget ⊢
    rw [htarget, computeNewViewOffsetForColumn_none, hpos,
      hsamew.computeNewViewOffsetForColumn hsize]
    rfl

theorem viewsAt_removeColumnByIdx_left {prev : ℚ} (hs : s.Steady)
    (hsized : s.data.length = s.columns.length) (hpos : 0 < s.activeColumnIdx)
    (hprev : s.activatePrevColumnOnRemoval = some prev)
    (h : s.removeColumnByIdx s.activeColumnIdx = some (c, t)) :
    t.ViewsAt s.workingArea (s.activeColumnIdx - 1) (s.offsetOnLeft prev) := by
  obtain ⟨hc, rfl⟩ := removeColumnByIdx_taken h
  have hlt := lt_length_of_getElem? hc
  have hfits := fits_columnTaken hs.toFits hc
  have hlen := length_columnTaken hc
  obtain ⟨d, hd⟩ : ∃ d, (s.columnTaken s.activeColumnIdx c).columns[s.activeColumnIdx - 1]? = some d :=
    ⟨_, List.getElem?_eq_getElem (by omega)⟩
  have hsame := sameColumn_withoutActive hc hd
  have hleft : s.withoutActive.columnX (s.activeColumnIdx - 1) = s.columnX (s.activeColumnIdx - 1) :=
    columnXAt_eraseIdx_le (List.getElem?_eq_getElem (by omega)) (Nat.sub_le ..)
  have hsize : s.withoutActive.columns.length =
      (s.columnTaken s.activeColumnIdx c).columns.length := by
    rw [hlen]
    exact List.length_eraseIdx_of_lt hlt
  obtain ⟨hidx, hoffset, harea, hstored⟩ := s.columnTaken_active c
  generalize s.columnTaken s.activeColumnIdx c = u at *
  unfold refocusAfterRemoval
  have hnil : u.columns ≠ [] := fun hnil => by simp [hnil] at hd
  rw [hidx, if_neg hnil, if_neg (lt_irrefl _), if_pos rfl, hstored, hprev]
  dsimp only
  rw [if_pos hpos, activateColumn_of_ne (s := u) (by omega)]
  have hdnd := isDndScroll_animateViewOffset (hoffset ▸ hs.isDndScroll) (s.activeColumnIdx - 1)
    (u.computeNewViewOffsetForColumn none (s.activeColumnIdx - 1) (some u.activeColumnIdx))
  exact viewsAt_restore ⟨hfits.never, hfits.gaps, hfits.normal⟩ hdnd rfl
    ⟨⟨hsame.options, hsame.workingArea, hsame.parentArea⟩, hsame.length, hsame.columnX, hsame.column⟩
    hsize hleft

theorem viewsAt_removeColumnByIdx_right (hs : s.Steady)
    (hprev : s.activatePrevColumnOnRemoval = none) (hmore : s.activeColumnIdx + 1 < s.columns.length)
    (h : s.removeColumnByIdx s.activeColumnIdx = some (c, t)) :
    t.ViewsAt s.workingArea s.activeColumnIdx s.viewOffset.target := by
  obtain ⟨hc, rfl⟩ := removeColumnByIdx_taken h
  have hfits := fits_columnTaken hs.toFits hc
  obtain ⟨hidx, hoffset, harea, hstored⟩ := s.columnTaken_active c
  have hlen := length_columnTaken hc
  generalize s.columnTaken s.activeColumnIdx c = u at *
  have hdnd : u.viewOffset.isDndScroll = false := hoffset ▸ hs.isDndScroll
  unfold refocusAfterRemoval
  have hnil : u.columns ≠ [] := List.ne_nil_of_length_pos (by omega)
  rw [hidx, if_neg hnil, if_neg (lt_irrefl _), if_pos rfl, hstored, hprev]
  dsimp only
  rw [min_eq_left (by omega), ← hidx, activateColumn_self hdnd]
  exact ⟨⟨hfits, hdnd, by rw [hoffset, harea]; exact hs.left⟩, harea, rfl, by rw [hoffset]⟩

theorem removeTileByIdx_one {r : RemovedTile} (hc : s.columns[i]? = some c)
    (hlen : c.tiles.length = 1) (h : s.removeTileByIdx i k = some (r, t)) :
    s.removeColumnByIdx i = some (c, t) ∧ c.tiles[k]? = some r.tile := by
  obtain ⟨d, hd, h⟩ := of_bind h
  obtain rfl := Option.some.inj (hc.symm.trans hd)
  rw [if_pos hlen] at h
  obtain ⟨⟨d, u⟩, hu, h⟩ := of_bind h
  obtain ⟨tile, htile, h⟩ := of_bind h
  obtain ⟨rfl, rfl⟩ := pair_inj h
  obtain rfl := Option.some.inj (hc.symm.trans (removeColumnByIdx_taken hu).1)
  exact ⟨hu, htile⟩

/-- The width of a column after a tile is put at its end. -/
def widthWith (tile : Tile) (c : Column) : ℚ := (c.insertTile c.tiles.length tile true).actualWidth

theorem widthWith_removeColumnByIdx (h : s.removeColumnByIdx n = some (c, t))
    (hd : s.columns[if i < n then i else i + 1]? = some d) (tile : Tile) :
    ∃ d', t.columns[i]? = some d' ∧ widthWith tile d' = widthWith tile d := by
  have hmap : t.columns.map (widthWith tile) = (s.columns.map (widthWith tile)).eraseIdx n :=
    map_removeColumnByIdx (fun c m => actualWidth_insertTile_still c m ..) h
  have hget := congrArg (·[i]?) hmap
  simp only [List.getElem?_map, List.getElem?_eraseIdx] at hget
  rw [← apply_ite (Option.map (widthWith tile)), ← apply_ite (s.columns[·]?), hd] at hget
  exact of_map hget

/-- The column that a window is expelled into, when it is inserted. -/
def expelled (s : ScrollingSpace) (tile : Tile) (c : Column) : Column :=
  s.adopt (Column.newWithTile tile s.viewSize s.workingArea s.parentArea s.scale c.width
    c.isFullWidth)

/-- The view offset from the column with the active window after this window went left, and the
width of that column, where the view does not scroll to it. -/
def unfittedLeft (s : ScrollingSpace) : Option (ℚ × ℚ) := do
  let c ← s.activeColumn
  let tile ← c.tiles[c.activeTileIdx]?
  if c.tiles.length = 1 then
    if s.activeColumnIdx = 0 then none
    else
      let left ← s.columns[s.activeColumnIdx - 1]?
      let offset := s.columnX s.activeColumnIdx - s.columnX (s.activeColumnIdx - 1)
      some (s.offsetOnLeft ((s.activatePrevColumnOnRemoval).getD (s.viewOffset.stationary + offset)),
        widthWith tile left)
  else some (s.viewOffset.target, (s.expelled tile c).actualWidth)

/-- The same for a window that goes right. -/
def unfittedRight (s : ScrollingSpace) : Option (ℚ × ℚ) := do
  let c ← s.activeColumn
  let tile ← c.tiles[c.activeTileIdx]?
  if c.tiles.length = 1 then
    let right ← s.columns[s.activeColumnIdx + 1]?
    some (s.viewOffset.target, widthWith tile right)
  else none

theorem columns_ne_nil_of_uids (h : t.uids = s.uids) (hs : s.columns ≠ []) : t.columns ≠ [] := by
  intro hnil
  simp [uids, hnil, hs] at h

theorem steady_removeTileByIdx_many {r : RemovedTile} (hs : s.Steady)
    (hc : s.columns[s.activeColumnIdx]? = some c) (hlen : c.tiles.length ≠ 1)
    (h : s.removeTileByIdx s.activeColumnIdx k = some (r, t)) : t.Steady := by
  obtain ⟨hfits, -⟩ := fits_removeTileByIdx hs.toFits h
  obtain ⟨cs, ds, v, ir, rfl⟩ := removeTileByIdx_many hc hlen h
  exact ⟨hfits, hs.isDndScroll, hs.left⟩

/-- The active window leaves a column with other windows to the left. -/
theorem scrolledIntoView_expelLeft {r : RemovedTile} (hs : s.Steady)
    (hc : s.columns[s.activeColumnIdx]? = some c) (hlen : c.tiles.length ≠ 1)
    (h : s.removeTileByIdx s.activeColumnIdx k = some (r, t))
    (hadd : t.addTile (some s.activeColumnIdx) r.tile true r.width r.isFullWidth = some s') :
    s'.ScrolledIntoView ↔
      HasRoom s.workingArea s.viewOffset.target (s.expelled r.tile c).actualWidth := by
  have hsteady := steady_removeTileByIdx_many hs hc hlen h
  obtain ⟨d, hd, -, hwidth, hfull, -⟩ := removeTileByIdx_spec h
  obtain rfl := Option.some.inj (hc.symm.trans hd)
  obtain ⟨hidx, huids⟩ := removeTileByIdx_keeps hc hlen h
  have hnil := columns_ne_nil_of_uids huids (List.ne_nil_of_mem (List.mem_of_getElem? hc))
  obtain ⟨cs, ds, v, ir, rfl⟩ := removeTileByIdx_many hc hlen h
  rw [scrolledIntoView_addColumn hsteady hnil hadd, hwidth, hfull]
  exact iff_of_eq (if_pos rfl)

/-- The only window of the active column goes into the column on the left. -/
theorem scrolledIntoView_consumeLeft {r : RemovedTile} {prev : ℚ} (hinv : s.Inv) (hs : s.Steady)
    (hc : s.columns[s.activeColumnIdx]? = some c) (hlen : c.tiles.length = 1)
    (hpos : 0 < s.activeColumnIdx) (hd : s.columns[s.activeColumnIdx - 1]? = some d)
    (h : ({ s with activatePrevColumnOnRemoval := some prev } : ScrollingSpace).removeTileByIdx
      s.activeColumnIdx k = some (r, t))
    (hadd : t.addTileToColumn (s.activeColumnIdx - 1) none r.tile true = some s') :
    s'.ScrolledIntoView ↔ HasRoom s.workingArea (s.offsetOnLeft prev) (widthWith r.tile d) := by
  have hsized : s.data.length = s.columns.length := by rw [hinv.data, List.length_map]
  have hsteady : ({ s with activatePrevColumnOnRemoval := some prev } : ScrollingSpace).Steady :=
    ⟨⟨hs.never, hs.gaps, hs.normal⟩, hs.isDndScroll, hs.left⟩
  obtain ⟨hremove, -⟩ := removeTileByIdx_one
    (s := { s with activatePrevColumnOnRemoval := some prev }) hc hlen h
  obtain ⟨d', hd', hwidth⟩ := widthWith_removeColumnByIdx (i := s.activeColumnIdx - 1) (d := d)
    hremove (by rwa [if_pos (by omega)]) r.tile
  have hview := viewsAt_removeColumnByIdx_left hsteady hsized hpos rfl hremove
  refine (hview.scrolledIntoView_addTileToColumn hd' hadd).trans ?_
  rw [← hwidth]
  rfl

/-- The only window of the active column goes into the column on the right. -/
theorem scrolledIntoView_consumeRight {r : RemovedTile} (hs : s.Steady)
    (hc : s.columns[s.activeColumnIdx]? = some c) (hlen : c.tiles.length = 1)
    (hd : s.columns[s.activeColumnIdx + 1]? = some d)
    (hprev : s.activatePrevColumnOnRemoval = none)
    (h : s.removeTileByIdx s.activeColumnIdx k = some (r, t))
    (hadd : t.addTileToColumn s.activeColumnIdx none r.tile true = some s') :
    s'.ScrolledIntoView ↔ HasRoom s.workingArea s.viewOffset.target (widthWith r.tile d) := by
  obtain ⟨hremove, -⟩ := removeTileByIdx_one hc hlen h
  obtain ⟨d', hd', hwidth⟩ := widthWith_removeColumnByIdx (i := s.activeColumnIdx) hremove
    (by rwa [if_neg (lt_irrefl _)]) r.tile
  have hview := viewsAt_removeColumnByIdx_right hs hprev (lt_length_of_getElem? hd) hremove
  rw [hview.scrolledIntoView_addTileToColumn hd' hadd, ← hwidth]
  rfl

/-- The active window leaves a column with other windows to the right. -/
theorem scrolledIntoView_expelRight {r : RemovedTile} (hs : s.Steady)
    (hc : s.columns[s.activeColumnIdx]? = some c) (hlen : c.tiles.length ≠ 1)
    (h : s.removeTileByIdx s.activeColumnIdx k = some (r, t))
    (hadd : t.addTile (some (s.activeColumnIdx + 1)) r.tile true r.width r.isFullWidth = some s') :
    s'.ScrolledIntoView := by
  have hsteady := steady_removeTileByIdx_many hs hc hlen h
  obtain ⟨-, hr⟩ := fits_removeTileByIdx hs.toFits h
  obtain ⟨hidx, huids⟩ := removeTileByIdx_keeps hc hlen h
  have hnil := columns_ne_nil_of_uids huids (List.ne_nil_of_mem (List.mem_of_getElem? hc))
  have hnormal : (Column.newWithTile r.tile t.viewSize t.workingArea t.parentArea t.scale r.width
      r.isFullWidth).isNormal = true := by
    rw [Column.isNormal_newWithTile, hr]
    rfl
  have hright : t.insertionIdx (some (s.activeColumnIdx + 1)) ≠ t.activeColumnIdx := by
    rw [hidx]
    exact Nat.succ_ne_self _
  rw [scrolledIntoView_addColumn hsteady hnil hadd, AddedInView, if_neg hright, hnormal]
  exact nofun

/-- A window that is not the active one moves. -/
theorem activeUid_moveOther {r : RemovedTile} (hinv : s.Inv) (hne : s.columns ≠ [])
    (hc : s.columns[i]? = some c) (hk : k < c.tiles.length)
    (hother : ¬ (s.activeColumnIdx = i ∧ c.activeTileIdx = k))
    (h : s.removeTileByIdx i k = some (r, t)) : t.activeUid = s.activeUid ∧ t.columns ≠ [] := by
  have huid : t.activeUid = s.activeUid := by
    refine activeUid_removeTileByIdx hinv hc (fun ⟨hi, hlen⟩ => hother ⟨hi.symm, ?_⟩) h
    have hactive := (hinv.columns c (List.mem_of_getElem? hc)).active
    omega
  exact ⟨huid, columns_ne_nil_of_activeUid huid (activeUid_isSome hinv hne)⟩

/-- The view has room for a column that it is not scrolled to. -/
def HasRoomFor (s : ScrollingSpace) (x : Option (ℚ × ℚ)) : Prop :=
  ∀ y, x = some y → HasRoom s.workingArea y.1 y.2

theorem hasRoomFor_some (o w : ℚ) : s.HasRoomFor (some (o, w)) ↔ HasRoom s.workingArea o w :=
  ⟨fun h => h _ rfl, fun h _ heq => Option.some.inj heq ▸ h⟩

theorem hasRoomFor_none : s.HasRoomFor none := fun _ => nofun

theorem unfittedLeft_one {tile : Tile} (hc : s.columns[s.activeColumnIdx]? = some c)
    (htile : c.tiles[c.activeTileIdx]? = some tile) (hlen : c.tiles.length = 1)
    (hpos : s.activeColumnIdx ≠ 0) (hd : s.columns[s.activeColumnIdx - 1]? = some d) :
    s.unfittedLeft = some (s.offsetOnLeft (s.activatePrevColumnOnRemoval.getD
      (s.viewOffset.stationary + (s.columnX s.activeColumnIdx - s.columnX (s.activeColumnIdx - 1)))),
      widthWith tile d) := by
  simp [unfittedLeft, activeColumn, hc, htile, hlen, hpos, hd]

theorem unfittedLeft_many {tile : Tile} (hc : s.columns[s.activeColumnIdx]? = some c)
    (htile : c.tiles[c.activeTileIdx]? = some tile) (hlen : c.tiles.length ≠ 1) :
    s.unfittedLeft = some (s.viewOffset.target, (s.expelled tile c).actualWidth) := by
  simp [unfittedLeft, activeColumn, hc, htile, hlen]

theorem unfittedRight_one {tile : Tile} (hc : s.columns[s.activeColumnIdx]? = some c)
    (htile : c.tiles[c.activeTileIdx]? = some tile) (hlen : c.tiles.length = 1)
    (hd : s.columns[s.activeColumnIdx + 1]? = some d) :
    s.unfittedRight = some (s.viewOffset.target, widthWith tile d) := by
  simp [unfittedRight, activeColumn, hc, htile, hlen, hd]

theorem unfittedRight_many (hc : s.columns[s.activeColumnIdx]? = some c) (hlen : c.tiles.length ≠ 1) :
    s.unfittedRight = none := by
  simp [unfittedRight, activeColumn, hc, hlen]

theorem scrolledIntoView_consumeOrExpelWindowLeft {window : Option ℕ} (hinv : s.Inv) (hs : s.Steady)
    (h : s.consumeOrExpelWindowLeft window = some s') :
    s'.activeUid = s.activeUid ∨ (s'.ScrolledIntoView ↔ s.HasRoomFor s.unfittedLeft) := by
  unfold consumeOrExpelWindowLeft at h
  split at h
  · exact .inl (Option.some.inj h ▸ rfl)
  rename_i hempty
  have hne : s.columns ≠ [] := by simpa using hempty
  replace h := of_bind h
  obtain ⟨⟨i, k⟩, hw, h⟩ := h
  replace h := of_bind h
  obtain ⟨c, hc, h⟩ := h
  obtain ⟨d, hd, hk⟩ := windowOrActive_spec hinv hw
  obtain rfl := Option.some.inj (hc.symm.trans hd)
  dsimp only at h
  cases hwas : s.activeColumnIdx == i && c.activeTileIdx == k with
  | false =>
    left
    have hother : ¬ (s.activeColumnIdx = i ∧ c.activeTileIdx = k) := by simpa using hwas
    simp only [hwas, Bool.false_eq_true, if_false] at h
    split at h
    · split at h
      · exact Option.some.inj h ▸ rfl
      · rename_i hlen hi
        obtain ⟨⟨r, t⟩, hremove, h⟩ := of_bind h
        have hzero : k = 0 := by omega
        rw [activeUid_addTileToColumn h,
          (activeUid_moveOther hinv hne hc hk hother (hzero ▸ hremove)).1]
    · obtain ⟨⟨r, t⟩, hremove, h⟩ := of_bind h
      obtain ⟨u, hadd, h⟩ := of_bind h
      obtain ⟨huid, hnil⟩ := activeUid_moveOther hinv hne hc hk hother hremove
      rw [← Option.some.inj h, activeUid_addTile hnil hadd, huid]
  | true =>
    obtain ⟨rfl, rfl⟩ : s.activeColumnIdx = i ∧ c.activeTileIdx = k := by simpa using hwas
    simp only [hwas, if_true] at h
    split at h
    · rename_i hlen
      split at h
      · exact .inl (Option.some.inj h ▸ rfl)
      · rename_i hpos
        right
        have hzero : c.activeTileIdx = 0 := by omega
        obtain ⟨⟨r, t⟩, hremove, h⟩ := of_bind h
        rw [if_pos le_rfl, Option.or_some] at hremove
        have htile := (removeTileByIdx_one (s := { s with activatePrevColumnOnRemoval := some _ }) hc
          hlen hremove).2
        rw [← hzero] at htile
        have hd := List.getElem?_eq_getElem (l := s.columns) (i := s.activeColumnIdx - 1) (by
          have := lt_length_of_getElem? hc
          omega)
        rw [unfittedLeft_one hc htile hlen hpos hd, hasRoomFor_some]
        exact scrolledIntoView_consumeLeft hinv hs hc hlen (Nat.pos_of_ne_zero hpos) hd hremove h
    · right
      rename_i hlen
      obtain ⟨⟨r, t⟩, hremove, h⟩ := of_bind h
      obtain ⟨u, hadd, h⟩ := of_bind h
      obtain ⟨d, hd, htile, -⟩ := removeTileByIdx_spec hremove
      obtain rfl := Option.some.inj (hc.symm.trans hd)
      rw [unfittedLeft_many hc htile hlen, hasRoomFor_some, ← Option.some.inj h]
      have hview : u.ScrolledIntoView ↔ _ := scrolledIntoView_expelLeft hs hc hlen hremove hadd
      exact hview

theorem scrolledIntoView_consumeOrExpelWindowRight {window : Option ℕ} (hinv : s.Inv) (hs : s.Steady)
    (h : s.consumeOrExpelWindowRight window = some s') :
    s'.activeUid = s.activeUid ∨ (s'.ScrolledIntoView ↔ s.HasRoomFor s.unfittedRight) := by
  unfold consumeOrExpelWindowRight at h
  split at h
  · exact .inl (Option.some.inj h ▸ rfl)
  rename_i hempty
  have hne : s.columns ≠ [] := by simpa using hempty
  replace h := of_bind h
  obtain ⟨⟨i, k⟩, hw, h⟩ := h
  replace h := of_bind h
  obtain ⟨c, hc, h⟩ := h
  obtain ⟨d, hd, hk⟩ := windowOrActive_spec hinv hw
  obtain rfl := Option.some.inj (hc.symm.trans hd)
  dsimp only at h
  cases hwas : s.activeColumnIdx == i && c.activeTileIdx == k with
  | false =>
    left
    have hother : ¬ (s.activeColumnIdx = i ∧ c.activeTileIdx = k) := by simpa using hwas
    simp only [hwas, Bool.false_eq_true, if_false] at h
    split at h
    · split at h
      · exact Option.some.inj h ▸ rfl
      · rename_i hlen hi
        obtain ⟨⟨r, t⟩, hremove, h⟩ := of_bind h
        have hzero : k = 0 := by omega
        rw [activeUid_addTileToColumn h,
          (activeUid_moveOther hinv hne hc hk hother (hzero ▸ hremove)).1]
    · obtain ⟨⟨r, t⟩, hremove, h⟩ := of_bind h
      obtain ⟨huid, hnil⟩ := activeUid_moveOther hinv hne hc hk hother hremove
      rw [activeUid_addTile hnil h, huid]
  | true =>
    obtain ⟨rfl, rfl⟩ : s.activeColumnIdx = i ∧ c.activeTileIdx = k := by simpa using hwas
    simp only [hwas, if_true] at h
    split at h
    · rename_i hlen
      split at h
      · exact .inl (Option.some.inj h ▸ rfl)
      · rename_i hlast
        right
        have hzero : c.activeTileIdx = 0 := by omega
        obtain ⟨⟨r, t⟩, hremove, h⟩ := of_bind h
        have htile := (removeTileByIdx_one (s := { s with activatePrevColumnOnRemoval := none }) hc
          hlen hremove).2
        rw [← hzero] at htile
        have hd := List.getElem?_eq_getElem (l := s.columns) (i := s.activeColumnIdx + 1) (by
          have := lt_length_of_getElem? hc
          omega)
        rw [unfittedRight_one hc htile hlen hd, hasRoomFor_some]
        exact scrolledIntoView_consumeRight (s := { s with activatePrevColumnOnRemoval := none })
          ⟨⟨hs.never, hs.gaps, hs.normal⟩, hs.isDndScroll, hs.left⟩ hc hlen hd rfl hremove h
    · right
      rename_i hlen
      obtain ⟨⟨r, t⟩, hremove, h⟩ := of_bind h
      rw [unfittedRight_many hc hlen]
      exact iff_of_true (scrolledIntoView_expelRight hs hc hlen hremove h) hasRoomFor_none

/-! The operations that can activate a column. -/

inductive ActivatingOp where
  | addColumn (idx : Option ℕ) (column : Column)
  | removeColumnByIdx (idx : ℕ)
  | focus (op : FocusOp)
  | move (op : MoveOp)
  | consumeOrExpelWindowLeft (window : Option ℕ)
  | consumeOrExpelWindowRight (window : Option ℕ)

def applyActivating (s : ScrollingSpace) : ActivatingOp → Option ScrollingSpace
  | .addColumn idx column => s.addColumn idx column true
  | .removeColumnByIdx idx => (s.removeColumnByIdx idx).map (·.2)
  | .focus op => some (s.applyFocus op)
  | .move op => s.applyMove op
  | .consumeOrExpelWindowLeft window => s.consumeOrExpelWindowLeft window
  | .consumeOrExpelWindowRight window => s.consumeOrExpelWindowRight window

/-- The operation leaves the column that it activates in view. -/
def RoomFor (s : ScrollingSpace) : ActivatingOp → Prop
  | .addColumn idx column => s.AddedInView (s.insertionIdx idx) column
  -- The next column comes to the index of the active one, and nothing is scrolled.
  | .removeColumnByIdx idx => idx = s.activeColumnIdx →
    s.activatePrevColumnOnRemoval = none ∨ s.activeColumnIdx = 0 →
      ∀ next, s.columns[s.activeColumnIdx + 1]? = some next →
        HasRoom s.workingArea s.viewOffset.target next.actualWidth
  | .focus _ | .move _ => True
  | .consumeOrExpelWindowLeft _ => s.HasRoomFor s.unfittedLeft
  | .consumeOrExpelWindowRight _ => s.HasRoomFor s.unfittedRight

theorem scrolledIntoView_applyActivating {op : ActivatingOp} (hs : s.AtRest)
    (h : s.applyActivating op = some s') :
    s'.activeUid = s.activeUid ∨ (s'.ScrolledIntoView ↔ s.RoomFor op) := by
  have hdnd := hs.steady.isDndScroll
  have hshown (hr : Refocused s s') : s'.activeUid = s.activeUid ∨ (s'.ScrolledIntoView ↔ True) :=
    hr.imp id fun hview => iff_of_true hview trivial
  cases op with
  | addColumn idx column => exact .inr (scrolledIntoView_addColumn hs.steady hs.columns_ne_nil h)
  | removeColumnByIdx idx =>
    obtain ⟨⟨c, t⟩, hremove, rfl⟩ := of_map h
    by_cases hidx : idx = s.activeColumnIdx
    · subst hidx
      right
      rw [scrolledIntoView_removeColumnByIdx hs.steady hremove]
      exact ⟨fun hroom _ => hroom, fun hroom => hroom rfl⟩
    · exact .inl (activeUid_removeColumnByIdx hs.toInv hidx hremove)
  | focus op =>
    have hfocus := refocused_applyFocus hs.toFits hdnd op
    exact hshown (Option.some.inj h ▸ hfocus)
  | move op => exact hshown (refocused_applyMove hs.toInv hs.toFits h)
  | consumeOrExpelWindowLeft window =>
    exact scrolledIntoView_consumeOrExpelWindowLeft hs.toInv hs.steady h
  | consumeOrExpelWindowRight window =>
    exact scrolledIntoView_consumeOrExpelWindowRight hs.toInv hs.steady h

/-- A single operation on a space at rest scrolls the column that it activates into view, unless it
leaves the view where it is and this column is too wide for it. -/
theorem scrolledIntoView_iff_roomFor {op : ActivatingOp} (hs : s.AtRest)
    (h : s.applyActivating op = some s') (hactivated : s'.activeUid ≠ s.activeUid) :
    s'.ScrolledIntoView ↔ s.RoomFor op :=
  (scrolledIntoView_applyActivating hs h).resolve_left hactivated

instance (area : Rectangle) (o w : ℚ) : Decidable (Contains area o w) :=
  inferInstanceAs (Decidable (_ ∧ _))

instance (s : ScrollingSpace) : Decidable s.Fits :=
  decidable_of_iff (s.options.centerFocusedColumn = .never ∧ 0 ≤ s.options.gaps ∧
    ∀ c ∈ s.columns, c.isNormal = true) ⟨fun h => ⟨h.1, h.2.1, h.2.2⟩, fun h => ⟨h.1, h.2, h.3⟩⟩

instance (s : ScrollingSpace) : Decidable s.ShowsActive :=
  decidable_of_iff (∃ c ∈ s.activeColumn, Contains s.workingArea s.viewOffset.target c.actualWidth)
    showsActive_iff.symm

instance (s : ScrollingSpace) : Decidable s.ScrolledIntoView :=
  decidable_of_iff (∀ c ∈ s.activeColumn, c.actualWidth < s.workingArea.size.w → s.ShowsActive)
    Iff.rfl

/-- The second of three columns is at the right edge of the view, and the third one is wider. -/
def narrowBeforeWide : List Op :=
  [openOp 1, openOp 2, .updateWindow 2 smallCommit false, openOp 3, .focus .focusColumnFirst,
    .focus .focusRight]

/-- Going back to the first column scrolls to it. -/
theorem scrolledIntoView_iff_roomFor_focusLeft : ∃ s s',
    run step testSpace narrowBeforeWide = some s ∧
    s.applyActivating (.focus .focusLeft) = some s' ∧ s'.activeUid ≠ s.activeUid ∧
    s'.ScrolledIntoView := by
  have hrun : (run step testSpace narrowBeforeWide).any (fun s =>
      decide (s.Fits ∧ s.viewOffset.isGesture = false ∧ s.ShowsActive) &&
        decide (s.focusLeft.activeUid ≠ s.activeUid)) = true := by decide +kernel
  obtain ⟨s, hs, hrest⟩ := (Option.any_eq_true _ _).mp hrun
  obtain ⟨hrest, huid⟩ := Bool.and_eq_true_iff.mp hrest
  obtain ⟨hfits, hgesture, hshown⟩ := of_decide_eq_true hrest
  have hrest : s.AtRest := ⟨inv_run inv_new hs, hfits, hgesture, hshown⟩
  have hactivated := of_decide_eq_true huid
  have hop : s.applyActivating (.focus .focusLeft) = some s.focusLeft := rfl
  exact ⟨s, _, hs, hop, hactivated, (scrolledIntoView_iff_roomFor hrest hop hactivated).mpr trivial⟩

/-- The active column is closed, and the wider one at its index does not fit the view. -/
theorem activeColumn_out_of_view : ∃ s s', run step testSpace narrowBeforeWide = some s ∧ s.AtRest ∧
    s.applyActivating (.removeColumnByIdx 1) = some s' ∧ s'.activeUid ≠ s.activeUid ∧
    ¬ s'.ScrolledIntoView := by
  have hrun : (run step testSpace narrowBeforeWide).any (fun s =>
      decide (s.Fits ∧ s.viewOffset.isGesture = false ∧ s.ShowsActive) &&
        (s.applyActivating (.removeColumnByIdx 1)).any fun s' =>
          decide (s'.activeUid ≠ s.activeUid ∧ ¬ s'.ScrolledIntoView)) = true := by decide +kernel
  obtain ⟨s, hs, hrest⟩ := (Option.any_eq_true _ _).mp hrun
  obtain ⟨hrest, hop⟩ := Bool.and_eq_true_iff.mp hrest
  obtain ⟨hfits, hgesture, hshown⟩ := of_decide_eq_true hrest
  obtain ⟨s', hs', hout⟩ := (Option.any_eq_true _ _).mp hop
  exact ⟨s, s', hs, ⟨inv_run inv_new hs, hfits, hgesture, hshown⟩, hs', of_decide_eq_true hout⟩

end Macniri.Layout.ScrollingSpace
