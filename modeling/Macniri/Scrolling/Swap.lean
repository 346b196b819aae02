import Mathlib.Logic.Equiv.Basic
import Macniri.Scrolling.ActiveWindow

/-! Swapping the active windows of two neighbouring columns is a transposition. -/
namespace Macniri.Layout

open List Option

def ScrollDirection.opposite : ScrollDirection → ScrollDirection
  | .left => .right
  | .right => .left

theorem insertIdx_eraseIdx_eq_set {α : Type} {l : List α} {i : ℕ} (h : i < l.length) (a : α) :
    (l.eraseIdx i).insertIdx i a = l.set i a := by
  induction l generalizing i with
  | nil => simp at h
  | cons b l ih =>
    cases i with
    | zero => simp
    | succ i => simp [ih (by simpa using h)]

/-- Moving an element to a neighbouring index swaps the two. -/
theorem move_next {α : Type} {l : List α} {a : ℕ} {u v : α} (hu : l[a]? = some u)
    (hv : l[a + 1]? = some v) :
    (l.eraseIdx a).insertIdx (a + 1) u = (l.set a v).set (a + 1) u := by
  induction l generalizing a with
  | nil => cases hu
  | cons b l ih =>
    cases a with
    | zero =>
      cases l with
      | nil => cases hv
      | cons b' l =>
        obtain rfl := some.inj hv
        simp
    | succ a => simpa using ih (by simpa using hu) (by simpa using hv)

theorem move_prev {α : Type} {l : List α} {a : ℕ} {u v : α} (hu : l[a + 1]? = some u)
    (hv : l[a]? = some v) :
    (l.eraseIdx (a + 1)).insertIdx a u = (l.set (a + 1) v).set a u := by
  induction l generalizing a with
  | nil => cases hu
  | cons b l ih =>
    cases a with
    | zero =>
      cases l with
      | nil => cases hu
      | cons b' l =>
        obtain rfl := some.inj hv
        simp
    | succ a => simpa using ih (by simpa using hu) (by simpa using hv)

namespace ScrollingSpace

variable {s s' : ScrollingSpace} {i j k w x y : ℕ} {ws zs : List ℕ}

/-- The window at a position: the column and the tile in it. -/
def windowAt (s : ScrollingSpace) (p : ℕ × ℕ) : Option ℕ :=
  (s.columns[p.1]?).bind fun c => (c.tiles[p.2]?).map Tile.id

/-- The index of the column next to the active one. -/
def neighbour (s : ScrollingSpace) : ScrollDirection → Option ℕ
  | .left => if s.activeColumnIdx = 0 then none else some (s.activeColumnIdx - 1)
  | .right =>
    if s.activeColumnIdx + 1 < s.columns.length then some (s.activeColumnIdx + 1) else none

/-- The active tile of each column. -/
def activeTiles (s : ScrollingSpace) : List ℕ := s.columns.map (·.activeTileIdx)

theorem windowAt_eq (s : ScrollingSpace) (p : ℕ × ℕ) :
    s.windowAt p = (s.arrangement[p.1]?).bind (·[p.2]?) := by
  unfold windowAt arrangement
  rw [getElem?_map]
  cases s.columns[p.1]? with
  | none => rfl
  | some c => simp [Column.windowIds]

theorem windowIds_ignores_animation (c : Column) (m : Option MoveAnimation) :
    ({ c with moveAnimation := m } : Column).windowIds = c.windowIds := rfl

theorem column_of_arrangement (h : s.arrangement[i]? = some ws) :
    ∃ c, s.columns[i]? = some c ∧ c.windowIds = ws := by
  simpa [arrangement] using h

/-! Every step of the swap succeeds, with a known arrangement. -/

theorem exists_removeTileByIdx (hi : s.arrangement[i]? = some ws) (hk : ws[k]? = some w) :
    ∃ r s', s.removeTileByIdx i k = some (r, s') ∧ r.tile.id = w ∧
      s'.arrangement = if ws.length = 1 then s.arrangement.eraseIdx i
        else s.arrangement.set i (ws.eraseIdx k) := by
  obtain ⟨c, hc, rfl⟩ := column_of_arrangement hi
  obtain ⟨tile, ht, rfl⟩ : ∃ tile, c.tiles[k]? = some tile ∧ tile.id = w := by
    simpa [Column.windowIds] using hk
  have hlen : c.windowIds.length = c.tiles.length := length_map ..
  obtain ⟨r, s', h⟩ : ∃ r s', s.removeTileByIdx i k = some (r, s') := by
    unfold removeTileByIdx removeColumnByIdx
    rw [hc]
    dsimp only [bind_eq_bind, bind_some, pure]
    split
    · rw [ht]
      exact ⟨_, _, rfl⟩
    · rw [ht]
      exact ⟨_, _, rfl⟩
  obtain ⟨c', hc', ht', -⟩ := removeTileByIdx_spec h
  obtain rfl := some.inj (hc.symm.trans hc')
  obtain rfl := some.inj (ht.symm.trans ht')
  refine ⟨r, s', h, rfl, ?_⟩
  rw [hlen, ← Column.windowIds_removeTile]
  exact map_removeTileByIdx windowIds_ignores_animation hc h

theorem exists_addTileToColumn (hi : s.arrangement[i]? = some ws) (hk : k ≤ ws.length)
    (tile : Tile) : ∃ s', s.addTileToColumn i (some k) tile false = some s' ∧
      s'.arrangement = s.arrangement.set i (ws.insertIdx k tile.id) := by
  obtain ⟨c, hc, rfl⟩ := column_of_arrangement hi
  have hlen : c.windowIds.length = c.tiles.length := length_map ..
  obtain ⟨s', h⟩ : ∃ s', s.addTileToColumn i (some k) tile false = some s' := by
    unfold addTileToColumn
    rw [hc]
    dsimp only [bind_eq_bind, bind_some, getD_some]
    rw [if_neg (by omega)]
    exact ⟨_, rfl⟩
  obtain ⟨c', hc', -, hmap⟩ := map_addTileToColumn windowIds_ignores_animation h
  obtain rfl := some.inj (hc.symm.trans hc')
  rw [Column.windowIds_insertTile] at hmap
  exact ⟨s', h, hmap⟩

theorem exists_addTile (hi : i ≤ s.arrangement.length) (tile : Tile) (width : ColumnWidth)
    (isFullWidth : Bool) : ∃ s', s.addTile (some i) tile true width isFullWidth = some s' ∧
      s'.arrangement = s.arrangement.insertIdx i [tile.id] ∧ s'.activeColumnIdx = i := by
  obtain ⟨s', h⟩ : ∃ s', s.addTile (some i) tile true width isFullWidth = some s' := by
    unfold addTile addColumn
    rw [if_neg (by simpa [insertionIdx, arrangement] using hi)]
    exact ⟨_, rfl⟩
  have hmap := map_addColumn windowIds_ignores_animation h
  have hids : (s.adopt (Column.newWithTile tile s.viewSize s.workingArea s.parentArea s.scale
      width isFullWidth)).windowIds = [tile.id] :=
    Column.windowIds_updateConfig.trans (Column.windowIds_newWithTile ..)
  rw [hids] at hmap
  exact ⟨s', h, hmap, (counts_addTile h).2 rfl⟩

/-- A tile takes the place of another one in its column. -/
theorem exists_exchange (hi : s.arrangement[i]? = some ws) (hk : ws[k]? = some w) (tile : Tile) :
    ∃ t r s', s.addTileToColumn i (some k) tile false = some t ∧
      t.removeTileByIdx i (k + 1) = some (r, s') ∧ r.tile.id = w ∧
      s'.arrangement = s.arrangement.set i (ws.set k tile.id) := by
  have hlt := lt_length_of_getElem? hk
  obtain ⟨t, hadd, harr⟩ := exists_addTileToColumn hi hlt.le tile
  have hget : t.arrangement[i]? = some (ws.insertIdx k tile.id) := by
    rw [harr, getElem?_set_self (lt_length_of_getElem? hi)]
  have hnext : (ws.insertIdx k tile.id)[k + 1]? = some w := by
    rw [getElem?_insertIdx_of_gt (Nat.lt_succ_self k), Nat.succ_sub_one, hk]
  obtain ⟨r, s', hremove, hid, harr'⟩ := exists_removeTileByIdx hget hnext
  refine ⟨t, r, s', hadd, hremove, hid, ?_⟩
  have hlen : (ws.insertIdx k tile.id).length = ws.length + 1 :=
    length_insertIdx_of_le_length hlt.le ..
  have hset : (ws.insertIdx k tile.id).eraseIdx (k + 1) = ws.set k tile.id := by
    rw [← insertIdx_eraseIdx_of_le hlt le_rfl, insertIdx_eraseIdx_eq_set hlt]
  rw [harr', if_neg (by omega), harr, List.set_set, hset]

/-! A column move, up to animations. -/

theorem windowIds_cancelResize (c : Column) : c.cancelResize.windowIds = c.windowIds := by
  simp [Column.cancelResize, Column.windowIds]

theorem map_moveColumnTo {β : Type} {f : Column → β} {c : Column} {d : ColumnData}
    (hf : ∀ (c : Column) (m : Option MoveAnimation), f { c with moveAnimation := m } = f c)
    (hcancel : f c.cancelResize = f c) (hc : s.columns[s.activeColumnIdx]? = some c)
    (hd : s.data[s.activeColumnIdx]? = some d) (hj : s.activeColumnIdx ≠ j) :
    (s.moveColumnTo j).columns.map f =
      ((s.columns.map f).eraseIdx s.activeColumnIdx).insertIdx j (f c) := by
  unfold moveColumnTo
  dsimp only
  rw [if_neg hj, hc, hd]
  dsimp only
  rw [columns_activateColumn]
  have hmove (u : ScrollingSpace) (a b : ℕ) (v z : ℚ) :
      (u.animateColumnMove a b v z).columns.map f = u.columns.map f := by
    unfold animateColumnMove
    dsimp only
    split
    · rw [map_animateColumns hf, map_animateColumns hf]
    · rw [map_animateColumns hf, map_animateColumns hf]
  rw [hmove]
  unfold reorderColumn
  dsimp only
  rw [map_insertIdx, hcancel, eraseIdx_map, columns_cancelResizeForColumn hc,
    eraseIdx_set_eq]

/-! The swap. -/

/-- What a swap of the `i`-th window of one column with the `k`-th one of another makes of the
windows. -/
def swapped (l : List (List ℕ)) (a i b k : ℕ) (as bs : List ℕ) (x y : ℕ) : List (List ℕ) :=
  (l.set a (as.set i y)).set b (bs.set k x)

/-- A swap exchanges the two positions and leaves all others. -/
theorem windowAt_swapped {a b : ℕ} {as bs : List ℕ} (ha : s.arrangement[a]? = some as)
    (hb : s.arrangement[b]? = some bs) (hx : as[i]? = some x) (hy : bs[k]? = some y) (hab : a ≠ b)
    (h : s'.arrangement = swapped s.arrangement a i b k as bs x y) (p : ℕ × ℕ) :
    s'.windowAt p = s.windowAt (Equiv.swap (a, i) (b, k) p) := by
  have hla := lt_length_of_getElem? ha
  have hlb := lt_length_of_getElem? hb
  have hli := lt_length_of_getElem? hx
  have hlk := lt_length_of_getElem? hy
  rw [windowAt_eq, windowAt_eq, h, swapped]
  by_cases hpa : p = (a, i)
  · subst hpa
    rw [Equiv.swap_apply_left, getElem?_set_ne hab.symm, getElem?_set_self hla, hb]
    simp only [bind_some, getElem?_set_self hli, hy]
  by_cases hpb : p = (b, k)
  · subst hpb
    rw [Equiv.swap_apply_right, getElem?_set_self (by rwa [length_set]), ha]
    simp only [bind_some, getElem?_set_self hlk, hx]
  rw [Equiv.swap_apply_of_ne_of_ne hpa hpb]
  obtain ⟨n, m⟩ := p
  by_cases hnb : n = b
  · subst hnb
    have hm : k ≠ m := fun hkm => hpb (by rw [hkm])
    rw [getElem?_set_self (by rwa [length_set]), hb]
    simp only [bind_some, getElem?_set_ne hm]
  · rw [getElem?_set_ne (Ne.symm hnb)]
    by_cases hna : n = a
    · subst hna
      have hm : i ≠ m := fun him => hpa (by rw [him])
      rw [getElem?_set_self hla, ha]
      simp only [bind_some, getElem?_set_ne hm]
    · rw [getElem?_set_ne (Ne.symm hna)]

@[simp] theorem arrangement_setActiveTileIdx (s : ScrollingSpace) (j k : ℕ) :
    (s.setActiveTileIdx j k).arrangement = s.arrangement :=
  map_modify_of_eq (f := Column.windowIds) fun _ => rfl

@[simp] theorem arrangement_activateColumn (s : ScrollingSpace) (j : ℕ) :
    (s.activateColumn j).arrangement = s.arrangement := by
  unfold arrangement
  rw [columns_activateColumn]

theorem activeTiles_setActiveTileIdx_self (h : j < s.arrangement.length) :
    (s.setActiveTileIdx j k).activeTiles[j]? = some k := by
  have hlt : j < s.columns.length := by simpa [arrangement] using h
  simp [activeTiles, setActiveTileIdx, hlt]

theorem activeTiles_setActiveTileIdx_ne (h : i ≠ j) :
    (s.setActiveTileIdx i k).activeTiles[j]? = s.activeTiles[j]? := by
  simp [activeTiles, setActiveTileIdx, h]

/-- What the swap of the active windows `x` and `y` of the columns `a` and `b` leaves. -/
structure SwapResult (s s' : ScrollingSpace) (a i b k : ℕ) (as bs : List ℕ) (x y : ℕ) : Prop where
  arrangement : s'.arrangement = swapped s.arrangement a i b k as bs x y
  source : s'.activeTiles[a]? = some i
  target : s'.activeTiles[b]? = some k
  active : s'.activeColumnIdx = b

theorem swapResult_swapBack {t : ScrollingSpace} {a b : ℕ} {as bs : List ℕ}
    (ha : a < s.arrangement.length) (hb : b < s.arrangement.length) (hab : a ≠ b)
    (h : t.arrangement = swapped s.arrangement a i b k as bs x y) :
    SwapResult s (((t.setActiveTileIdx a i).setActiveTileIdx b k).activateColumn b) a i b k as bs
      x y := by
  have hlen : t.arrangement.length = s.arrangement.length := by
    rw [h, swapped, length_set, length_set]
  have htiles : (((t.setActiveTileIdx a i).setActiveTileIdx b k).activateColumn b).activeTiles =
      ((t.setActiveTileIdx a i).setActiveTileIdx b k).activeTiles := by
    unfold activeTiles
    rw [columns_activateColumn]
  refine ⟨by simpa using h, ?_, ?_, activeColumnIdx_activateColumn ..⟩
  · rw [htiles, activeTiles_setActiveTileIdx_ne hab.symm,
      activeTiles_setActiveTileIdx_self (hlen ▸ ha)]
  · rw [htiles, activeTiles_setActiveTileIdx_self (by rw [arrangement_setActiveTileIdx, hlen]; exact hb)]

/-- The index of the target column while the source column is gone. -/
def adjustedTarget (direction : ScrollDirection) (drained : Bool) (b : ℕ) : ℕ :=
  if direction = .right ∧ drained then b - 1 else b

/-- The source column goes with its only tile, and is created again for the other one. -/
theorem exists_swap_drained {a b : ℕ} {bs : List ℕ} (direction : ScrollDirection)
    (ha : s.arrangement[a]? = some [x]) (hb : s.arrangement[b]? = some bs) (hy : bs[k]? = some y)
    (hright : direction = .right → b = a + 1) (hleft : direction = .left → b < a) :
    ∃ r s1 s2 q s3 s4, s.removeTileByIdx a 0 = some (r, s1) ∧
      s1.addTileToColumn (adjustedTarget direction true b) (some k) r.tile false = some s2 ∧
      s2.removeTileByIdx (adjustedTarget direction true b) (k + 1) = some (q, s3) ∧
      s3.addTile (some a) q.tile true r.width r.isFullWidth = some s4 ∧
      s4.arrangement = swapped s.arrangement a 0 b k [x] bs x y := by
  have hla := lt_length_of_getElem? ha
  obtain ⟨r, s1, hremove, rfl, h1⟩ := exists_removeTileByIdx ha (getElem?_cons_zero)
  rw [if_pos (length_singleton)] at h1
  have hadj : s1.arrangement[adjustedTarget direction true b]? = some bs ∧ ∀ zs : List ℕ,
      (s.arrangement.eraseIdx a).set (adjustedTarget direction true b) zs =
        (s.arrangement.set b zs).eraseIdx a := by
    rw [h1]
    cases direction with
    | left =>
      have hlt := hleft rfl
      refine ⟨?_, fun zs => ?_⟩
      · simpa [adjustedTarget, getElem?_eraseIdx_of_lt hlt] using hb
      · simpa [adjustedTarget] using set_eraseIdx_gt hlt
    | right =>
      obtain rfl := hright rfl
      refine ⟨?_, fun zs => ?_⟩
      · simpa [adjustedTarget, getElem?_eraseIdx_of_ge (Nat.le_refl a)] using hb
      · simpa [adjustedTarget] using set_eraseIdx_le (Nat.le_refl a)
  obtain ⟨s2, q, s3, hadd, hremove', rfl, h3⟩ := exists_exchange hadj.1 hy r.tile
  rw [h1, hadj.2] at h3
  have hlen : ((s.arrangement.set b (bs.set k r.tile.id)).eraseIdx a).length + 1 =
      s.arrangement.length := by
    rw [length_eraseIdx_of_lt (by rwa [length_set]), length_set]
    omega
  obtain ⟨s4, hopen, h4, -⟩ :=
    exists_addTile (s := s3) (i := a) (by rw [h3]; omega) q.tile r.width r.isFullWidth
  refine ⟨r, s1, s2, q, s3, s4, hremove, hadd, hremove', hopen, ?_⟩
  rw [h4, h3, insertIdx_eraseIdx_eq_set (by rwa [length_set]), swapped]
  have hab : a ≠ b := by
    cases direction with
    | left => exact (hleft rfl).ne'
    | right => simp [hright rfl]
  exact set_comm _ _ hab.symm

/-- Both columns stay. -/
theorem exists_swap_kept {a b : ℕ} {as bs : List ℕ} (ha : s.arrangement[a]? = some as)
    (hb : s.arrangement[b]? = some bs) (hx : as[i]? = some x) (hy : bs[k]? = some y) (hab : a ≠ b)
    (hlen : as.length ≠ 1) : ∃ r s1 s2 q s3 s4, s.removeTileByIdx a i = some (r, s1) ∧
      s1.addTileToColumn b (some k) r.tile false = some s2 ∧
      s2.removeTileByIdx b (k + 1) = some (q, s3) ∧
      s3.addTileToColumn a (some i) q.tile false = some s4 ∧
      s4.arrangement = swapped s.arrangement a i b k as bs x y := by
  have hla := lt_length_of_getElem? ha
  have hli := lt_length_of_getElem? hx
  obtain ⟨r, s1, hremove, rfl, h1⟩ := exists_removeTileByIdx ha hx
  rw [if_neg hlen] at h1
  have hget : s1.arrangement[b]? = some bs := by rw [h1, getElem?_set_ne hab, hb]
  obtain ⟨s2, q, s3, hadd, hremove', rfl, h3⟩ := exists_exchange hget hy r.tile
  have hget' : s3.arrangement[a]? = some (as.eraseIdx i) := by
    rw [h3, getElem?_set_ne hab.symm, h1, getElem?_set_self hla]
  obtain ⟨s4, hback, h4⟩ := exists_addTileToColumn (k := i) hget'
    (by rw [length_eraseIdx_of_lt hli]; omega) q.tile
  refine ⟨r, s1, s2, q, s3, s4, hremove, hadd, hremove', hback, ?_⟩
  rw [h4, h3, h1, insertIdx_eraseIdx_eq_set hli, swapped, set_comm _ _ hab, List.set_set,
    set_comm _ _ hab.symm]

/-- The two columns that a swap is about, and their active windows. -/
structure SwapSource (s : ScrollingSpace) (direction : ScrollDirection) (b i k x y : ℕ)
    (as bs : List ℕ) : Prop where
  neighbour : s.neighbour direction = some b
  source : s.arrangement[s.activeColumnIdx]? = some as
  target : s.arrangement[b]? = some bs
  sourceTile : s.activeTiles[s.activeColumnIdx]? = some i
  targetTile : s.activeTiles[b]? = some k
  sourceWindow : as[i]? = some x
  targetWindow : bs[k]? = some y

theorem neighbour_spec {direction : ScrollDirection} {b : ℕ} (h : s.neighbour direction = some b) :
    (direction = .right ∧ b = s.activeColumnIdx + 1 ∧ b < s.columns.length) ∨
      (direction = .left ∧ b + 1 = s.activeColumnIdx) := by
  cases direction with
  | left =>
    unfold neighbour at h
    dsimp only at h
    split at h
    · cases h
    · obtain rfl := some.inj h
      exact .inr ⟨rfl, by omega⟩
  | right =>
    unfold neighbour at h
    dsimp only at h
    split at h
    · obtain rfl := some.inj h
      exact .inl ⟨rfl, rfl, by assumption⟩
    · cases h

theorem column_of_activeTiles (h : s.activeTiles[j]? = some i) :
    ∃ c, s.columns[j]? = some c ∧ c.activeTileIdx = i := by
  simpa [activeTiles] using h

/-- Two columns of one tile each change places. -/
theorem swapResult_moveColumnTo {direction : ScrollDirection} {b : ℕ} {as bs : List ℕ}
    (hs : s.Inv) (h : SwapSource s direction b i k x y as bs) (hxs : as.length = 1)
    (hys : bs.length = 1) :
    SwapResult s (s.moveColumnTo b) s.activeColumnIdx i b k as bs x y := by
  obtain ⟨c, hc, rfl⟩ := column_of_arrangement h.source
  obtain ⟨c', hc', hi⟩ := column_of_activeTiles h.sourceTile
  obtain rfl := some.inj (hc.symm.trans hc')
  have hspec := neighbour_spec h.neighbour
  have hne : s.activeColumnIdx ≠ b := by omega
  have hd := hs.data_getElem? hc
  obtain rfl : i = 0 := by have := lt_length_of_getElem? h.sourceWindow; omega
  obtain rfl : k = 0 := by have := lt_length_of_getElem? h.targetWindow; omega
  have hxs' : c.windowIds = [x] := by
    obtain ⟨z, hz⟩ := length_eq_one_iff.mp hxs
    have hw := h.sourceWindow
    rw [hz] at hw ⊢
    rw [some.inj hw]
  have hys' : bs = [y] := by
    obtain ⟨z, rfl⟩ := length_eq_one_iff.mp hys
    rw [some.inj h.targetWindow]
  have hwindows := map_moveColumnTo (f := Column.windowIds) windowIds_ignores_animation
    (windowIds_cancelResize c) hc hd hne
  have hactive := map_moveColumnTo (f := fun c => c.activeTileIdx) (fun _ _ => rfl) rfl hc hd hne
  have hactive' : (s.moveColumnTo b).activeTiles =
      (s.activeTiles.set s.activeColumnIdx 0).set b 0 := by
    rw [hi] at hactive
    refine hactive.trans ?_
    obtain ⟨-, rfl, -⟩ | ⟨-, hb⟩ := hspec
    · exact move_next h.sourceTile h.targetTile
    · have ha := h.sourceTile
      rw [← hb] at ha ⊢
      exact move_prev ha h.targetTile
  have hla := lt_length_of_getElem? h.sourceTile
  have hlb := lt_length_of_getElem? h.targetTile
  refine ⟨?_, ?_, ?_, ?_⟩
  · refine hwindows.trans ?_
    subst hys'
    rw [swapped, hxs', set_cons_zero, set_cons_zero]
    obtain ⟨-, rfl, -⟩ | ⟨-, hb⟩ := hspec
    · exact move_next (hxs' ▸ h.source) h.target
    · have ha := h.source
      rw [← hb] at ha ⊢
      exact move_prev (hxs' ▸ ha) h.target
  · rw [hactive', getElem?_set_ne hne.symm, getElem?_set_self hla]
  · rw [hactive', getElem?_set_self (by rwa [length_set])]
  · unfold moveColumnTo
    dsimp only
    rw [if_neg hne, hc, hd]
    exact activeColumnIdx_activateColumn ..

theorem exists_swapWithColumn {direction : ScrollDirection} {b : ℕ} {as bs : List ℕ}
    (hs : s.Inv) (h : SwapSource s direction b i k x y as bs) :
    ∃ s', s.swapWithColumn s.activeColumnIdx b direction = some s' ∧
      SwapResult s s' s.activeColumnIdx i b k as bs x y := by
  have hspec := neighbour_spec h.neighbour
  have hne : s.activeColumnIdx ≠ b := by omega
  have hla := lt_length_of_getElem? h.source
  have hlb := lt_length_of_getElem? h.target
  obtain ⟨c, hc, hwindows⟩ := column_of_arrangement h.source
  obtain ⟨c', hc', hi⟩ := column_of_activeTiles h.sourceTile
  obtain rfl := some.inj (hc.symm.trans hc')
  obtain ⟨e, he, hwindows'⟩ := column_of_arrangement h.target
  obtain ⟨e', he', hk⟩ := column_of_activeTiles h.targetTile
  obtain rfl := some.inj (he.symm.trans he')
  have hlen : c.tiles.length = as.length := by rw [← hwindows, Column.windowIds, length_map]
  have hlen' : e.tiles.length = bs.length := by rw [← hwindows', Column.windowIds, length_map]
  unfold swapWithColumn
  rw [hc, he]
  dsimp only [bind_eq_bind, bind_some]
  rw [hlen, hlen', hi, hk]
  by_cases hboth : as.length = 1 ∧ bs.length = 1
  · rw [if_pos hboth]
    exact ⟨_, rfl, swapResult_moveColumnTo hs h hboth.1 hboth.2⟩
  · rw [if_neg hboth]
    by_cases hone : as.length = 1
    · obtain ⟨z, rfl⟩ := length_eq_one_iff.mp hone
      obtain rfl : i = 0 := by have := lt_length_of_getElem? h.sourceWindow; omega
      obtain rfl := some.inj h.sourceWindow
      obtain ⟨r, s1, s2, q, s3, s4, h1, h2, h3, h4, harr⟩ := exists_swap_drained
        direction h.source h.target h.targetWindow
        (fun hd => (hspec.resolve_right (by simp [hd])).2.1)
        (fun hd => by have := (hspec.resolve_left (by simp [hd])).2; omega)
      refine ⟨_, ?_, swapResult_swapBack hla hlb hne harr⟩
      simp only [adjustedTarget, and_true] at h2 h3
      simp only [length_singleton, beq_self_eq_true, and_true, addSwapped, if_true, h1, h2, h3,
        h4, bind_some]
      rfl
    · obtain ⟨r, s1, s2, q, s3, s4, h1, h2, h3, h4, harr⟩ :=
        exists_swap_kept h.source h.target h.sourceWindow h.targetWindow hne hone
      refine ⟨_, ?_, swapResult_swapBack hla hlb hne harr⟩
      simp only [beq_eq_false_iff_ne.mpr hone, Bool.false_eq_true, and_false, addSwapped, if_false,
        h1, h2, h3, h4, bind_some]
      rfl

theorem neighbour_lt (hs : s.Inv) {direction : ScrollDirection} {b : ℕ}
    (h : s.neighbour direction = some b) : s.activeColumnIdx < s.columns.length ∧ b < s.columns.length := by
  rcases neighbour_spec h with ⟨-, hb, hlt⟩ | ⟨-, hb⟩
  · omega
  · have hne : s.columns ≠ [] := fun hnil => by have := hs.empty hnil; omega
    have := hs.active hne
    omega

theorem exists_activeWindow (hs : s.Inv) (h : j < s.columns.length) :
    ∃ ws i w, s.arrangement[j]? = some ws ∧ s.activeTiles[j]? = some i ∧ ws[i]? = some w := by
  have hwf := hs.columns s.columns[j] (getElem_mem h)
  have hlt : s.columns[j].activeTileIdx < s.columns[j].windowIds.length := by
    rw [Column.windowIds, length_map]
    exact hwf.active
  refine ⟨s.columns[j].windowIds, s.columns[j].activeTileIdx, _, ?_, ?_,
    getElem?_eq_getElem hlt⟩
  · exact arrangement_getElem? (getElem?_eq_getElem h)
  · simp [activeTiles, h]

/-- The active windows of the active column and of its neighbour. -/
theorem exists_swapSource (hs : s.Inv) {direction : ScrollDirection} {b : ℕ}
    (h : s.neighbour direction = some b) :
    ∃ i k x y as bs, SwapSource s direction b i k x y as bs := by
  obtain ⟨hla, hlb⟩ := neighbour_lt hs h
  obtain ⟨as, i, x, has, hi, hx⟩ := exists_activeWindow hs hla
  obtain ⟨bs, k, y, hbs, hk, hy⟩ := exists_activeWindow hs hlb
  exact ⟨i, k, x, y, as, bs, h, has, hbs, hi, hk, hx, hy⟩

/-- What a swap in a direction leaves: the active windows of the two columns are exchanged, nothing
else is moved, both stay the active ones of their columns, and the focus follows the window. -/
structure Transposes (s s' : ScrollingSpace) (b i k : ℕ) : Prop where
  source : s.activeTiles[s.activeColumnIdx]? = some i
  target : s.activeTiles[b]? = some k
  windows : ∀ p, s'.windowAt p = s.windowAt (Equiv.swap (s.activeColumnIdx, i) (b, k) p)
  counts : s'.counts = s.counts
  activeSource : s'.activeTiles[s.activeColumnIdx]? = some i
  activeTarget : s'.activeTiles[b]? = some k
  column : s'.activeColumnIdx = b
  focus : s'.activeId = s.activeId

theorem activeId_eq_windowAt (h : s.activeTiles[s.activeColumnIdx]? = some i) :
    s.activeId = s.windowAt (s.activeColumnIdx, i) := by
  obtain ⟨c, hc, rfl⟩ := column_of_activeTiles h
  rw [activeId_of_getElem? hc, windowAt_eq, arrangement_getElem? hc]
  rfl

theorem counts_eq (s : ScrollingSpace) : s.counts = s.arrangement.map List.length := by
  simp [ScrollingSpace.counts, arrangement, Column.windowIds]

theorem length_set_of_getElem? {l : List (List ℕ)} {ws zs : List ℕ} (h : l[i]? = some ws)
    (hlen : zs.length = ws.length) : (l.set i zs).map List.length = l.map List.length :=
  map_set_of_eq h hlen

theorem SwapResult.transposes {direction : ScrollDirection} {b : ℕ} {as bs : List ℕ}
    (h : SwapSource s direction b i k x y as bs)
    (hresult : SwapResult s s' s.activeColumnIdx i b k as bs x y) : Transposes s s' b i k := by
  have hne : s.activeColumnIdx ≠ b := by
    have := neighbour_spec h.neighbour
    omega
  have hwindows := windowAt_swapped h.source h.target h.sourceWindow h.targetWindow hne
    hresult.arrangement
  refine ⟨h.sourceTile, h.targetTile, hwindows, ?_, hresult.source, hresult.target, hresult.active,
    ?_⟩
  · have hget : (s.arrangement.set s.activeColumnIdx (as.set i y))[b]? = some bs := by
      rw [getElem?_set_ne hne, h.target]
    rw [counts_eq, counts_eq, hresult.arrangement, swapped,
      length_set_of_getElem? hget length_set, length_set_of_getElem? h.source length_set]
  · have htarget : s'.activeTiles[s'.activeColumnIdx]? = some k := by
      rw [hresult.active, hresult.target]
    rw [activeId_eq_windowAt htarget, hresult.active, hwindows, Equiv.swap_apply_right,
      activeId_eq_windowAt h.sourceTile]

theorem exists_swapWindowInDirection (hs : s.Inv) {direction : ScrollDirection} {b : ℕ}
    (h : s.neighbour direction = some b) :
    ∃ s' i k, s.swapWindowInDirection direction = some s' ∧ s'.Inv ∧ Transposes s s' b i k := by
  obtain ⟨i, k, x, y, as, bs, hsource⟩ := exists_swapSource hs h
  obtain ⟨s', hswap, hresult⟩ := exists_swapWithColumn hs hsource
  have hrun : s.swapWindowInDirection direction = some s' := by
    obtain ⟨hlt, -⟩ := neighbour_lt hs h
    have hne : s.columns.isEmpty = false := by
      cases hnil : s.columns with
      | nil => simp [hnil] at hlt
      | cons c cs => rfl
    unfold swapWindowInDirection
    rw [hne, if_neg Bool.false_ne_true]
    rcases neighbour_spec h with ⟨rfl, rfl, hlast⟩ | ⟨rfl, hb⟩
    · dsimp only
      rw [if_neg (by omega)]
      exact hswap
    · obtain rfl : b = s.activeColumnIdx - 1 := by omega
      dsimp only
      rw [if_neg (by omega)]
      exact hswap
  have htame : Tame false s s' := tame_swapWindowInDirection hs hrun
  exact ⟨s', i, k, hrun, htame.inv hs,
    hresult.transposes hsource⟩

/-- A swap exchanges the active windows of two neighbouring columns, and the opposite swap restores
them. -/
theorem swapWindowInDirection_transposes (hs : s.Inv) {direction : ScrollDirection} {b : ℕ}
    (h : s.neighbour direction = some b) :
    ∃ s' i k, s.swapWindowInDirection direction = some s' ∧ Transposes s s' b i k ∧
      ∃ s'', s'.swapWindowInDirection direction.opposite = some s'' ∧
        (∀ p, s''.windowAt p = s.windowAt p) ∧ s''.counts = s.counts ∧
        s''.activeColumnIdx = s.activeColumnIdx ∧ s''.activeId = s.activeId := by
  obtain ⟨s', i, k, hswap, hs', htrans⟩ := exists_swapWindowInDirection hs h
  have hlen : s'.columns.length = s.columns.length := by
    simpa [ScrollingSpace.counts] using congrArg List.length htrans.counts
  have hback : s'.neighbour direction.opposite = some s.activeColumnIdx := by
    obtain ⟨hlt, -⟩ := neighbour_lt hs h
    unfold neighbour ScrollDirection.opposite
    rcases neighbour_spec h with ⟨rfl, hb, -⟩ | ⟨rfl, hb⟩
    · dsimp only
      rw [htrans.column, hb, if_neg (Nat.succ_ne_zero _), Nat.add_sub_cancel]
    · dsimp only
      rw [htrans.column, hb, hlen, if_pos hlt]
  obtain ⟨s'', i', k', hswap', -, htrans'⟩ := exists_swapWindowInDirection hs' hback
  refine ⟨s', i, k, hswap, htrans, s'', hswap', fun p => ?_, htrans'.counts.trans htrans.counts,
    htrans'.column, htrans'.focus.trans htrans.focus⟩
  have hi : i' = k := by
    have := htrans'.source
    rw [htrans.column, htrans.activeTarget] at this
    exact (some.inj this).symm
  have hk : k' = i := by
    have := htrans'.target
    rw [htrans.activeSource] at this
    exact (some.inj this).symm
  rw [htrans'.windows, htrans.windows, htrans.column, hi, hk, Equiv.swap_comm, Equiv.swap_apply_self]

/-- The only window of a column is swapped with one of two, and back. -/
theorem swapWindowInDirection_transposes_drained : ∃ s s' i k, run step testSpace
    [openOp 1, openOp 2, .consumeOrExpelWindowLeft none, openOp 3] = some s ∧
    s.swapWindowInDirection .left = some s' ∧ Transposes s s' 0 i k := by
  have hrun : (run step testSpace [openOp 1, openOp 2, .consumeOrExpelWindowLeft none,
      openOp 3]).any (fun s => s.neighbour .left == some 0) = true := by decide +kernel
  obtain ⟨s, hs, hneighbour⟩ := (Option.any_eq_true _ _).mp hrun
  obtain ⟨s', i, k, hswap, htrans, -⟩ :=
    swapWindowInDirection_transposes (inv_run inv_new hs) (beq_iff_eq.mp hneighbour)
  exact ⟨s, s', i, k, hs, hswap, htrans⟩

end ScrollingSpace

end Macniri.Layout
