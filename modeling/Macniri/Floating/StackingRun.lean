import Macniri.Floating.Stacking
import Macniri.Scrolling.Step

/-! Runs of the operations that add, remove and raise floating windows. -/
namespace Macniri.Layout

open Option List

namespace FloatingSpace

open FloatingPair

variable {s t u : FloatingSpace} {ps xs pre : List FloatingPair} {p w : FloatingPair} {i id : ℕ}
variable {tile : Tile}

/-- From `s` to `t` the window `id` was raised with its family, or added and then raised. -/
def RaisedTo (s t : FloatingSpace) (id : ℕ) : Prop :=
  ∃ base pre w xs, Raisable base pre w xs ∧ w.id = id ∧ t = base.withPairs (raised pre w xs) ∧
    s.windowIds.filter (· ≠ id) = (pre ++ xs).map FloatingPair.id

theorem RaisedTo.inv (h : s.RaisedTo t id) (hacyclic : t.Acyclic) : t.StackInv := by
  obtain ⟨base, pre, w, xs, hraisable, -, rfl, -⟩ := h
  exact hraisable.inv hacyclic

theorem RaisedTo.raises (h : s.RaisedTo t id) : s.Raises t id := by
  obtain ⟨base, pre, w, xs, hraisable, rfl, rfl, hids⟩ := h
  exact hraisable.raises hids

theorem pairs_split (hs : s.data.length = s.tiles.length) (h : s.idxOf id = some i) :
    ∃ pre w xs, s.pairs = pre ++ w :: xs ∧ pre.length = i ∧ w.id = id := by
  obtain ⟨tile, htile, hid⟩ := idxOf_spec h
  obtain ⟨hi, rfl⟩ := List.getElem?_eq_some_iff.mp htile
  have hlt : i < s.pairs.length := by
    unfold pairs
    rw [length_zip, hs]
    omega
  have hpair : s.pairs[i].1 = s.tiles[i] := by simp [pairs]
  refine ⟨s.pairs.take i, s.pairs[i], s.pairs.drop (i + 1), ?_, ?_, ?_⟩
  · rw [cons_getElem_drop_succ, take_append_drop]
  · rw [length_take]
    omega
  · exact (congrArg Tile.id hpair).trans hid

theorem PairsInv.windowIds_eq (hs : s.PairsInv) : s.windowIds = s.pairs.map FloatingPair.id := by
  conv_lhs => rw [← withPairs_pairs hs.length]
  exact windowIds_withPairs s s.pairs

theorem PairsInv.ids_pairs (hs : s.PairsInv) : (s.pairs.map FloatingPair.id).Nodup :=
  hs.windowIds_eq ▸ hs.ids

theorem PairsInv.exists_active (hs : s.PairsInv) (h : s.pairs ≠ []) :
    ∃ id, s.activeWindowId = some id ∧ id ∈ s.pairs.map FloatingPair.id := by
  have hne : s.tiles ≠ [] := by
    intro htiles
    simp [pairs, htiles] at h
  obtain ⟨id, hid⟩ := isSome_iff_exists.mp (hs.some_active hne)
  exact ⟨id, hid, hs.windowIds_eq ▸ hs.active id hid⟩

theorem filter_ne_middle (h : ((pre ++ w :: xs).map FloatingPair.id).Nodup) :
    ((pre ++ w :: xs).map FloatingPair.id).filter (· ≠ w.id) = (pre ++ xs).map FloatingPair.id := by
  rw [map_append, map_cons] at h ⊢
  obtain ⟨-, hxs, hdisj⟩ := nodup_append'.mp h
  have hw := (nodup_cons.mp hxs).1
  rw [filter_append, filter_cons_of_neg (by simp), map_append,
    filter_eq_self.mpr, filter_eq_self.mpr]
  · exact fun x hx => decide_eq_true fun hxw => hw (hxw ▸ hx)
  · exact fun x hx => decide_eq_true fun hxw => hdisj hx (hxw ▸ mem_cons_self ..)

/-- The order is right apart from the window `id`, which no parent of it is above. -/
def StackedBut (s : FloatingSpace) (id : ℕ) : Prop :=
  ∀ pre w xs, s.pairs = pre ++ w :: xs → w.id = id →
    Stacked isChildOf (pre ++ xs) ∧ ∀ a ∈ pre, w.isChildOf a = false

theorem StackInv.but (hs : s.StackInv) (id : ℕ) : s.StackedBut id := by
  intro pre w xs hpairs _
  have hstacked := hs.stacked
  rw [hpairs] at hstacked
  exact ⟨hstacked.sublist ((sublist_cons_self w xs).append_left pre),
    fun a ha => (pairwise_append.mp hstacked).2.2 a ha w (mem_cons_self ..)⟩

/-! Raising. -/

theorem descendantsAdded_eq (hs : s.data.length = s.tiles.length) (hpairs : s.pairs = pre ++ w :: xs)
    (h : s.idxOf id = some pre.length) :
    s.descendantsAdded id = some (s.withPairs (raised pre w xs)) := by
  unfold FloatingSpace.descendantsAdded
  rw [h]
  conv_lhs => rw [← withPairs_pairs hs, hpairs]
  exact bringUpDescendantsOf_withPairs s pre w xs

/-- The window gets the focus and is raised to the top. -/
theorem activateWindow_eq (hs : s.data.length = s.tiles.length) (hpairs : s.pairs = pre ++ w :: xs)
    (h : s.idxOf id = some pre.length) :
    s.activateWindow id =
      some ({ s with activeWindowId := some id }.withPairs (raised [] w (pre ++ xs))) := by
  have hraise : s.raiseWindow pre.length 0 = some (s.withPairs ([] ++ w :: (pre ++ xs))) := by
    have hpast := raiseWindow_past s [] pre xs w
    rw [nil_append, ← hpairs, withPairs_pairs hs, length_nil, Nat.zero_add] at hpast
    exact hpast
  unfold FloatingSpace.activateWindow
  rw [h]
  show ((s.raiseWindow pre.length 0).bind fun s => _) = _
  rw [hraise]
  exact bringUpDescendantsOf_withPairs { s with activeWindowId := some id } [] w (pre ++ xs)

theorem PairsInv.descendantsAdded (hs : s.PairsInv) (hbut : s.StackedBut id)
    (h : s.idxOf id = some i) : ∃ t, s.descendantsAdded id = some t ∧ s.RaisedTo t id := by
  obtain ⟨pre, w, xs, hpairs, rfl, rfl⟩ := pairs_split hs.length h
  obtain ⟨hstacked, habove⟩ := hbut pre w xs hpairs rfl
  refine ⟨s.withPairs (raised pre w xs), ?_, s, pre, w, xs, ⟨?_, ?_, hstacked, habove, ?_⟩, rfl, rfl,
    ?_⟩
  · exact descendantsAdded_eq hs.length hpairs h
  · exact hpairs ▸ hs.upToDate
  · exact hpairs ▸ hs.ids_pairs
  · exact hpairs ▸ hs.exists_active (by simp [hpairs])
  · rw [hs.windowIds_eq, hpairs]
    exact filter_ne_middle (hpairs ▸ hs.ids_pairs)

theorem StackInv.activateWindow (hs : s.StackInv) (h : s.idxOf id = some i) :
    ∃ t, s.activateWindow id = some t ∧ s.RaisedTo t id := by
  obtain ⟨pre, w, xs, hpairs, rfl, rfl⟩ := pairs_split hs.length h
  have hids := hpairs ▸ hs.ids_pairs
  have hperm : (w :: (pre ++ xs)).Perm (pre ++ w :: xs) := perm_middle.symm
  let base := { s with activeWindowId := some w.id }
  refine ⟨base.withPairs (raised [] w (pre ++ xs)), ?_, base, [], w, pre ++ xs,
    ⟨fun p hp => ?_, ?_, (hs.but w.id pre w xs hpairs rfl).1, by simp, w.id, rfl, by simp⟩, rfl, rfl, ?_⟩
  · exact activateWindow_eq hs.length hpairs h
  · exact hs.upToDate p (hpairs ▸ hperm.mem_iff.mp hp)
  · exact (hperm.map FloatingPair.id).nodup_iff.mpr hids
  · rw [hs.windowIds_eq, hpairs]
    exact filter_ne_middle hids

/-! Adding. -/

theorem upToDate_new (area : Rectangle) (tile : Tile) (pos : Point) :
    ((FloatingData.new area tile pos).update tile).updateConfig area =
      FloatingData.new area tile pos := by
  have hsize : (FloatingData.new area tile pos).size = tile.tileSize := by
    unfold FloatingData.new FloatingData.update
    split
    · rename_i hsize
      exact hsize
    · rfl
  have harea : (FloatingData.new area tile pos).workingArea = area := by
    unfold FloatingData.new FloatingData.update
    split <;> rfl
  unfold FloatingData.update FloatingData.updateConfig
  rw [if_pos hsize, if_pos harea]

/-- A new tile as it is put on the space, with its data. -/
def placed (s : FloatingSpace) (tile : Tile) : FloatingPair :=
  let tile := tile.updateConfig s.viewSize s.scale s.options
  let tile := { tile with window := requestFloatingSize tile.floatingWindowSize tile.window }
  let pos := (s.storedOrDefaultTilePos tile).getD
    (centerPreferringTopLeftInArea s.workingArea tile.tileSize)
  (tile, FloatingData.new s.workingArea tile pos)

/-- The index it is put at: `i`, or right above its parent. -/
def placeIdx (s : FloatingSpace) (i : ℕ) (tile : Tile) : ℕ :=
  ((s.tiles.take i).findIdx? fun above => (s.placed tile).1.window.isChildOf above.window).getD i

/-- The space whose active window is the new one, if it takes the focus. -/
def focusing (s : FloatingSpace) (tile : Tile) (activate : Bool) : FloatingSpace :=
  { s with activeWindowId := if activate || s.tiles.isEmpty then some tile.id else s.activeWindowId }

theorem pairs_map_fst (hs : s.data.length = s.tiles.length) : s.pairs.map Prod.fst = s.tiles :=
  map_fst_zip hs.ge

theorem pairs_map_snd (hs : s.data.length = s.tiles.length) : s.pairs.map Prod.snd = s.data :=
  map_snd_zip hs.le

theorem placeIdx_le (hs : s.data.length = s.tiles.length) (hi : i ≤ s.tiles.length) (tile : Tile) :
    s.placeIdx i tile ≤ s.pairs.length := by
  have hlen : s.pairs.length = s.tiles.length := by
    rw [← pairs_map_fst hs, length_map]
  rw [hlen]
  unfold placeIdx
  cases hfind : (s.tiles.take i).findIdx? fun above =>
      (s.placed tile).1.window.isChildOf above.window with
  | none => exact hi
  | some j =>
    have hj := (findIdx?_eq_some_iff_getElem.mp hfind).1
    rw [length_take] at hj
    rw [getD_some]
    omega

theorem addTileAt_eq (hs : s.data.length = s.tiles.length) (hi : i ≤ s.tiles.length) (tile : Tile)
    (activate : Bool) : s.addTileAt i tile activate =
      some ((s.focusing tile activate).withPairs (raised (s.pairs.take (s.placeIdx i tile))
        (s.placed tile) (s.pairs.drop (s.placeIdx i tile)))) := by
  have hk := placeIdx_le hs hi tile
  have hraised := bringUpDescendantsOf_withPairs (s.focusing tile activate)
    (s.pairs.take (s.placeIdx i tile)) (s.placed tile) (s.pairs.drop (s.placeIdx i tile))
  rw [length_take_of_le hk, ← insertIdx_eq_take_drop hk] at hraised
  unfold withPairs at hraised
  rw [map_insertIdx, map_insertIdx, pairs_map_fst hs, pairs_map_snd hs] at hraised
  exact hraised

theorem exists_addTileAt (hs : s.data.length = s.tiles.length) (hi : i ≤ s.tiles.length) (tile : Tile)
    (activate : Bool) : ∃ t, s.addTileAt i tile activate = some t :=
  ⟨_, addTileAt_eq hs hi tile activate⟩

theorem focusing_active (hs : s.PairsInv) (tile : Tile) (activate : Bool) :
    ∃ id, (s.focusing tile activate).activeWindowId = some id ∧ id ∈ tile.id :: s.windowIds := by
  unfold focusing
  by_cases hfocus : (activate || s.tiles.isEmpty) = true
  · exact ⟨tile.id, if_pos hfocus, mem_cons_self ..⟩
  · have hne : s.tiles ≠ [] := by
      rintro htiles
      simp [htiles] at hfocus
    obtain ⟨id, hid⟩ := isSome_iff_exists.mp (hs.some_active hne)
    exact ⟨id, (if_neg hfocus).trans hid, mem_cons_of_mem _ (hs.active id hid)⟩

theorem StackInv.addTileAt (hs : s.StackInv) (hi : i ≤ s.tiles.length)
    (hfresh : tile.id ∉ s.windowIds) (activate : Bool) :
    ∃ t, s.addTileAt i tile activate = some t ∧ s.RaisedTo t tile.id := by
  have heq := addTileAt_eq hs.length hi tile activate
  generalize hpre : s.pairs.take (s.placeIdx i tile) = pre at heq
  generalize hxs : s.pairs.drop (s.placeIdx i tile) = xs at heq
  have hsplit : s.pairs = pre ++ xs := by
    rw [← hpre, ← hxs, take_append_drop]
  have hids : ((pre ++ s.placed tile :: xs).map FloatingPair.id).Perm (tile.id :: s.windowIds) := by
    rw [hs.windowIds_eq, hsplit]
    exact (perm_middle (a := s.placed tile)).map FloatingPair.id
  refine ⟨_, heq, s.focusing tile activate, pre, s.placed tile, xs,
    ⟨fun p hp => ?_, ?_, ?_, fun a ha => ?_, ?_⟩, rfl, rfl, ?_⟩
  · rw [perm_middle.mem_iff, mem_cons, ← hsplit] at hp
    rcases hp with rfl | hp
    · exact upToDate_new ..
    · exact hs.upToDate p hp
  · exact hids.nodup_iff.mpr (nodup_cons.mpr ⟨hfresh, hs.ids⟩)
  · exact hsplit ▸ hs.stacked
  · have hmem : a.1 ∈ s.tiles.take (s.placeIdx i tile) := by
      rw [← pairs_map_fst hs.length, ← map_take, hpre]
      exact List.mem_map_of_mem ha
    exact not_of_mem_take_findIdx?
      (fun above : Tile => (s.placed tile).1.window.isChildOf above.window) hmem
  · obtain ⟨id, hid, hmem⟩ := focusing_active hs.toPairsInv tile activate
    exact ⟨id, hid, hids.mem_iff.mpr hmem⟩
  · rw [hs.windowIds_eq, hsplit, filter_eq_self.mpr]
    rw [← hsplit, ← hs.windowIds_eq]
    exact fun x hx => decide_eq_true fun hxt => hfresh (hxt ▸ hx)

theorem idxOf_isSome (h : id ∈ s.windowIds) : ∃ i, s.idxOf id = some i := by
  obtain ⟨tile, htile, hid⟩ := List.mem_map.mp h
  have hsome : (s.tiles.findIdx? (·.id == id)).isSome := by
    rw [findIdx?_isSome]
    exact List.any_eq_true.mpr ⟨tile, htile, beq_iff_eq.mpr hid⟩
  exact isSome_iff_exists.mp hsome

theorem idxOf_eq_none (h : id ∉ s.windowIds) : s.idxOf id = none := by
  refine findIdx?_eq_none_iff.mpr fun tile htile => beq_eq_false_iff_ne.mpr fun hid => h ?_
  exact hid ▸ List.mem_map_of_mem htile

theorem lt_length_of_idxOf (h : s.idxOf id = some i) : i < s.tiles.length := by
  obtain ⟨tile, htile, -⟩ := idxOf_spec h
  exact lt_length_of_getElem? htile

theorem exists_data (hs : s.data.length = s.tiles.length) (h : s.idxOf id = some i) :
    ∃ d, s.data[i]? = some d := by
  have hlt := lt_length_of_idxOf h
  rw [← hs] at hlt
  exact ⟨s.data[i], getElem?_eq_getElem hlt⟩

theorem exists_addTileAbove (hs : s.data.length = s.tiles.length) {above : ℕ}
    (habove : above ∈ s.windowIds) (tile : Tile) (activate : Bool) :
    ∃ t, s.addTileAbove above tile activate = some t := by
  obtain ⟨i, hi⟩ := idxOf_isSome habove
  obtain ⟨d, hd⟩ := exists_data hs hi
  unfold FloatingSpace.addTileAbove
  rw [hi, some_bind, hd, some_bind]
  exact exists_addTileAt hs (lt_length_of_idxOf hi).le _ activate

theorem StackInv.addTileAbove (hs : s.StackInv) {above : ℕ} (habove : above ∈ s.windowIds)
    (hfresh : tile.id ∉ s.windowIds) (activate : Bool) :
    ∃ t, s.addTileAbove above tile activate = some t ∧ s.RaisedTo t tile.id := by
  obtain ⟨i, hi⟩ := idxOf_isSome habove
  obtain ⟨d, hd⟩ := exists_data hs.length hi
  unfold FloatingSpace.addTileAbove
  rw [hi, some_bind, hd, some_bind]
  refine hs.addTileAt ?_ ?_ activate
  · exact (lt_length_of_idxOf hi).le
  · exact hfresh

theorem exists_activateWindow (hs : s.data.length = s.tiles.length) (id : ℕ) :
    ∃ t, s.activateWindow id = some t := by
  cases hi : s.idxOf id with
  | none =>
    unfold FloatingSpace.activateWindow
    rw [hi]
    exact ⟨s, rfl⟩
  | some i =>
    obtain ⟨pre, w, xs, hpairs, rfl, -⟩ := pairs_split hs hi
    exact ⟨_, activateWindow_eq hs hpairs hi⟩

/-! Removing. -/

theorem exists_removeTile (hs : s.data.length = s.tiles.length) (h : id ∈ s.windowIds) :
    ∃ r t, s.removeTile id = some (r, t) := by
  obtain ⟨i, hi⟩ := idxOf_isSome h
  obtain ⟨tile, htile, -⟩ := idxOf_spec hi
  obtain ⟨d, hd⟩ := exists_data hs hi
  unfold FloatingSpace.removeTile removeTileByIdx
  rw [hi, some_bind, htile, some_bind, hd]
  exact ⟨_, _, rfl⟩

theorem pairs_eraseIdx (hs : s.data.length = s.tiles.length) (htiles : t.tiles = s.tiles.eraseIdx i)
    (hdata : t.data = s.data.eraseIdx i) : t.pairs = s.pairs.eraseIdx i := by
  have hsplit := pairs_withPairs s (s.pairs.eraseIdx i)
  unfold withPairs at hsplit
  rw [← eraseIdx_map, ← eraseIdx_map, pairs_map_fst hs, pairs_map_snd hs, ← htiles,
    ← hdata] at hsplit
  exact hsplit

theorem StackInv.removeTile (hs : s.StackInv) {r : RemovedTile} (h : s.removeTile id = some (r, t)) :
    t.StackInv := by
  obtain ⟨rfl, hperm⟩ := removeTile_perm h
  obtain ⟨i, hi, h⟩ := of_bind h
  have hactive := active_removeTileByIdx h
  obtain ⟨tile, htile, h⟩ := of_bind h
  obtain ⟨d, hd, h⟩ := of_bind h
  obtain ⟨-, ht⟩ := pair_inj h
  have hpairs : t.pairs = s.pairs.eraseIdx i :=
    pairs_eraseIdx hs.length (congrArg tiles ht).symm (congrArg data ht).symm
  have hsub : t.pairs.Sublist s.pairs := hpairs ▸ eraseIdx_sublist s.pairs i
  refine ⟨⟨?_, fun p hp => ?_, ?_, fun id' hid' => ?_, fun hne => ?_⟩, hs.stacked.sublist hsub⟩
  · rw [← ht]
    simp only [length_eraseIdx, hs.length]
  · rw [← ht]
    exact hs.upToDate p (hsub.subset hp)
  · exact (nodup_cons.mp (hperm.nodup_iff.mp hs.ids)).2
  · rw [hactive, ite_none_left_eq_some] at hid'
    obtain ⟨-, hid'⟩ := hid'
    split at hid'
    · obtain ⟨tile, htile, rfl⟩ := of_map hid'
      exact List.mem_map_of_mem (mem_of_head? htile)
    · rename_i hother
      rcases mem_cons.mp (hperm.mem_iff.mp (hs.active id' hid')) with rfl | hmem
      · exact absurd hid'.symm hother
      · exact hmem
  · rw [hactive, if_neg (by simpa using hne)]
    split
    · simpa [isSome_head?] using hne
    · refine hs.some_active fun hnil => ?_
      rw [windowIds, hnil] at hperm
      simp at hperm

/-! New parents. -/

/-- A window gets another parent, or none. -/
def setParent (s : FloatingSpace) (id : ℕ) (parent : Option ℕ) : FloatingSpace :=
  { s with tiles := s.tiles.map fun tile =>
      if tile.id = id then { tile with window := { tile.window with parent := parent } } else tile }

/-- A tile with its data, after the parent of the window `id` changed. -/
def newParent (id : ℕ) (parent : Option ℕ) (p : FloatingPair) : FloatingPair :=
  (if p.id = id then { p.1 with window := { p.1.window with parent := parent } } else p.1, p.2)

variable {parent : Option ℕ}

@[simp] theorem id_newParent (p : FloatingPair) : (newParent id parent p).id = p.id := by
  unfold newParent FloatingPair.id
  split <;> rfl

theorem parent_newParent (p : FloatingPair) :
    (newParent id parent p).1.window.parent = if p.id = id then parent else p.1.window.parent := by
  unfold newParent
  split <;> rfl

theorem pairs_setParent (s : FloatingSpace) (id : ℕ) (parent : Option ℕ) :
    (s.setParent id parent).pairs = s.pairs.map (newParent id parent) := by
  unfold pairs setParent
  rw [zip_map_left]
  rfl

theorem windowIds_setParent (s : FloatingSpace) (id : ℕ) (parent : Option ℕ) :
    (s.setParent id parent).windowIds = s.windowIds := by
  unfold windowIds setParent
  rw [List.map_map]
  refine map_congr_left fun tile _ => ?_
  rw [Function.comp_apply]
  split <;> rfl

theorem PairsInv.setParent (hs : s.PairsInv) (id : ℕ) (parent : Option ℕ) :
    (s.setParent id parent).PairsInv := by
  refine ⟨by simp [FloatingSpace.setParent, hs.length], fun p hp => ?_, ?_, fun x hx => ?_,
    fun hne => ?_⟩
  · rw [pairs_setParent] at hp
    obtain ⟨q, hq, rfl⟩ := List.mem_map.mp hp
    have hsize : (newParent id parent q).1.tileSize = q.1.tileSize := by
      unfold newParent
      split <;> rfl
    have hupdate : q.2.update (newParent id parent q).1 = q.2.update q.1 := by
      unfold FloatingData.update
      rw [hsize]
    exact (congrArg (·.updateConfig s.workingArea) hupdate).trans (hs.upToDate q hq)
  · rw [windowIds_setParent]
    exact hs.ids
  · rw [windowIds_setParent]
    exact hs.active x hx
  · exact hs.some_active fun hnil => hne (by simp [FloatingSpace.setParent, hnil])

/-- A window is only a new child of its new parent. -/
theorem isChildOf_newParent {a b : FloatingPair} (h : b.isChildOf a = false)
    (ha : ∀ x, parent = some x → a.id ≠ x) :
    (newParent id parent b).isChildOf (newParent id parent a) = false := by
  refine Bool.eq_false_iff.mpr fun hchild => ?_
  rw [isChildOf_iff, parent_newParent, id_newParent] at hchild
  split at hchild
  · exact ha a.id hchild rfl
  · rw [isChildOf_iff.mpr hchild] at h
    cases h

theorem stacked_newParent (h : Stacked isChildOf ps)
    (hps : ∀ a ∈ ps, ∀ x, parent = some x → a.id ≠ x) :
    Stacked isChildOf (ps.map (newParent id parent)) := by
  refine pairwise_map.mpr (h.imp_of_mem fun {a b} ha _ hab => ?_)
  exact isChildOf_newParent hab (hps a ha)

/-- Without its new parent among the floating windows, nothing has to be raised. -/
theorem StackInv.setParent (hs : s.StackInv) (hparent : ∀ x, parent = some x → x ∉ s.windowIds) :
    (s.setParent id parent).StackInv := by
  refine ⟨hs.toPairsInv.setParent id parent, ?_⟩
  rw [pairs_setParent]
  refine stacked_newParent hs.stacked fun a ha x hx hax => hparent x hx ?_
  rw [hs.windowIds_eq, ← hax]
  exact List.mem_map_of_mem ha

theorem StackInv.but_setParent (hs : s.StackInv) (id x : ℕ) :
    (s.setParent id (some x)).StackedBut x := by
  intro pre w xs hpairs hw
  rw [pairs_setParent] at hpairs
  obtain ⟨pre, rest, hsplit, rfl, hrest⟩ := map_eq_append_iff.mp hpairs
  obtain ⟨w, xs, rfl, rfl, rfl⟩ := map_eq_cons_iff.mp hrest
  rw [id_newParent] at hw
  subst hw
  have hids := hs.ids_pairs
  rw [hsplit, map_append, map_cons, (perm_middle (a := w.id)).nodup_iff,
    nodup_cons, ← map_append] at hids
  have hne : ∀ a ∈ pre ++ xs, ∀ x, some w.id = some x → a.id ≠ x := by
    rintro a ha _ ⟨rfl⟩ haw
    exact hids.1 (haw ▸ List.mem_map_of_mem ha)
  obtain ⟨hstacked, habove⟩ := hs.but w.id pre w xs hsplit rfl
  refine ⟨?_, fun b hb => ?_⟩
  · rw [← map_append]
    exact stacked_newParent hstacked hne
  · obtain ⟨a, ha, rfl⟩ := List.mem_map.mp hb
    exact isChildOf_newParent (habove a ha) (hne a (mem_append_left xs ha))

/-! Steps and runs. -/

theorem StackInv.activateWindowWithoutRaising (hs : s.StackInv) (id : ℕ) :
    (s.activateWindowWithoutRaising id).StackInv := by
  unfold FloatingSpace.activateWindowWithoutRaising
  split
  · rename_i hmem
    obtain ⟨tile, htile, hid⟩ := List.any_eq_true.mp hmem
    refine ⟨⟨hs.length, hs.upToDate, hs.ids, ?_, fun _ => rfl⟩, hs.stacked⟩
    rintro _ ⟨rfl⟩
    exact beq_iff_eq.mp hid ▸ List.mem_map_of_mem htile
  · exact hs

end FloatingSpace

/-- The operations that change which windows float, and how they are stacked. Whenever a floating
window gets a parent, its descendants are announced. -/
inductive StackOp where
  | addTile (tile : Tile) (activate : Bool)
  | addTileAbove (above : ℕ) (tile : Tile) (activate : Bool)
  | removeTile (id : ℕ)
  | removeActiveTile
  | activateWindow (id : ℕ)
  | activateWindowWithoutRaising (id : ℕ)
  | descendantsAdded (id : ℕ)
  | setParent (id : ℕ) (parent : Option ℕ)

/-- The window that an operation raises with its family. -/
def StackOp.raises : StackOp → Option ℕ
  | addTile tile _ | addTileAbove _ tile _ => some tile.id
  | activateWindow id | descendantsAdded id => some id
  | setParent _ parent => parent
  | removeTile _ | removeActiveTile | activateWindowWithoutRaising _ => none

namespace FloatingSpace

variable {op : StackOp} {ops : List StackOp} {s t u : FloatingSpace} {id : ℕ}

/-- A window is in one place only, so a new one is not here yet. -/
def stackStep (s : FloatingSpace) : StackOp → Option FloatingSpace
  | .addTile tile activate => if tile.id ∈ s.windowIds then none else s.addTile tile activate
  | .addTileAbove above tile activate =>
    if tile.id ∈ s.windowIds then none else s.addTileAbove above tile activate
  | .removeTile id => (s.removeTile id).map Prod.snd
  | .removeActiveTile => s.removeActiveTile.map fun removed => (removed.map Prod.snd).getD s
  | .activateWindow id => s.activateWindow id
  | .activateWindowWithoutRaising id => some (s.activateWindowWithoutRaising id)
  | .descendantsAdded id => s.descendantsAdded id
  | .setParent id parent =>
    match parent with
    | none => some (s.setParent id none)
    | some parent => (s.setParent id (some parent)).descendantsAdded parent

/-- What the callers promise about the windows they name. -/
def StackAllowed (s : FloatingSpace) : StackOp → Prop
  | .addTile tile _ => tile.id ∉ s.windowIds
  | .addTileAbove above tile _ => tile.id ∉ s.windowIds ∧ above ∈ s.windowIds
  | .removeTile id => id ∈ s.windowIds
  | _ => True

/-- What a step does: it raises a window, or leaves the others as they are. -/
def StackOutcome (s : FloatingSpace) (op : StackOp) (t : FloatingSpace) : Prop :=
  (∃ id, op.raises = some id ∧ s.RaisedTo t id) ∨
    t.StackInv ∧ ∀ id, op.raises = some id → id ∉ t.windowIds ∧ t.windowIds = s.windowIds

theorem exists_outcome (hs : s.StackInv) (h : s.StackAllowed op) :
    ∃ t, s.stackStep op = some t ∧ s.StackOutcome op t := by
  cases op with
  | addTile tile activate =>
    obtain ⟨t, ht, hraised⟩ := hs.addTileAt (Nat.zero_le _) h activate
    exact ⟨t, (if_neg h).trans ht, .inl ⟨_, rfl, hraised⟩⟩
  | addTileAbove above tile activate =>
    obtain ⟨t, ht, hraised⟩ := hs.addTileAbove h.2 h.1 activate
    exact ⟨t, (if_neg h.1).trans ht, .inl ⟨_, rfl, hraised⟩⟩
  | removeTile id =>
    obtain ⟨r, t, ht⟩ := exists_removeTile hs.length h
    exact ⟨t, by simp [stackStep, ht], .inr ⟨hs.removeTile ht, nofun⟩⟩
  | removeActiveTile =>
    cases hactive : s.activeWindowId with
    | none => exact ⟨s, by simp [stackStep, removeActiveTile, hactive], .inr ⟨hs, nofun⟩⟩
    | some id =>
      obtain ⟨r, t, ht⟩ := exists_removeTile hs.length (hs.active id hactive)
      exact ⟨t, by simp [stackStep, removeActiveTile, hactive, ht], .inr ⟨hs.removeTile ht, nofun⟩⟩
  | activateWindow id =>
    by_cases hmem : id ∈ s.windowIds
    · obtain ⟨i, hi⟩ := idxOf_isSome hmem
      obtain ⟨t, ht, hraised⟩ := hs.activateWindow hi
      exact ⟨t, ht, .inl ⟨id, rfl, hraised⟩⟩
    · refine ⟨s, ?_, .inr ⟨hs, fun x hx => ?_⟩⟩
      · simp [stackStep, FloatingSpace.activateWindow, idxOf_eq_none hmem]
      · exact ⟨some.inj hx ▸ hmem, rfl⟩
  | activateWindowWithoutRaising id =>
    exact ⟨_, rfl, .inr ⟨hs.activateWindowWithoutRaising id, nofun⟩⟩
  | descendantsAdded id =>
    by_cases hmem : id ∈ s.windowIds
    · obtain ⟨i, hi⟩ := idxOf_isSome hmem
      obtain ⟨t, ht, hraised⟩ := hs.toPairsInv.descendantsAdded (hs.but id) hi
      exact ⟨t, ht, .inl ⟨id, rfl, hraised⟩⟩
    · refine ⟨s, ?_, .inr ⟨hs, fun x hx => ?_⟩⟩
      · simp [stackStep, FloatingSpace.descendantsAdded, idxOf_eq_none hmem]
      · exact ⟨some.inj hx ▸ hmem, rfl⟩
  | setParent id parent =>
    cases parent with
    | none => exact ⟨_, rfl, .inr ⟨hs.setParent nofun, nofun⟩⟩
    | some parent =>
      have hids := windowIds_setParent s id (some parent)
      by_cases hmem : parent ∈ s.windowIds
      · obtain ⟨i, hi⟩ := idxOf_isSome (hids ▸ hmem)
        obtain ⟨t, ht, base, pre, w, xs, hraisable, hw, hto, hfilter⟩ :=
          (hs.toPairsInv.setParent id _).descendantsAdded (hs.but_setParent id parent) hi
        exact ⟨t, ht, .inl ⟨parent, rfl, base, pre, w, xs, hraisable, hw, hto, hids ▸ hfilter⟩⟩
      · have hinv : (s.setParent id (some parent)).StackInv :=
          hs.setParent fun x hx => some.inj hx ▸ hmem
        refine ⟨s.setParent id (some parent), ?_, .inr ⟨hinv, fun x hx => ⟨?_, hids⟩⟩⟩
        · have hnone := idxOf_eq_none (hids ▸ hmem)
          simp [stackStep, FloatingSpace.descendantsAdded, hnone]
        · exact hids ▸ some.inj hx ▸ hmem

theorem mem_of_idxOf (h : s.idxOf id = some i) : id ∈ s.windowIds := by
  obtain ⟨tile, htile, rfl⟩ := idxOf_spec h
  exact List.mem_map_of_mem (mem_of_getElem? htile)

theorem mem_of_removeTile (h : (s.removeTile id).map Prod.snd = some t) : id ∈ s.windowIds := by
  obtain ⟨r, hr, -⟩ := of_map h
  obtain ⟨i, hi, -⟩ := of_bind hr
  exact mem_of_idxOf hi

/-- A step that names the wrong windows fails. -/
theorem allowed_of_stackStep (h : s.stackStep op = some t) : s.StackAllowed op := by
  cases op with
  | addTile tile activate => exact (ite_none_left_eq_some.mp h).1
  | addTileAbove above tile activate =>
    obtain ⟨hfresh, h⟩ := ite_none_left_eq_some.mp h
    obtain ⟨i, hi, -⟩ := of_bind h
    exact ⟨hfresh, mem_of_idxOf hi⟩
  | removeTile id => exact mem_of_removeTile h
  | _ => trivial

theorem stackOutcome (hs : s.StackInv) (h : s.stackStep op = some t) : s.StackOutcome op t := by
  obtain ⟨u, hu, houtcome⟩ := exists_outcome hs (allowed_of_stackStep h)
  obtain rfl := some.inj (h.symm.trans hu)
  exact houtcome

theorem stackInv_step (hs : s.StackInv) (h : s.stackStep op = some t) (ht : t.Acyclic) :
    t.StackInv := by
  rcases stackOutcome hs h with ⟨id, -, hraised⟩ | ⟨hinv, -⟩
  · exact hraised.inv ht
  · exact hinv

variable {viewSize : Size} {workingArea : Rectangle} {scale : ℚ} {options : Options}

theorem stackInv_new : (new viewSize workingArea scale options).StackInv := by
  refine ⟨⟨rfl, ?_, .nil, ?_, ?_⟩, .nil⟩
  · simp [pairs, new]
  · simp [new]
  · simp [new]

theorem stackInv_through (hs : s.StackInv) (h : Through stackStep Acyclic s ops t) : t.StackInv := by
  induction ops generalizing s with
  | nil => exact h ▸ hs
  | cons op ops ih =>
    obtain ⟨u, hu, hacyclic, hrest⟩ := h
    exact ih (stackInv_step hs hu hacyclic) hrest

/-- A run that never makes a window its own descendant keeps children above their parents. Each raise
keeps the order of what is not raised and of the raised descendants. -/
theorem stacking_order
    (h : Through stackStep Acyclic (new viewSize workingArea scale options) ops t) :
    (t.tiles.Pairwise fun above below => below.window.isChildOf above.window = false) ∧
      (t.activeWindowId.isSome ↔ t.tiles ≠ []) ∧
      (∀ id, t.activeWindowId = some id → id ∈ t.windowIds) ∧
      t.data.length = t.tiles.length ∧
      (∀ p ∈ t.tiles.zip t.data, (p.2.update p.1).updateConfig t.workingArea = p.2) ∧
      (∀ op, t.StackAllowed op → (t.stackStep op).isSome) ∧
      ∀ op u id, t.stackStep op = some u → op.raises = some id →
        if id ∈ u.windowIds then t.Raises u id else u.windowIds = t.windowIds := by
  have hinv := stackInv_through stackInv_new h
  refine ⟨?_, ⟨fun hsome hnil => ?_, hinv.some_active⟩, hinv.active, hinv.length, hinv.upToDate,
    fun op hop => ?_, fun op u id hu hid => ?_⟩
  · rw [← pairs_map_fst hinv.length]
    exact pairwise_map.mpr hinv.stacked
  · obtain ⟨id, hid⟩ := isSome_iff_exists.mp hsome
    have hmem := hinv.active id hid
    simp [windowIds, hnil] at hmem
  · obtain ⟨u, hu, -⟩ := exists_outcome hinv hop
    exact isSome_iff_exists.mpr ⟨u, hu⟩
  · rcases stackOutcome hinv hu with ⟨x, hx, hraised⟩ | ⟨-, hleft⟩
    · obtain rfl := some.inj (hid.symm.trans hx)
      obtain ⟨above, descendants, below, hids, hrest⟩ := hraised.raises
      rw [if_pos (by simp [hids])]
      exact ⟨above, descendants, below, hids, hrest⟩
    · obtain ⟨hgone, hsame⟩ := hleft id hid
      rw [if_neg hgone]
      exact hsame

/-- Windows are newer than their parents. -/
def parentsOlder (s : FloatingSpace) : Bool :=
  s.tiles.all fun tile => tile.window.parent.all (· < tile.id)

theorem acyclic_of_parentsOlder (h : s.parentsOlder = true) : s.Acyclic := by
  have hlt : ∀ x y, s.Descends x y → y < x := by
    intro x y hdesc
    refine Relation.TransGen.trans_induction_on hdesc (fun {x y} hparent => ?_)
      fun _ _ hxy hyz => hyz.trans hxy
    obtain ⟨tile, htile, rfl, hy⟩ := hparent
    have holder := List.all_eq_true.mp h tile htile
    rw [hy] at holder
    simpa using holder
  exact fun x hx => lt_irrefl x (hlt x x hx)

/-- A window and a dialog for it. -/
def dialogOps : List StackOp :=
  let dialog : Tile := { ScrollingSpace.testTile 2 with
    window := { ScrollingSpace.testWindow 2 with parent := some 1 } }
  [.addTile (ScrollingSpace.testTile 1) true, .addTile dialog false, .activateWindow 1]

theorem stacking_order_dialog :
    ∃ t, Through stackStep Acyclic (new ⟨1280, 720⟩ ⟨⟨0, 0⟩, ⟨1280, 720⟩⟩ 1 .default) dialogOps t ∧
      t.windowIds = [2, 1] ∧
      t.tiles.Pairwise fun above below => below.window.isChildOf above.window = false := by
  let s := new ⟨1280, 720⟩ ⟨⟨0, 0⟩, ⟨1280, 720⟩⟩ 1 .default
  have hrun : (run stackStep s dialogOps).any (·.windowIds == [2, 1]) = true := by decide +kernel
  have holder : along stackStep (fun s op => (s.stackStep op).all parentsOlder) s dialogOps = true := by
    decide +kernel
  obtain ⟨t, ht, hids⟩ := (Option.any_eq_true ..).mp hrun
  have hthrough := through_of_along (fun _ => acyclic_of_parentsOlder) ht holder
  exact ⟨t, hthrough, beq_iff_eq.mp hids, (stacking_order hthrough).1⟩

end FloatingSpace

end Macniri.Layout
