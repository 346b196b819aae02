import Macniri.Floating.Focus
import Macniri.Lib.Run
import Macniri.Lib.Stacking

/-! The stacking order of a floating space: children stay above their parents over whole runs. -/
namespace Macniri.Layout

open Option List

/-- A tile with its data; the space keeps them in two lists side by side. -/
abbrev FloatingPair := Tile × FloatingData

namespace FloatingPair

def id (p : FloatingPair) : ℕ := p.1.id

def isChildOf (p q : FloatingPair) : Bool := p.1.window.isChildOf q.1.window

theorem isChildOf_iff {p q : FloatingPair} : p.isChildOf q = true ↔ p.1.window.parent = some q.id :=
  beq_iff_eq

end FloatingPair

namespace FloatingSpace

open FloatingPair

/-- The space with the given tiles and data. -/
def withPairs (s : FloatingSpace) (ps : List FloatingPair) : FloatingSpace :=
  { s with tiles := ps.map Prod.fst, data := ps.map Prod.snd }

def pairs (s : FloatingSpace) : List FloatingPair := s.tiles.zip s.data

variable {s t u : FloatingSpace} {ps xs pre m c : List FloatingPair} {p w : FloatingPair} {i id : ℕ}

theorem withPairs_pairs (h : s.data.length = s.tiles.length) : s.withPairs s.pairs = s := by
  unfold withPairs pairs
  rw [map_fst_zip h.ge, map_snd_zip h.le]

theorem pairs_withPairs (s : FloatingSpace) (ps : List FloatingPair) : (s.withPairs ps).pairs = ps := by
  induction ps with
  | nil => rfl
  | cons p ps ih => exact congrArg (p :: ·) ih

theorem windowIds_withPairs (s : FloatingSpace) (ps : List FloatingPair) :
    (s.withPairs ps).windowIds = ps.map FloatingPair.id := by
  simp [windowIds, withPairs, FloatingPair.id, Function.comp_def]

/-! Raising windows. -/

theorem raiseWindow_withPairs (s : FloatingSpace) {j : ℕ} (h : ps[i]? = some p) (hji : j ≤ i) :
    (s.withPairs ps).raiseWindow i j = some (s.withPairs ((ps.eraseIdx i).insertIdx j p)) := by
  have htile : (ps.map Prod.fst)[i]? = some p.1 := by simp [h]
  have hdata : (ps.map Prod.snd)[i]? = some p.2 := by simp [h]
  unfold raiseWindow withPairs
  rw [htile, hdata, some_bind, some_bind,
    if_neg (by omega), eraseIdx_map, eraseIdx_map, map_insertIdx, map_insertIdx]

/-- The windows in `m` stay below the one that is raised past them. -/
theorem raiseWindow_past (s : FloatingSpace) (pre m c : List FloatingPair) (p : FloatingPair) :
    (s.withPairs (pre ++ m ++ p :: c)).raiseWindow (pre.length + m.length) pre.length =
      some (s.withPairs (pre ++ p :: (m ++ c))) := by
  have hp : (pre ++ m ++ p :: c)[pre.length + m.length]? = some p := by
    rw [← length_append]
    simp
  rw [raiseWindow_withPairs s hp (by omega), ← length_append, eraseIdx_middle, append_assoc,
    insertIdx_middle]

theorem raiseAll_withPairs (s : FloatingSpace) (w : FloatingPair) :
    (s.withPairs (pre ++ m ++ xs)).raiseAll pre.length
        (familyIdx isChildOf w (pre.length + m.length) xs) =
      some (s.withPairs (pre ++ family isChildOf w xs ++ m ++ others isChildOf w xs)) := by
  induction xs generalizing pre m with
  | nil => simp [familyIdx, family, others, raiseAll]
  | cons x xs ih =>
    rw [familyIdx, family, others]
    split
    · rw [raiseAll, raiseWindow_past]
      have hrest := @ih (pre ++ [x]) m
      rw [length_append, length_singleton, Nat.add_right_comm] at hrest
      simpa using hrest
    · have hrest := @ih pre (m ++ [x])
      rw [length_append, length_singleton, ← Nat.add_assoc] at hrest
      simpa using hrest

theorem descendantsOf_eq (pre : List FloatingPair) (w : FloatingPair) (xs : List FloatingPair) :
    descendantsOf ((pre ++ w :: xs).map Prod.fst) pre.length w.1.window =
      familyIdx isChildOf w (pre.length + 1) xs := by
  let child (a b : Tile) : Bool := a.window.isChildOf b.window
  have htiles : (pre ++ w :: xs).map Prod.fst = (pre ++ [w]).map Prod.fst ++ xs.map Prod.fst := by
    simp
  have hfound : _ = familyIdx child w.1 _ _ := foldr_eq_familyIdx htiles
  rw [length_map, length_map, length_append, length_singleton,
    familyIdx_map] at hfound
  have hcount : ((pre ++ w :: xs).map Prod.fst).length - (pre.length + 1) = xs.length := by
    simp
    omega
  unfold descendantsOf
  rw [hcount]
  exact hfound

theorem bringUpDescendantsOf_withPairs (s : FloatingSpace) (pre : List FloatingPair)
    (w : FloatingPair) (xs : List FloatingPair) :
    (s.withPairs (pre ++ w :: xs)).bringUpDescendantsOf pre.length =
      some (s.withPairs (pre ++ family isChildOf w xs ++ w :: others isChildOf w xs)) := by
  have hw : (s.withPairs (pre ++ w :: xs)).tiles[pre.length]? = some w.1 := by
    simp [withPairs]
  have hraise : (s.withPairs (pre ++ [w] ++ xs)).raiseAll pre.length _ = _ :=
    raiseAll_withPairs s w
  unfold bringUpDescendantsOf
  rw [hw, some_bind]
  show raiseAll _ _ (descendantsOf ((pre ++ w :: xs).map Prod.fst) _ _) = _
  rw [descendantsOf_eq]
  simpa using hraise

/-! Families of windows. -/

/-- `x` is a window of the space, and `y` its parent. -/
def HasParent (s : FloatingSpace) (x y : ℕ) : Prop :=
  ∃ tile ∈ s.tiles, tile.id = x ∧ tile.window.parent = some y

/-- `x` is a child of `w`, or of one of its descendants. -/
def Descends (s : FloatingSpace) (x w : ℕ) : Prop := Relation.TransGen s.HasParent x w

/-- No window is its own descendant. -/
def Acyclic (s : FloatingSpace) : Prop := ∀ x, ¬ s.Descends x x

theorem hasParent_withPairs (hp : p ∈ ps) (h : p.isChildOf w = true) :
    (s.withPairs ps).HasParent p.id w.id :=
  ⟨p.1, List.mem_map_of_mem hp, rfl, isChildOf_iff.mp h⟩

theorem HasParent.exists_pair {x y : ℕ} (h : (s.withPairs ps).HasParent x y) :
    ∃ p ∈ ps, p.id = x ∧ p.1.window.parent = some y := by
  obtain ⟨tile, htile, hid, hparent⟩ := h
  obtain ⟨p, hp, rfl⟩ := List.mem_map.mp htile
  exact ⟨p, hp, hid, hparent⟩

/-- The stack after `w` was raised with its family, below the windows in `pre`. -/
def raised (pre : List FloatingPair) (w : FloatingPair) (xs : List FloatingPair) :
    List FloatingPair := pre ++ family isChildOf w xs ++ w :: others isChildOf w xs

theorem raised_perm (pre : List FloatingPair) (w : FloatingPair) (xs : List FloatingPair) :
    (raised pre w xs).Perm (pre ++ w :: xs) := by
  unfold raised
  rw [append_assoc]
  refine Perm.append_left pre (perm_middle.trans ?_)
  exact (family_append_others_perm w xs).cons w

theorem descends_of_mem_family (h : p ∈ family isChildOf w xs) :
    (s.withPairs (raised pre w xs)).Descends p.id w.id := by
  have hmem : ∀ q ∈ xs, q ∈ raised pre w xs := by
    intro q hq
    exact (raised_perm pre w xs).mem_iff.mpr (by simp [hq])
  have hall : ∀ q ∈ family isChildOf w xs, (s.withPairs (raised pre w xs)).Descends q.id w.id := by
    apply family_induct
    · exact fun q hq hchild => .single (hasParent_withPairs (hmem q hq) hchild)
    · exact fun q hq r _ hr hchild => .head (hasParent_withPairs (hmem q hq) hchild) hr
  exact hall p h

theorem mem_of_descends (h : Stacked isChildOf (pre ++ xs)) {x : ℕ}
    (hx : (s.withPairs (raised pre w xs)).Descends x w.id) :
    ∃ p ∈ pre ++ family isChildOf w xs ++ [w], p.id = x := by
  -- Follow the chain from `w` on: a window whose parent is not left below is not left below either.
  have hstep : ∀ q ∈ pre ++ family isChildOf w xs ++ [w], ∀ x,
      (s.withPairs (raised pre w xs)).HasParent x q.id →
        ∃ p ∈ pre ++ family isChildOf w xs ++ [w], p.id = x := by
    intro q hq x hx
    obtain ⟨p, hp, rfl, hparent⟩ := hx.exists_pair
    have hp : p ∈ pre ++ family isChildOf w xs ++ [w] ++ others isChildOf w xs := by
      simpa [raised] using hp
    rcases mem_append.mp hp with hp | hp
    · exact ⟨p, hp, rfl⟩
    · have hchild := h.not_child_others hp hq
      rw [isChildOf_iff.mpr hparent] at hchild
      cases hchild
  induction hx using Relation.TransGen.head_induction_on with
  | single hparent => exact hstep w (by simp) _ hparent
  | head hparent _ ih =>
    obtain ⟨q, hq, rfl⟩ := ih
    exact hstep q hq _ hparent

/-! The invariant. -/

/-- Each tile has its data, and there is an active window. -/
structure PairsInv (s : FloatingSpace) : Prop where
  length : s.data.length = s.tiles.length
  /-- The data of a tile is what an update from it gives. -/
  upToDate : ∀ p ∈ s.pairs, (p.2.update p.1).updateConfig s.workingArea = p.2
  ids : s.windowIds.Nodup
  active : ∀ id, s.activeWindowId = some id → id ∈ s.windowIds
  some_active : s.tiles ≠ [] → s.activeWindowId.isSome

structure StackInv (s : FloatingSpace) : Prop extends s.PairsInv where
  stacked : Stacked isChildOf s.pairs

/-- All is in order but for the descendants of `w` below it. -/
structure Raisable (s : FloatingSpace) (pre : List FloatingPair) (w : FloatingPair)
    (xs : List FloatingPair) : Prop where
  upToDate : ∀ p ∈ pre ++ w :: xs, (p.2.update p.1).updateConfig s.workingArea = p.2
  ids : ((pre ++ w :: xs).map FloatingPair.id).Nodup
  stacked : Stacked isChildOf (pre ++ xs)
  above : ∀ a ∈ pre, w.isChildOf a = false
  active : ∃ id, s.activeWindowId = some id ∧ id ∈ (pre ++ w :: xs).map FloatingPair.id

theorem Raisable.inv (h : Raisable s pre w xs)
    (hacyclic : (s.withPairs (raised pre w xs)).Acyclic) :
    (s.withPairs (raised pre w xs)).StackInv := by
  have hperm := raised_perm pre w xs
  have hids : ((raised pre w xs).map FloatingPair.id).Perm _ := hperm.map FloatingPair.id
  obtain ⟨id, hid, hmem⟩ := h.active
  refine ⟨⟨by simp [withPairs], fun p hp => ?_, ?_, fun id' hid' => ?_, fun _ => ?_⟩, ?_⟩
  · rw [pairs_withPairs] at hp
    exact h.upToDate p (hperm.mem_iff.mp hp)
  · rw [windowIds_withPairs]
    exact hids.nodup_iff.mpr h.ids
  · obtain rfl := some.inj (hid.symm.trans hid')
    rw [windowIds_withPairs]
    exact hids.mem_iff.mpr hmem
  · exact isSome_iff_exists.mpr ⟨id, hid⟩
  · rw [pairs_withPairs]
    refine h.stacked.raise h.above fun a ha => Bool.eq_false_iff.mpr fun hchild => ?_
    -- A parent among the descendants would close a cycle.
    have hw : w ∈ raised pre w xs := hperm.mem_iff.mpr (by simp)
    exact hacyclic w.id (.head (hasParent_withPairs hw hchild) (descends_of_mem_family ha))

/-- From `s` to `t` the window `w` was raised with its family. What was not raised keeps its order, and
so do the raised descendants, which are now right above `w`. -/
def Raises (s t : FloatingSpace) (w : ℕ) : Prop :=
  ∃ above descendants below : List ℕ, t.windowIds = above ++ descendants ++ w :: below ∧
    (∀ x ∈ descendants, t.Descends x w) ∧ (∀ x ∈ below, ¬ t.Descends x w) ∧
    s.windowIds.filter (fun x => x ≠ w ∧ x ∉ descendants) = above ++ below ∧
    s.windowIds.filter (· ∈ descendants) = descendants

theorem Raisable.raises (h : Raisable s pre w xs)
    (hu : u.windowIds.filter (· ≠ w.id) = (pre ++ xs).map FloatingPair.id) :
    Raises u (s.withPairs (raised pre w xs)) w.id := by
  have hids := ((raised_perm pre w xs).map FloatingPair.id).nodup_iff.mpr h.ids
  rw [raised, map_append, map_append, map_cons] at hids
  obtain ⟨hup, hdown, hsplit⟩ := nodup_append'.mp hids
  have hpre := (nodup_append'.mp hup).2.2
  have hxs : (xs.map FloatingPair.id).Nodup := by
    have := h.ids
    rw [map_append, map_cons] at this
    exact (nodup_cons.mp (nodup_append'.mp this).2.1).2
  obtain ⟨hw, -⟩ := nodup_cons.mp hdown
  refine ⟨pre.map FloatingPair.id, (family isChildOf w xs).map FloatingPair.id,
    (others isChildOf w xs).map FloatingPair.id, ?_, fun x hx => ?_, fun x hx hdesc => ?_, ?_, ?_⟩
  · rw [windowIds_withPairs, raised, map_append, map_append, map_cons]
  · obtain ⟨p, hp, rfl⟩ := List.mem_map.mp hx
    exact descends_of_mem_family hp
  · obtain ⟨p, hp, rfl⟩ := mem_of_descends h.stacked hdesc
    rcases mem_append.mp hp with hp | hp
    · refine hsplit ?_ (mem_cons_of_mem _ hx)
      rw [← map_append]
      exact List.mem_map_of_mem hp
    · exact hw (mem_singleton.mp hp ▸ hx)
  · have hkeep : (pre.map FloatingPair.id).filter
        (· ∉ (family isChildOf w xs).map FloatingPair.id) = pre.map FloatingPair.id :=
      filter_eq_self.mpr fun x hx => decide_eq_true fun hmem => hpre hx hmem
    have hsame := congrArg
      (List.filter fun x => decide (x ∉ (family isChildOf w xs).map FloatingPair.id)) hu
    rw [List.filter_filter, map_append, filter_append, hkeep,
      filter_notMem_family hxs] at hsame
    refine Eq.trans (filter_congr fun x _ => ?_) hsame
    rw [Bool.and_comm, Bool.decide_and]
  · have hdrop : (pre.map FloatingPair.id).filter
        (· ∈ (family isChildOf w xs).map FloatingPair.id) = [] :=
      filter_eq_nil_iff.mpr fun x hx => by simpa using fun hmem => hpre hx hmem
    have hsame := congrArg
      (List.filter fun x => decide (x ∈ (family isChildOf w xs).map FloatingPair.id)) hu
    rw [List.filter_filter, map_append, filter_append, hdrop,
      filter_mem_family hxs, nil_append] at hsame
    refine Eq.trans (filter_congr fun x _ => ?_) hsame
    -- The window itself is not one of its descendants.
    by_cases hmem : x ∈ (family isChildOf w xs).map FloatingPair.id
    · have hne : x ≠ w.id := by
        rintro rfl
        exact hsplit (mem_append_right _ hmem) (mem_cons_self ..)
      simp [hmem, hne]
    · simp [hmem]

end FloatingSpace

end Macniri.Layout
