import Macniri.Floating.StackingRun

/-! The rectangle of the active floating window, which the pointer is warped to. The source takes the
topmost tile, and the active window is not always on top. -/
namespace Macniri.Layout

open Option List

namespace FloatingSpace

open FloatingPair

variable {s t : FloatingSpace} {ps xs pre : List FloatingPair} {p w : FloatingPair} {i id : ℕ}
variable {tile : Tile} {activate : Bool}

section Rectangles

-- The part of a rectangle in another one, if they meet.
variable (intersection : Rectangle → Rectangle → Option Rectangle)

def visualRectangle (s : FloatingSpace) (p : FloatingPair) : Option Rectangle :=
  intersection s.workingArea ⟨p.2.logicalPos, p.1.tileSize⟩

def activeTileVisualRectangle (s : FloatingSpace) : Option Rectangle :=
  s.pairs.head?.bind (s.visualRectangle intersection)

/-- The rectangle of the tile of the active window. -/
def activeWindowRectangle (s : FloatingSpace) : Option Rectangle := do
  let id ← s.activeWindowId
  let p ← s.pairs.find? (·.id == id)
  s.visualRectangle intersection p

end Rectangles

/-- Each tile has its data, and the topmost window is the active one. -/
structure ActiveOnTop (s : FloatingSpace) : Prop where
  length : s.data.length = s.tiles.length
  active : s.activeWindowId = s.windowIds.head?

theorem windowIds_eq_map_pairs (hs : s.data.length = s.tiles.length) :
    s.windowIds = s.pairs.map FloatingPair.id := by
  conv_lhs => rw [← withPairs_pairs hs]
  exact windowIds_withPairs s s.pairs

theorem ActiveOnTop.rectangle (h : s.ActiveOnTop)
    (intersection : Rectangle → Rectangle → Option Rectangle) :
    s.activeTileVisualRectangle intersection = s.activeWindowRectangle intersection := by
  have hactive := h.active
  rw [windowIds_eq_map_pairs h.length] at hactive
  unfold activeTileVisualRectangle activeWindowRectangle
  rw [hactive]
  cases s.pairs with
  | nil => rfl
  | cons p ps => simp

/-! What keeps the active window on top. -/

/-- No window has this one as its parent. -/
def hasNoChild (s : FloatingSpace) (id : ℕ) : Bool :=
  s.tiles.all fun tile => tile.window.parent != some id

/-- A new window that gets the focus stays on top. One that does not get it is put below the active
window, or brings the active window up as its descendant. -/
def keepsTopAdding (s : FloatingSpace) (i : ℕ) (tile : Tile) (activate : Bool) : Bool :=
  if s.placeIdx i tile = 0 then
    if activate || s.tiles.isEmpty then s.hasNoChild tile.id
    else ((family isChildOf (s.placed tile) s.pairs).map FloatingPair.id).head? == s.activeWindowId
  else !activate

/-- The active window stays on top: whatever takes the focus is raised, and no window is raised above
it. -/
def keepsTop (s : FloatingSpace) : StackOp → Bool
  | .addTile tile activate => s.keepsTopAdding 0 tile activate
  | .addTileAbove above tile activate =>
    (s.idxOf above).all fun i => s.keepsTopAdding i tile activate
  | .removeTile _ | .removeActiveTile => true
  | .activateWindow id => !s.hasWindow id || s.hasNoChild id
  | .activateWindowWithoutRaising id => !s.hasWindow id || s.activeWindowId == some id
  | .descendantsAdded id => s.activeWindowId != some id || s.hasNoChild id
  | .setParent _ none => true
  | .setParent id (some parent) =>
    s.activeWindowId != some parent || (s.setParent id (some parent)).hasNoChild parent

theorem family_eq_nil (h : s.hasNoChild w.id = true) (hxs : ∀ p ∈ xs, p ∈ s.pairs) :
    family isChildOf w xs = [] := by
  have hnone : ∀ p ∈ xs, p.isChildOf w = false := by
    intro p hp
    have htile : p.1 ∈ s.tiles := (of_mem_zip (hxs p hp)).1
    exact (bne_iff_ne ..).mp (List.all_eq_true.mp h p.1 htile) |> beq_false_of_ne
  clear hxs
  induction xs with
  | nil => rfl
  | cons x xs ih =>
    have ih := ih fun p hp => hnone p (mem_cons_of_mem x hp)
    unfold family
    rw [ih, hnone x (mem_cons_self ..)]
    rfl

/-- Only the id of a window says which windows descend from it. -/
theorem family_congr (h : p.id = w.id) (xs : List FloatingPair) :
    family isChildOf p xs = family isChildOf w xs := by
  have hchild (x : FloatingPair) : x.isChildOf p = x.isChildOf w :=
    congrArg (fun id => x.1.window.parent == some id) h
  induction xs with
  | nil => rfl
  | cons x xs ih =>
    unfold family
    rw [ih, hchild x]

theorem id_placed (s : FloatingSpace) (tile : Tile) : (s.placed tile).id = tile.id := rfl

/-- The top of a stack in which a window was raised. -/
theorem head?_raised (s : FloatingSpace) (pre : List FloatingPair) (w : FloatingPair)
    (xs : List FloatingPair) :
    (s.withPairs (raised pre w xs)).windowIds.head? = (pre.map FloatingPair.id).head?.or
      (((family isChildOf w xs).map FloatingPair.id).head?.or (some w.id)) := by
  rw [windowIds_withPairs, raised, map_append, map_append, map_cons, append_assoc,
    head?_append, head?_append]
  rfl

theorem length_withPairs (s : FloatingSpace) (ps : List FloatingPair) :
    (s.withPairs ps).data.length = (s.withPairs ps).tiles.length := by
  simp [withPairs]

/-- The window that is raised to the top is the active one. -/
theorem activeOnTop_raised (hactive : s.activeWindowId = some w.id)
    (hfamily : family isChildOf w xs = []) : (s.withPairs (raised [] w xs)).ActiveOnTop := by
  refine ⟨length_withPairs .., ?_⟩
  rw [head?_raised, hfamily]
  exact hactive

/-- Below the top, raising does not matter. -/
theorem activeOnTop_raised_below (hactive : s.activeWindowId = (pre.map FloatingPair.id).head?)
    (hpre : pre ≠ []) : (s.withPairs (raised pre w xs)).ActiveOnTop := by
  refine ⟨length_withPairs .., ?_⟩
  rw [head?_raised]
  cases pre with
  | nil => exact absurd rfl hpre
  | cons p ps => exact hactive

variable (hs : s.ActiveOnTop)
include hs

theorem ActiveOnTop.head_pairs : s.activeWindowId = (s.pairs.map FloatingPair.id).head? :=
  windowIds_eq_map_pairs hs.length ▸ hs.active

/-! Step by step. -/

theorem ActiveOnTop.addTileAt (hi : i ≤ s.tiles.length) (hkeep : s.keepsTopAdding i tile activate = true)
    (h : s.addTileAt i tile activate = some t) : t.ActiveOnTop := by
  obtain rfl := some.inj ((addTileAt_eq hs.length hi tile activate).symm.trans h)
  unfold keepsTopAdding at hkeep
  by_cases htop : s.placeIdx i tile = 0
  · rw [if_pos htop] at hkeep
    rw [htop, take_zero, drop_zero]
    by_cases hfocus : (activate || s.tiles.isEmpty) = true
    · rw [if_pos hfocus] at hkeep
      exact activeOnTop_raised (if_pos hfocus) (family_eq_nil hkeep fun _ hp => hp)
    · rw [if_neg hfocus] at hkeep
      refine ⟨length_withPairs .., ?_⟩
      show (s.focusing tile activate).activeWindowId =
        ((s.focusing tile activate).withPairs (raised [] (s.placed tile) s.pairs)).windowIds.head?
      rw [head?_raised, beq_iff_eq.mp hkeep]
      have hsome : s.activeWindowId.isSome = true := by
        rw [hs.active, isSome_head?]
        simp only [Bool.or_eq_true, List.isEmpty_iff, not_or] at hfocus
        exact fun hnil => hfocus.2 (map_eq_nil_iff.mp hnil)
      rw [map_nil, head?_nil, none_or, or_of_isSome hsome]
      exact if_neg hfocus
  · rw [if_neg htop, Bool.not_eq_true'] at hkeep
    have hne : s.pairs.take (s.placeIdx i tile) ≠ [] := by
      intro hnil
      have hlen := length_take_of_le (placeIdx_le hs.length hi tile)
      rw [hnil] at hlen
      exact htop hlen.symm
    refine activeOnTop_raised_below ?_ hne
    have htiles : s.tiles.isEmpty = false := by
      cases htiles : s.tiles with
      | nil => simp [pairs, htiles] at hne
      | cons => rfl
    have hfocus : (s.focusing tile activate).activeWindowId = s.activeWindowId := by
      unfold focusing
      rw [hkeep, htiles]
      rfl
    rw [hfocus, hs.head_pairs, map_take, head?_take, if_neg htop]

omit hs in
theorem keepsTopAdding_floatingPos (pos : Option Point) :
    s.keepsTopAdding i { tile with floatingPos := pos } activate = s.keepsTopAdding i tile activate := by
  have hfamily : family isChildOf (s.placed { tile with floatingPos := pos }) s.pairs =
      family isChildOf (s.placed tile) s.pairs :=
    family_congr (id_placed s { tile with floatingPos := pos }) s.pairs
  unfold keepsTopAdding
  rw [hfamily]
  rfl

theorem ActiveOnTop.addTileAbove {above : ℕ}
    (hkeep : ((s.idxOf above).all fun i => s.keepsTopAdding i tile activate) = true)
    (h : s.addTileAbove above tile activate = some t) : t.ActiveOnTop := by
  obtain ⟨i, hi, h⟩ := of_bind h
  obtain ⟨d, -, h⟩ := of_bind h
  rw [hi] at hkeep
  exact hs.addTileAt (lt_length_of_idxOf hi).le (keepsTopAdding_floatingPos _ ▸ hkeep) h

theorem ActiveOnTop.removeTile (h : (s.removeTile id).map Prod.snd = some t) : t.ActiveOnTop := by
  obtain ⟨r, hr, rfl⟩ := of_map h
  have hactive := active_removeTile hr
  obtain ⟨i, hi, hr⟩ := of_bind hr
  obtain ⟨tile, htile, hr⟩ := of_bind hr
  obtain ⟨d, hd, hr⟩ := of_bind hr
  have ht := (pair_inj hr).2
  have htiles : s.tiles.eraseIdx i = r.2.tiles := congrArg tiles ht
  refine ⟨?_, ?_⟩
  · rw [← ht]
    simp only [length_eraseIdx, hs.length]
  · have htop := hs.active
    unfold windowIds at htop ⊢
    rw [hactive, ← htiles]
    cases hcase : s.tiles with
    | nil => simp [hcase] at htile
    | cons top tiles =>
      rw [hcase, map_cons, head?_cons] at htop
      cases i with
      | zero =>
        -- The active window is removed, and the next one gets the focus.
        obtain ⟨first, hfirst, rfl⟩ := idxOf_spec hi
        rw [hcase] at hfirst
        obtain rfl := some.inj hfirst
        rw [eraseIdx_cons_zero, if_pos htop.symm]
        cases tiles <;> rfl
      | succ i =>
        have hid : top.id ≠ id := by
          intro hid
          simp [idxOf, hcase, findIdx?_cons, hid] at hi
        rw [htop, if_neg fun heq => hid (some.inj heq).symm]
        rfl

theorem ActiveOnTop.activateWindow (hkeep : (!s.hasWindow id || s.hasNoChild id) = true)
    (h : s.activateWindow id = some t) : t.ActiveOnTop := by
  cases hi : s.idxOf id with
  | none =>
    unfold FloatingSpace.activateWindow at h
    rw [hi] at h
    exact some.inj h ▸ hs
  | some i =>
    obtain ⟨pre, w, xs, hpairs, rfl, rfl⟩ := pairs_split hs.length hi
    have hhas : s.hasWindow w.id = true := mem_windowIds_iff.mp (mem_of_idxOf hi)
    have hchild : s.hasNoChild w.id = true := by
      simpa [hhas] using hkeep
    obtain rfl := some.inj ((activateWindow_eq hs.length hpairs hi).symm.trans h)
    refine activeOnTop_raised rfl (family_eq_nil hchild fun p hp => ?_)
    rw [hpairs]
    exact (perm_middle.mem_iff).mpr (mem_cons_of_mem _ hp)

theorem ActiveOnTop.activateWindowWithoutRaising
    (hkeep : (!s.hasWindow id || s.activeWindowId == some id) = true) :
    (s.activateWindowWithoutRaising id).ActiveOnTop := by
  unfold FloatingSpace.activateWindowWithoutRaising
  split
  · rename_i hhas
    have hactive : s.activeWindowId = some id := by
      simpa [hhas] using hkeep
    exact ⟨hs.length, hactive ▸ hs.active⟩
  · exact hs

theorem ActiveOnTop.descendantsAdded
    (hkeep : (s.activeWindowId != some id || s.hasNoChild id) = true)
    (h : s.descendantsAdded id = some t) : t.ActiveOnTop := by
  cases hi : s.idxOf id with
  | none =>
    unfold FloatingSpace.descendantsAdded at h
    rw [hi] at h
    exact some.inj h ▸ hs
  | some i =>
    obtain ⟨pre, w, xs, hpairs, rfl, rfl⟩ := pairs_split hs.length hi
    obtain rfl := some.inj ((descendantsAdded_eq hs.length hpairs hi).symm.trans h)
    have hactive := hs.head_pairs
    rw [hpairs] at hactive
    cases pre with
    | nil =>
      have hchild : s.hasNoChild w.id = true := by
        simpa [hactive] using hkeep
      refine activeOnTop_raised hactive (family_eq_nil hchild fun p hp => ?_)
      rw [hpairs]
      exact mem_cons_of_mem w hp
    | cons top pre => exact activeOnTop_raised_below hactive nofun

theorem ActiveOnTop.setParent (id : ℕ) (parent : Option ℕ) : (s.setParent id parent).ActiveOnTop where
  length := by simpa [FloatingSpace.setParent] using hs.length
  active := windowIds_setParent s id parent ▸ hs.active

theorem ActiveOnTop.stackStep {op : StackOp} (hkeep : s.keepsTop op = true)
    (h : s.stackStep op = some t) : t.ActiveOnTop := by
  cases op with
  | addTile tile activate =>
    exact hs.addTileAt (Nat.zero_le _) hkeep (ite_none_left_eq_some.mp h).2
  | addTileAbove above tile activate =>
    exact hs.addTileAbove hkeep (ite_none_left_eq_some.mp h).2
  | removeTile id => exact hs.removeTile h
  | removeActiveTile =>
    unfold FloatingSpace.stackStep at h
    obtain ⟨removed, hremoved, rfl⟩ := of_map h
    unfold FloatingSpace.removeActiveTile at hremoved
    split at hremoved
    · exact some.inj hremoved ▸ hs
    · obtain ⟨r, hr, rfl⟩ := of_map hremoved
      exact hs.removeTile (congrArg (Option.map Prod.snd) hr)
  | activateWindow id => exact hs.activateWindow hkeep h
  | activateWindowWithoutRaising id =>
    exact some.inj h ▸ hs.activateWindowWithoutRaising hkeep
  | descendantsAdded id => exact hs.descendantsAdded hkeep h
  | setParent id parent =>
    cases parent with
    | none => exact some.inj h ▸ hs.setParent id none
    | some parent => exact (hs.setParent id (some parent)).descendantsAdded hkeep h

end FloatingSpace

/-- Besides the operations on the stack, anything that leaves the windows, their order and the focus as
they are: moving and resizing them, commits, changes of the config. -/
inductive FloatingOp where
  | stack (op : StackOp)
  | other (space : FloatingSpace)

namespace FloatingSpace

variable {s t : FloatingSpace} {op : FloatingOp} {ops : List FloatingOp}

def floatingStep (s : FloatingSpace) : FloatingOp → Option FloatingSpace
  | .stack op => s.stackStep op
  | .other t =>
    if t.windowIds = s.windowIds ∧ t.activeWindowId = s.activeWindowId ∧
      t.data.length = t.tiles.length then some t else none

def keepsTopStep (s : FloatingSpace) : FloatingOp → Bool
  | .stack op => s.keepsTop op
  | .other _ => true

theorem activeOnTop_step (hs : s.ActiveOnTop) (hkeep : s.keepsTopStep op = true)
    (h : s.floatingStep op = some t) : t.ActiveOnTop := by
  cases op with
  | stack op => exact hs.stackStep hkeep h
  | other u =>
    obtain ⟨⟨hids, hactive, hlength⟩, ht⟩ := ite_none_right_eq_some.mp h
    obtain rfl := some.inj ht
    have htop := hs.active
    rw [← hids, ← hactive] at htop
    exact ⟨hlength, htop⟩

variable {viewSize : Size} {workingArea : Rectangle} {scale : ℚ} {options : Options}
variable {intersection : Rectangle → Rectangle → Option Rectangle}

theorem activeOnTop_new : (new viewSize workingArea scale options).ActiveOnTop := ⟨rfl, rfl⟩

/-- As long as the active window is kept on top, the rectangle of the active tile is that of the
active window. -/
theorem activeTileVisualRectangle_of_keepsTop
    (hkeep : along floatingStep keepsTopStep (new viewSize workingArea scale options) ops = true)
    (h : run floatingStep (new viewSize workingArea scale options) ops = some t) :
    t.activeTileVisualRectangle intersection = t.activeWindowRectangle intersection := by
  have htop : t.ActiveOnTop :=
    run_invariant_along (fun s op t hs hkeep h => activeOnTop_step hs hkeep h) activeOnTop_new hkeep h
  exact htop.rectangle intersection

def testFloating : FloatingSpace := new ⟨1280, 720⟩ ⟨⟨0, 0⟩, ⟨1280, 720⟩⟩ 1 .default

/-- The common part of two rectangles, if they overlap. -/
def overlapRect (r o : Rectangle) : Option Rectangle :=
  let x := max r.loc.x o.loc.x
  let y := max r.loc.y o.loc.y
  let w := min (r.loc.x + r.size.w) (o.loc.x + o.size.w) - x
  let h := min (r.loc.y + r.size.h) (o.loc.y + o.size.h) - y
  if 0 < w ∧ 0 < h then some ⟨⟨x, y⟩, ⟨w, h⟩⟩ else none

/-- A window and a smaller one for it. -/
def dialogTile : Tile :=
  let window := { ScrollingSpace.testWindow 2 with parent := some 1, size := ⟨300, 100⟩ }
  Tile.new window ⟨1280, 720⟩ 1 .default

/-- Open the two windows, close the first, and focus the other one. -/
def closeParentOps : List FloatingOp :=
  [.stack (.addTile (ScrollingSpace.testTile 1) true), .stack (.addTile dialogTile true),
    .stack (.removeTile 1), .stack (.activateWindow 2)]

theorem activeTileVisualRectangle_closeParent : ∃ t,
    run floatingStep testFloating closeParentOps = some t ∧
      t.activeTileVisualRectangle overlapRect = t.activeWindowRectangle overlapRect ∧
      (t.activeWindowRectangle overlapRect).isSome = true := by
  have hrun : (run floatingStep testFloating closeParentOps).any
      (fun t => (t.activeWindowRectangle overlapRect).isSome) = true := by
    decide +kernel
  obtain ⟨t, ht, hsome⟩ := (Option.any_eq_true ..).mp hrun
  exact ⟨t, ht, activeTileVisualRectangle_of_keepsTop (by decide +kernel) ht, hsome⟩

/-- Focus the window below its dialog. -/
def focusParentOps : List FloatingOp :=
  [.stack (.addTile (ScrollingSpace.testTile 1) true), .stack (.addTile dialogTile true),
    .stack (.activateWindow 1)]

/-- Focus a window without raising it. -/
def focusBelowOps : List FloatingOp :=
  [.stack (.addTile dialogTile true), .stack (.addTile (ScrollingSpace.testTile 3) true),
    .stack (.activateWindowWithoutRaising 2)]

/-- The rectangle is that of the dialog or of the window on top, not of the one that has the focus. -/
theorem activeTileVisualRectangle_other :
    (∃ t, run floatingStep testFloating focusParentOps = some t ∧
      t.activeTileVisualRectangle overlapRect ≠ t.activeWindowRectangle overlapRect) ∧
    ∃ t, run floatingStep testFloating focusBelowOps = some t ∧
      t.activeTileVisualRectangle overlapRect ≠ t.activeWindowRectangle overlapRect := by
  have hrun (ops : List FloatingOp) (h : (run floatingStep testFloating ops).any (fun t =>
      t.activeTileVisualRectangle overlapRect != t.activeWindowRectangle overlapRect) = true) :
      ∃ t, run floatingStep testFloating ops = some t ∧
        t.activeTileVisualRectangle overlapRect ≠ t.activeWindowRectangle overlapRect := by
    obtain ⟨t, ht, hne⟩ := (Option.any_eq_true ..).mp h
    exact ⟨t, ht, (bne_iff_ne ..).mp hne⟩
  exact ⟨hrun _ (by decide +kernel), hrun _ (by decide +kernel)⟩

end FloatingSpace

end Macniri.Layout
