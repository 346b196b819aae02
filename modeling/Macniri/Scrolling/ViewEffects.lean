import Macniri.Lib.Run
import Macniri.Scrolling.Effects

/-! Focus, sizing, gestures and periodic updates: operations that move no window. -/
namespace Macniri.Layout.ScrollingSpace

open List Option

variable {s s' t : ScrollingSpace} {near : Bool} {i : ℕ} {c c' : Column}

/-! Finding a window. -/

theorem findIdx?_contains_spec {w : ℕ} (h : s.columns.findIdx? (·.contains w) = some i) :
    ∃ c, s.columns[i]? = some c ∧ c.contains w := by
  obtain ⟨hlt, hc, -⟩ := findIdx?_eq_some_iff_getElem.mp h
  exact ⟨s.columns[i], getElem?_eq_getElem hlt, hc⟩

theorem findWindow_spec {w tileIdx : ℕ} (h : s.findWindow w = some (i, tileIdx)) :
    ∃ c tile, s.columns[i]? = some c ∧ c.tiles[tileIdx]? = some tile ∧ tile.id = w := by
  obtain ⟨colIdx, -, h⟩ := of_bind h
  obtain ⟨c, hc, h⟩ := of_bind h
  obtain ⟨t, ht, h⟩ := of_bind h
  obtain ⟨rfl, rfl⟩ := pair_inj h
  obtain ⟨hlt, hid, -⟩ := findIdx?_eq_some_iff_getElem.mp ht
  exact ⟨c, c.tiles[t], hc, getElem?_eq_getElem hlt, beq_iff_eq.mp hid⟩

theorem windowOrActive_spec {window : Option ℕ} {tileIdx : ℕ} (hs : s.Inv)
    (h : s.windowOrActive window = some (i, tileIdx)) :
    ∃ c, s.columns[i]? = some c ∧ tileIdx < c.tiles.length := by
  cases window with
  | some w =>
    obtain ⟨c, tile, hc, ht, -⟩ := findWindow_spec h
    exact ⟨c, hc, lt_length_of_getElem? ht⟩
  | none =>
    obtain ⟨c, hc, heq⟩ := of_map h
    obtain ⟨rfl, rfl⟩ := Prod.mk.inj heq
    exact ⟨c, hc, (hs.columns c (mem_of_getElem? hc)).active⟩

theorem mem_windowIds_of_column {w : ℕ} (hc : s.columns[i]? = some c) (hw : w ∈ c.windowIds) :
    w ∈ s.windowIds :=
  mem_flatten.mpr ⟨_, mem_of_getElem? (arrangement_getElem? hc), hw⟩

/-! Changes within the columns. -/

theorem like_setColumn (hc : s.columns[i]? = some c) (h : c.Like c') : s.Like (s.setColumn i c') :=
  ⟨forall₂_set Column.Like.refl hc h, rfl, rfl, rfl, rfl, rfl, rfl, rfl⟩

theorem like_modify (s : ScrollingSpace) {f : Column → Column}
    (hf : ∀ c : Column, c ∈ s.columns → c.Like (f c)) :
    s.Like { s with columns := s.columns.modify i f } :=
  ⟨forall₂_modify Column.Like.refl hf, rfl, rfl, rfl, rfl, rfl, rfl, rfl⟩

theorem like_modifyActiveColumn (s : ScrollingSpace) {f : Column → Column}
    (hf : ∀ c : Column, c.Like (f c)) : s.Like (s.modifyActiveColumn f) :=
  s.like_modify fun c _ => hf c

theorem tame_resize {resize : Option InteractiveResize}
    (hinv : ∀ r, resize = some r → r.window ∈ s.windowIds) :
    Tame near s { s with interactiveResize := resize } :=
  .of_same (fun h => ⟨⟨h.data, h.columns, h.options, hinv, h.ids, h.uids, h.uid_lt⟩, h.active,
    h.empty⟩) (fun _ hr => hr) rfl rfl rfl

theorem tame_filterResize (p : InteractiveResize → Bool) :
    Tame near s { s with interactiveResize := s.interactiveResize.filter p } :=
  .of_same (fun h => h.filterResize p) (fun _ hr => hr) rfl rfl rfl

theorem tame_cancelResizeForColumn (s : ScrollingSpace) (i : ℕ) :
    Tame near s (s.cancelResizeForColumn i) := by
  unfold cancelResizeForColumn
  cases hc : s.columns[i]? with
  | none => exact .refl s
  | some c => exact (like_setColumn hc c.like_cancelResize).tame.trans (tame_filterResize _)

/-! Focus. -/

theorem tame_activateWindow (s : ScrollingSpace) (w : ℕ) : Tame near s (s.activateWindow w) := by
  unfold activateWindow
  split
  · exact .refl s
  · rename_i colIdx tileIdx hw
    obtain ⟨c, tile, hc, ht, -⟩ := findWindow_spec hw
    have hlike : s.Like
        { s with columns := s.columns.modify colIdx (·.activateIdx tileIdx) } := by
      refine ⟨?_, rfl, rfl, rfl, rfl, rfl, rfl, rfl⟩
      rw [modify_eq_set_of_getElem? hc]
      exact forall₂_set Column.Like.refl hc
        (Column.like_activateIdx fun _ => lt_length_of_getElem? ht)
    refine hlike.tame.trans (tame_activateColumn (.inl ?_))
    rw [hlike.length]
    exact lt_length_of_getElem? hc

theorem tame_focusLeft (hs : s.Inv) : Tame near s s.focusLeft := by
  unfold focusLeft
  split
  · exact .refl s
  · rename_i h0
    have := hs.active (fun he => h0 (hs.empty he))
    exact tame_activateColumn (.inl (by omega))

theorem tame_focusRight (s : ScrollingSpace) : Tame near s s.focusRight := by
  unfold focusRight
  split
  · exact .refl s
  · exact tame_activateColumn (.inl (by omega))

theorem tame_focusColumnFirst (hs : s.Inv) : Tame near s s.focusColumnFirst := by
  by_cases he : s.columns = []
  · exact tame_activateColumn (.inr (hs.empty he).symm)
  · exact tame_activateColumn (.inl (length_pos_iff.mpr he))

theorem tame_focusColumn (s : ScrollingSpace) (index : ℕ) : Tame near s (s.focusColumn index) := by
  unfold focusColumn
  split
  · exact .refl s
  · rename_i he
    have := length_pos_iff.mpr (mt List.isEmpty_iff.mpr he)
    exact tame_activateColumn (.inl (by omega))

theorem tame_focusColumnLast (s : ScrollingSpace) : Tame near s s.focusColumnLast := by
  unfold focusColumnLast
  split
  · exact .refl s
  · rename_i he
    have := length_pos_iff.mpr (mt List.isEmpty_iff.mpr he)
    exact tame_activateColumn (.inl (by omega))

/-- Focus moves within the active column, or else to another column. -/
theorem tame_focusInColumnOr {f : Column → Column} {other : ScrollingSpace → ScrollingSpace}
    (hf : ∀ c : Column, c.Like (f c)) (hother : Tame near s (other s)) :
    Tame near s (s.focusInColumnOr f other) := by
  unfold focusInColumnOr
  split
  · exact .refl s
  · split
    · exact hother
    · exact (s.like_modifyActiveColumn hf).tame

/-! The view. -/

theorem tame_centerColumn (s : ScrollingSpace) : Tame near s s.centerColumn := by
  unfold centerColumn
  split
  · exact .refl s
  · exact (s.like_viewOffset _).tame.trans (tame_cancelResizeForColumn _ _)

theorem tame_centerWindow {window : Option ℕ} (h : s.centerWindow window = some s') :
    Tame near s s' := by
  unfold centerWindow at h
  split at h
  · obtain rfl := some.inj h
    exact .refl s
  · obtain ⟨colIdx, -, rfl⟩ := of_bind_some h
    split
    · exact .refl s
    · exact s.tame_centerColumn

theorem tame_centerVisibleColumns (s : ScrollingSpace) : Tame near s s.centerVisibleColumns := by
  unfold centerVisibleColumns
  split
  · exact .refl s
  · dsimp only
    split
    · exact .refl s
    · exact (tame_cancelResizeForColumn s _).trans
        ((like_animateViewOffset ..).trans (like_animateViewOffsetToColumn ..)).tame

theorem tame_updateConfig (s : ScrollingSpace) (viewSize : Size) (parentArea : Rectangle)
    (scale : ℚ) (options : Options) : Tame near s (s.updateConfig viewSize parentArea scale options) := by
  have hview : ∀ t : ScrollingSpace, t.Like (if !t.columns.isEmpty && !t.viewOffset.isGesture
      then t.animateViewOffsetToColumn none t.activeColumnIdx none else t) := by
    intro t
    split
    · exact like_animateViewOffsetToColumn ..
    · exact .refl t
  unfold updateConfig
  refine Tame.trans ?_ (hview _).tame
  have hids (cs : List Column) (wa : Rectangle) : (cs.map fun c =>
      c.updateConfig viewSize wa parentArea scale options).map Column.windowIds =
        cs.map Column.windowIds := by
    rw [List.map_map]
    exact map_congr_left fun c _ => Column.windowIds_updateConfig
  have huids (cs : List Column) (wa : Rectangle) : (cs.map fun c =>
      c.updateConfig viewSize wa parentArea scale options).map (·.uid) = cs.map (·.uid) := by
    rw [List.map_map]
    exact map_congr_left fun c _ => Column.uid_updateConfig
  refine .of_same (fun h => ⟨⟨?_, ?_, ?_, ?_, ?_, ?_, ?_⟩, ?_, ?_⟩) (fun _ hr hsome => ?_) rfl rfl
    (huids _ _)
  · dsimp only
    rw [h.data, zipWith_map_left, zipWith_map_right, zipWith_self, List.map_map]
    rfl
  · intro c hc
    obtain ⟨c', hc', rfl⟩ := List.mem_map.mp hc
    exact (h.columns c' hc').updateConfig ..
  · intro c hc
    obtain ⟨c', hc', rfl⟩ := List.mem_map.mp hc
    exact Column.options_updateConfig
  · intro r hr
    unfold ScrollingSpace.windowIds arrangement
    dsimp only
    rw [hids]
    exact h.resize r hr
  · unfold ScrollingSpace.windowIds arrangement
    dsimp only
    rw [hids]
    exact h.ids
  · dsimp only
    rw [huids]
    exact h.uids
  · intro c hc
    obtain ⟨c', hc', rfl⟩ := List.mem_map.mp hc
    rw [Column.uid_updateConfig]
    exact h.uid_lt c' hc'
  · simpa using h.active
  · simpa using h.empty
  · obtain ⟨c, hc, hn⟩ := hr hsome
    unfold activeColumn at hc ⊢
    simp only [getElem?_map, hc, map_some]
    exact ⟨_, rfl, Column.isNormal_updateConfig.trans hn⟩

/-! Sizing. -/

theorem tame_resizeWindow {f : Column → Option ℕ → Column}
    (hf : ∀ (c : Column) tileIdx, c.Like (f c tileIdx)) {window : Option ℕ}
    (h : resizeWindow f s window = some s') : Tame near s s' := by
  unfold resizeWindow at h
  split at h
  · obtain rfl := some.inj h
    exact .refl s
  · obtain ⟨⟨colIdx, tileIdx⟩, -, h⟩ := of_bind h
    obtain ⟨c, hc, rfl⟩ := of_bind_some h
    exact (like_setColumn hc (hf c tileIdx)).tame.trans (tame_cancelResizeForColumn _ _)

theorem tame_expandColumnToAvailableWidth (s : ScrollingSpace) :
    Tame near s s.expandColumnToAvailableWidth := by
  unfold expandColumnToAvailableWidth
  split
  · exact .refl s
  · split
    · exact .refl s
    · split
      · exact (s.like_modifyActiveColumn Column.like_toggleFullWidth).tame.trans
          (tame_cancelResizeForColumn _ _)
      · dsimp only
        split
        · exact .refl s
        · split
          · exact .refl s
          · refine (tame_cancelResizeForColumn s s.activeColumnIdx).trans ?_
            split
            · exact (like_modifyActiveColumn _ Column.like_toggleFullWidth).tame
            · refine (like_modifyActiveColumn _ fun c => ?_).tame.trans
                ((like_animateViewOffset ..).trans (like_animateViewOffsetToColumn ..)).tame
              exact Column.Seen.like_updateTileSizes (Column.seen_of_tiles rfl rfl rfl rfl rfl rfl) fun h =>
                ⟨⟨h.sizes, h.heights, by simp, h.presetHeight, h.ids⟩, h.nonempty, h.active, h.single⟩

theorem like_followResize (s : ScrollingSpace) (i : ℕ) (offset : ℚ) (ongoing : Bool) :
    s.Like (s.followResize i offset ongoing) := by
  have hmove (c : Column) (x : ℚ) :
      c.Like (if ongoing then c.animateMoveFrom x else c.offsetMoveAnimCurrent x) := by
    split
    · exact c.like_animateMoveFrom x
    · exact c.like_offsetMoveAnimCurrent x
  unfold followResize
  split
  · exact .refl s
  · refine ⟨forall₂_mapIdx fun n c _ => ?_, rfl, rfl, rfl, rfl, rfl, rfl, rfl⟩
    dsimp only
    split
    · split
      · exact hmove c _
      · exact .refl c
    · split
      · exact hmove c _
      · exact .refl c

/-! Gestures. -/

theorem like_viewOffsetGestureBegin (s : ScrollingSpace) (isTouchpad : Bool) :
    s.Like (s.viewOffsetGestureBegin isTouchpad) := by
  unfold viewOffsetGestureBegin
  split
  · exact .refl s
  · exact s.like_viewOffset _

theorem like_viewOffsetGestureUpdate (s : ScrollingSpace) (deltaX timestamp : ℚ)
    (isTouchpad : Bool) : s.Like (s.viewOffsetGestureUpdate deltaX timestamp isTouchpad) := by
  unfold viewOffsetGestureUpdate
  split
  · split
    · exact .refl s
    · exact s.like_viewOffset _
  · exact .refl s

theorem like_dndScrollGestureScroll (s : ScrollingSpace) (delta : ℚ) :
    s.Like (s.dndScrollGestureScroll delta) := by
  unfold dndScrollGestureScroll
  split
  · split
    · exact .refl s
    · dsimp only
      split
      · exact s.like_viewOffset _
      · split
        · exact s.like_viewOffset _
        · exact s.like_viewOffset _
  · exact .refl s

theorem tame_dndScrollGestureBegin (s : ScrollingSpace) : Tame near s s.dndScrollGestureBegin := by
  unfold dndScrollGestureBegin
  split
  · exact .refl s
  · have hstop : Tame near s { s with interactiveResize := none } := tame_resize (by simp)
    exact hstop.trans (like_viewOffset _ _).tame

theorem colIdx_columnsWithX {gaps x : ℚ} {n : ℕ} {cs : List Column} {p : ℕ × ℚ × Column}
    (h : p ∈ columnsWithX gaps n x cs) : p.1 < n + cs.length := by
  induction cs generalizing n x with
  | nil => simp [columnsWithX] at h
  | cons c cs ih =>
    rcases mem_cons.mp h with rfl | h
    · simp
    · have := ih h
      simp only [length_cons]
      omega

/-- A gesture snaps to the columns there are. -/
theorem colIdx_snappingPoints (hne : s.columns ≠ []) {snap : Snap} (h : snap ∈ s.snappingPoints) :
    snap.colIdx < s.columns.length := by
  have hpos := length_pos_iff.mpr hne
  have hpoint {p : Prop} [Decidable p] {a : Snap} (ha : snap ∈ if p then [a] else []) :
      snap = a := by
    split at ha
    · exact mem_singleton.mp ha
    · simp at ha
  unfold snappingPoints at h
  dsimp only at h
  split at h
  · obtain ⟨p, hp, rfl⟩ := List.mem_map.mp h
    simpa using colIdx_columnsWithX hp
  · rcases mem_cons.mp h with rfl | h
    · exact hpos
    · rcases mem_cons.mp h with rfl | h
      · show s.columns.length - 1 < _
        omega
      · obtain ⟨p, hp, hin⟩ := mem_flatMap.mp h
        have hlt := colIdx_columnsWithX hp
        rw [Nat.zero_add] at hlt
        rcases mem_append.mp hin with hin | hin
        · exact (hpoint hin).symm ▸ hlt
        · exact (hpoint hin).symm ▸ hlt

theorem snapColumn_lt {snap : Snap} (h : snap.colIdx < s.columns.length) (towardsRight : Bool) :
    s.snapColumn snap towardsRight < s.columns.length := by
  have hlast {xs : List ℕ} {p : ℕ → Bool} (hxs : ∀ n ∈ xs, n < s.columns.length) :
      ((xs.takeWhile p).getLast?).getD snap.colIdx < s.columns.length := by
    cases hl : (xs.takeWhile p).getLast? with
    | none => exact h
    | some n => exact hxs n ((takeWhile_subset p) (mem_of_getLast? hl))
  unfold snapColumn
  split
  · exact h
  · split
    · refine hlast fun n hn => ?_
      have := List.mem_range'_1.mp hn
      omega
    · refine hlast fun n hn => ?_
      have := mem_range.mp (mem_reverse.mp hn)
      omega

/-- The column that a gesture ends on. -/
def snapTarget (s : ScrollingSpace) (g : ViewGesture) : Option ℕ :=
  let tracker := g.tracker.push 0 s.now
  let currentViewOffset := tracker.pos * s.normFactor g + g.deltaFromTracker
  let targetViewOffset := tracker.projectedEndPos * s.normFactor g + g.deltaFromTracker
  if s.columns.isEmpty then none
  else (s.closestSnap (s.columnX s.activeColumnIdx + targetViewOffset)).map fun snap =>
    s.snapColumn snap (currentViewOffset ≤ targetViewOffset)

theorem snapTarget_lt {g : ViewGesture} (h : s.snapTarget g = some i) : i < s.columns.length := by
  unfold snapTarget at h
  dsimp only at h
  split at h
  · simp at h
  · rename_i hne
    obtain ⟨snap, hsnap, rfl⟩ := of_map h
    have hmem : snap ∈ s.snappingPoints := (mem_insertionSort _).mp (argmin_mem hsnap)
    exact snapColumn_lt (colIdx_snappingPoints (mt List.isEmpty_iff.mpr hne) hmem) _

/-- The end of a gesture moves the active index, and forgets one of the two stored offsets. -/
theorem like_endGesture (s : ScrollingSpace) (g : ViewGesture) :
    (match s.snapTarget g with
      | none => s
      | some i => { s with
          viewOffsetToRestore := if s.activeColumnIdx ≠ i then none else s.viewOffsetToRestore
          activeColumnIdx := i }).Like (s.endGesture g) := by
  unfold snapTarget endGesture
  dsimp only
  by_cases he : s.columns.isEmpty
  · simp only [he, if_true]
    exact s.like_viewOffset _
  · simp only [he, if_false, Bool.false_eq_true]
    cases s.closestSnap (s.columnX s.activeColumnIdx +
        ((g.tracker.push 0 s.now).projectedEndPos * s.normFactor g + g.deltaFromTracker)) with
    | none => exact .refl s
    | some snap => exact Like.trans (like_viewOffset _ _) (like_animateViewOffsetToColumn ..)

theorem Inv.endGesture (hs : s.Inv) (g : ViewGesture) : (s.endGesture g).Inv := by
  refine (s.like_endGesture g).inv ?_
  split
  · exact hs
  · rename_i i hi
    have hlt := snapTarget_lt hi
    refine ⟨⟨hs.data, hs.columns, hs.options, hs.resize, hs.ids, hs.uids, hs.uid_lt⟩,
      fun _ => hlt, fun hnil => ?_⟩
    have hnil : s.columns = [] := hnil
    simp [hnil] at hlt

/-- The end of a gesture forgets the view offset to restore if it moves to another column. -/
theorem RestoreOk.endGesture (hr : s.RestoreOk) (g : ViewGesture) : (s.endGesture g).RestoreOk := by
  refine (s.like_endGesture g).restoreOk ?_
  split
  · exact hr
  · rename_i i hi
    by_cases he : s.activeColumnIdx = i
    · subst he
      simp only [ne_eq, not_true_eq_false, if_false]
      exact hr
    · exact fun hsome => by simp [he] at hsome

theorem tame_endGesture {g : ViewGesture}
    (h : s.activatePrevColumnOnRemoval.isSome → ∀ i, s.snapTarget g = some i →
      i = s.activeColumnIdx) : Tame near s (s.endGesture g) := by
  refine ⟨fun hs => hs.endGesture g, fun _ hr => hr.endGesture g, fun hs hp => ?_⟩
  have hlike := s.like_endGesture g
  split at hlike
  · exact (hlike.tame.prev hs hp)
  · rename_i i hi
    by_cases he : s.activeColumnIdx = i
    · subst he
      simp only [ne_eq, not_true_eq_false, if_false] at hlike
      exact (hlike.tame.prev hs hp)
    · have hnone : (s.endGesture g).activatePrevColumnOnRemoval = none := by
        refine hlike.prev.trans ?_
        rw [← not_isSome_iff_eq_none]
        exact fun hsome => he (h hsome i hi).symm
      exact ⟨fun hsome => by simp [hnone] at hsome, .inl hnone⟩

/-- The column that `viewOffsetGestureEnd` activates, if it ends a gesture. -/
def gestureEndColumn (s : ScrollingSpace) (isTouchpad : Option Bool) : Option ℕ :=
  match s.viewOffset with
  | .gesture g => if isTouchpad.any (g.isTouchpad ≠ ·) then none else s.snapTarget g
  | _ => none

/-- The column that `dndScrollGestureEnd` activates, if anything was scrolled. -/
def dndEndColumn (s : ScrollingSpace) : Option ℕ :=
  match s.viewOffset with
  | .gesture g =>
    if g.dndLastEventTime.isSome ∧ g.tracker.pos = 0 then none else s.gestureEndColumn none
  | _ => none

/-- A gesture end that would activate another column while the offset of the previous one is
stored. -/
def movesAway (s : ScrollingSpace) (column : Option ℕ) : Bool :=
  s.activatePrevColumnOnRemoval.isSome && column.any (· != s.activeColumnIdx)

theorem eq_active_of_not_movesAway {column : Option ℕ} (h : s.movesAway column = false)
    (hsome : s.activatePrevColumnOnRemoval.isSome) (hi : column = some i) :
    i = s.activeColumnIdx := by
  subst hi
  simpa [movesAway, hsome] using h

theorem tame_viewOffsetGestureEnd {isTouchpad : Option Bool}
    (h : s.movesAway (s.gestureEndColumn isTouchpad) = false) :
    Tame near s (s.viewOffsetGestureEnd isTouchpad) := by
  unfold viewOffsetGestureEnd
  unfold gestureEndColumn at h
  split
  · rename_i g hg
    rw [hg] at h
    split
    · exact .refl s
    · rename_i hany
      simp only [hany, if_false, Bool.false_eq_true] at h
      exact tame_endGesture fun hsome i hi => eq_active_of_not_movesAway h hsome hi
  · exact .refl s

theorem Inv.viewOffsetGestureEnd (hs : s.Inv) (isTouchpad : Option Bool) :
    (s.viewOffsetGestureEnd isTouchpad).Inv := by
  unfold ScrollingSpace.viewOffsetGestureEnd
  split
  · split
    · exact hs
    · exact hs.endGesture _
  · exact hs

theorem RestoreOk.viewOffsetGestureEnd (hr : s.RestoreOk) (isTouchpad : Option Bool) :
    (s.viewOffsetGestureEnd isTouchpad).RestoreOk := by
  unfold ScrollingSpace.viewOffsetGestureEnd
  split
  · split
    · exact hr
    · exact hr.endGesture _
  · exact hr

/-- A drag that scrolled nothing leaves the view where it was. -/
theorem like_dndUnscrolled (s : ScrollingSpace) (x : ℚ) :
    s.Like (if s.columns.isEmpty then { s with viewOffset := .static x }
      else ({ s with viewOffset := .static x } : ScrollingSpace).animateViewOffsetToColumn none
        s.activeColumnIdx none) := by
  split
  · exact s.like_viewOffset _
  · exact (s.like_viewOffset _).trans (like_animateViewOffsetToColumn ..)

theorem tame_dndScrollGestureEnd (h : s.movesAway s.dndEndColumn = false) :
    Tame near s s.dndScrollGestureEnd := by
  unfold dndScrollGestureEnd
  unfold dndEndColumn at h
  split
  · rename_i g hg
    rw [hg] at h
    split
    · exact (s.like_dndUnscrolled g.deltaFromTracker).tame
    · rename_i hcond
      simp only [hcond, if_false] at h
      exact tame_viewOffsetGestureEnd h
  · exact .refl s

theorem Inv.dndScrollGestureEnd (hs : s.Inv) : s.dndScrollGestureEnd.Inv := by
  unfold ScrollingSpace.dndScrollGestureEnd
  split
  · rename_i g hg
    split
    · exact (s.like_dndUnscrolled g.deltaFromTracker).inv hs
    · exact hs.viewOffsetGestureEnd none
  · exact hs

theorem RestoreOk.dndScrollGestureEnd (hr : s.RestoreOk) : s.dndScrollGestureEnd.RestoreOk := by
  unfold ScrollingSpace.dndScrollGestureEnd
  split
  · rename_i g hg
    split
    · exact (s.like_dndUnscrolled g.deltaFromTracker).restoreOk hr
    · exact hr.viewOffsetGestureEnd none
  · exact hr

/-! Interactive resize. -/

theorem tame_interactiveResizeBegin {window : ℕ} {edges : ResizeEdge}
    (h : s.interactiveResizeBegin window edges = some s') : Tame near s s' := by
  unfold interactiveResizeBegin at h
  split at h
  · obtain rfl := some.inj h
    exact .refl s
  · obtain ⟨⟨colIdx, tileIdx⟩, hw, h⟩ := of_bind h
    obtain ⟨c, hc, h⟩ := of_bind h
    split at h
    · obtain rfl := some.inj h
      exact .refl s
    · obtain ⟨tile, ht, rfl⟩ := of_bind_some h
      obtain ⟨c', tile', hc', ht', hid⟩ := findWindow_spec hw
      have hmem : window ∈ s.windowIds :=
        mem_windowIds_of_column hc' (hid ▸ List.mem_map_of_mem (mem_of_getElem? ht'))
      exact (tame_resize fun r hr => some.inj hr ▸ hmem).trans (like_viewOffset _ _).tame

theorem like_resizeByDelta (c : Column) (tileIdx : ℕ) (resize : InteractiveResize) (delta : Point)
    (isCentering : Bool) : c.Like (resizeByDelta c tileIdx resize delta isCentering) := by
  unfold resizeByDelta
  dsimp only
  split
  · split
    · exact (c.like_setColumnWidth _ _).trans (Column.like_setWindowHeight _ _ _)
    · exact c.like_setWindowHeight _ _
  · split
    · exact c.like_setColumnWidth _ _
    · exact .refl c

theorem tame_interactiveResizeUpdate {window : ℕ} {delta : Point}
    (h : s.interactiveResizeUpdate window delta = some s') : Tame near s s' := by
  unfold interactiveResizeUpdate at h
  split at h
  · obtain rfl := some.inj h
    exact .refl s
  · split at h
    · obtain rfl := some.inj h
      exact .refl s
    · obtain ⟨⟨colIdx, tileIdx⟩, -, h⟩ := of_bind h
      obtain ⟨c, hc, rfl⟩ := of_bind_some h
      exact (like_setColumn hc (like_resizeByDelta ..)).tame

theorem tame_interactiveResizeEnd {window : Option ℕ}
    (h : s.interactiveResizeEnd window = some s') : Tame near s s' := by
  have hstop (t : ScrollingSpace) : Tame near t { t with interactiveResize := none } :=
    tame_resize (by simp)
  unfold interactiveResizeEnd at h
  split at h
  · obtain rfl := some.inj h
    exact .refl s
  · obtain rfl := some.inj h
    exact hstop s
  · split at h
    · obtain rfl := some.inj h
      exact .refl s
    · obtain ⟨c, -, rfl⟩ := of_bind_some h
      refine Tame.trans ?_ (hstop _)
      split
      · exact (like_animateViewOffsetToColumn ..).tame
      · exact .refl s

/-! Periodic updates. -/

theorem like_refresh (s : ScrollingSpace) : s.Like s.refresh :=
  ⟨forall₂_map fun c _ => c.like_setInteractiveResize _, rfl, rfl, rfl, rfl, rfl, rfl, rfl⟩

theorem like_setClock (s : ScrollingSpace) (now viewValue : ℚ) (moveValue : ℕ → ℚ) :
    s.Like (s.setClock now viewValue moveValue) :=
  ⟨forall₂_mapIdx fun _ c _ => c.like_moveAnimation _, rfl, rfl, rfl, rfl, rfl, rfl, rfl⟩

theorem like_advanceAnimations (s : ScrollingSpace) (viewDone : Bool) (moveDone : ℕ → Bool) :
    s.Like (s.advanceAnimations viewDone moveDone) := by
  refine ⟨forall₂_mapIdx fun i c _ => ?_, rfl, rfl, rfl, rfl, rfl, rfl, rfl⟩
  split
  · exact c.like_moveAnimation _
  · exact .refl c

end Macniri.Layout.ScrollingSpace
