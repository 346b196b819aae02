import Macniri.Scrolling.Step

/-! The two view offsets that a space stores about its active column, over whole runs: the one to
restore when the column stops being fullscreen or maximized, and the one of the column to go back
to when it is removed. -/
namespace Macniri.Layout.ScrollingSpace

open List Option

variable {viewSize : Size} {parentArea : Rectangle} {scale now : ℚ} {options : Options}
variable {s s' t : ScrollingSpace} {op : Op} {ops : List Op} {c : Column}

/-! The view offset to restore. -/

theorem sizingMode_ne_normal (h : c.isNormal = false) : c.sizingMode ≠ .normal := by
  simpa [Column.isNormal] using h

/-- A stored view offset belongs to the active column, in every run that never puts a normal column
in the place of the active one while an offset is stored for it. -/
theorem viewOffsetToRestore_of_not_strands
    (h : run step (new viewSize parentArea scale options now) ops = some s)
    (hops : along step (fun t op => !t.strandsOffset op)
      (new viewSize parentArea scale options now) ops = true)
    (hsome : s.viewOffsetToRestore.isSome) :
    ∃ c, s.activeColumn = some c ∧ c.sizingMode ≠ .normal := by
  have hinv : s.Inv ∧ s.RestoreOk := by
    refine run_invariant_along (I := fun t => t.Inv ∧ t.RestoreOk) (fun t op u ht hop hstep => ?_)
      ⟨inv_new, fun hnone => by simp [new] at hnone⟩ hops h
    have heffect := effect_step ht.1 hstep
    exact ⟨heffect.inv, heffect.restore ht.2 (by simpa using hop)⟩
  obtain ⟨c, hc, hn⟩ := hinv.2 hsome
  exact ⟨c, hc, sizingMode_ne_normal hn⟩

/-- Open a window at the index of the only column, whose window is fullscreen. -/
def openLeftOfFullscreen : List Op :=
  [openOp 1, .setFullscreen 1 true, .updateWindow 1 fullscreenCommit false,
    .addTile (some 0) (testTile 2) true (.proportion (1 / 2)) false]

/-- The new column becomes active without a change of the index of the active column. -/
theorem viewOffsetToRestore_stranded : ¬ ∀ (ops : List Op) (s : ScrollingSpace),
    run step testSpace ops = some s → s.viewOffsetToRestore.isSome →
      ∃ c, s.activeColumn = some c ∧ c.sizingMode ≠ .normal := by
  intro hall
  have hrun : (run step testSpace openLeftOfFullscreen).any (fun s =>
      s.viewOffsetToRestore.isSome && s.activeColumn.all (·.sizingMode == .normal)) = true := by
    decide +kernel
  obtain ⟨s, hs, hbad⟩ := (Option.any_eq_true _ _).mp hrun
  obtain ⟨hsome, hnormal⟩ := Bool.and_eq_true_iff.mp hbad
  obtain ⟨c, hc, hne⟩ := hall _ s hs hsome
  rw [hc] at hnormal
  exact hne (by simpa using hnormal)

/-- Right of the fullscreen column a window can be opened, and the fullscreen one be focused. -/
theorem viewOffsetToRestore_kept : ∃ s, run step testSpace [openOp 1, .setFullscreen 1 true,
    .updateWindow 1 fullscreenCommit false, .addTile (some 1) (testTile 2) false (.fixed 100) false] =
      some s ∧ ∃ c, s.activeColumn = some c ∧ c.sizingMode ≠ .normal := by
  have hrun : (run step testSpace [openOp 1, .setFullscreen 1 true,
      .updateWindow 1 fullscreenCommit false, .addTile (some 1) (testTile 2) false (.fixed 100) false]).any
      (·.viewOffsetToRestore.isSome) = true := by decide +kernel
  obtain ⟨s, hs, hsome⟩ := (Option.any_eq_true _ _).mp hrun
  exact ⟨s, hs, viewOffsetToRestore_of_not_strands hs (by decide +kernel) hsome⟩

/-! The view offset of the previous column. -/

/-- One of the operations opened a new column `u` right of the then active column `p`, and `u` has
been active ever since. Unless a column was inserted in between, `p` still is its left neighbour. -/
def OpenedSince (start : ScrollingSpace) (ops : List Op) (s : ScrollingSpace) : Prop :=
  ∃ pre op post before after p u, ops = pre ++ op :: post ∧
    run step start pre = some before ∧ before.opens op = true ∧ before.step op = some after ∧
    before.activeUid = some p ∧ u ∉ before.columns.map (·.uid) ∧ after.leftUid = some p ∧
    (∀ n t, run step after (post.take n) = some t → t.activeUid = some u) ∧
    run step after post = some s ∧
    (along step (fun t op => !t.insertsLeft op) after post = true → s.leftUid = some p)

/-- While the offset is stored, the active column is one that was opened and never left. -/
theorem openedSince_of_prev {start : ScrollingSpace} (hstart : start.Inv)
    (hnone : start.activatePrevColumnOnRemoval = none) (h : run step start ops = some s)
    (hops : along step (fun t op => !t.endsElsewhere op) start ops = true) :
    s.Inv ∧ s.PrevOk ∧ (s.activatePrevColumnOnRemoval.isSome → OpenedSince start ops s) := by
  induction ops using List.reverseRecOn generalizing s with
  | nil =>
    obtain rfl := some.inj h
    exact ⟨hstart, fun hsome => by simp [hnone] at hsome, fun hsome => by simp [hnone] at hsome⟩
  | append_singleton ops op ih =>
    obtain ⟨t, ht, hstep⟩ := run_concat.mp h
    rw [along_concat ht, Bool.and_eq_true] at hops
    obtain ⟨hinv, hprev, hopened⟩ := ih ht hops.1
    have heffect := effect_step hinv hstep
    obtain ⟨hprev', hcases⟩ := heffect.prev hprev (by simpa using hops.2)
    refine ⟨heffect.inv, hprev', fun hsome => ?_⟩
    rcases hcases with (hn | ⟨heq, huid, hleft⟩) | ⟨hopens, hn | ⟨u, p, hu, hp, hleft, hnew⟩⟩
    · simp [hn] at hsome
    · obtain ⟨pre, o, post, before, after, p, u, rfl, hpre, ho, hafter, hp, hnew, hl, hactive, hpost,
        hnear⟩ := hopened (heq ▸ hsome)
      refine ⟨pre, o, post ++ [op], before, after, p, u, by simp, hpre, ho, hafter, hp, hnew, hl,
        fun n v hv => ?_, run_concat.mpr ⟨t, hpost, hstep⟩, fun hquiet => ?_⟩
      · by_cases hn : n ≤ post.length
        · rw [take_append_of_le_length hn] at hv
          exact hactive n v hv
        · rw [take_of_length_le (by simp; omega), run_concat] at hv
          obtain ⟨t', ht', hstep'⟩ := hv
          obtain rfl := some.inj (hpost.symm.trans ht')
          obtain rfl := some.inj (hstep.symm.trans hstep')
          refine huid.trans (hactive post.length t ?_)
          rw [take_length]
          exact hpost
      · rw [along_concat hpost, Bool.and_eq_true] at hquiet
        exact (hleft (by simpa using hquiet.2)).trans (hnear hquiet.1)
    · simp [hn] at hsome
    · exact ⟨ops, op, [], t, s, p, u, rfl, ht, hopens, hstep, hp, hnew, hleft,
        fun n v hv => by
          rw [take_nil] at hv
          obtain rfl := some.inj hv
          exact hu,
        rfl, fun _ => hleft⟩

/-- The next column, or the last one if there is none. -/
def nextOrLastUid (s : ScrollingSpace) : Option ℕ :=
  ((s.columns[s.activeColumnIdx + 1]?).or
    (s.columns.eraseIdx s.activeColumnIdx).getLast?).map (·.uid)

/-- Removing the active column focuses its left neighbour if its offset is stored. -/
theorem activeUid_removeActiveColumn (hp : s.PrevOk)
    (h : s.removeActiveColumn = some (c, s')) :
    s'.activeUid = if s.activatePrevColumnOnRemoval.isSome then s.leftUid else s.nextOrLastUid := by
  obtain ⟨hc, hlike⟩ := removeColumnByIdx_spec h
  have hlt := lt_length_of_getElem? hc
  have hcols : (s.dropColumn s.activeColumnIdx c).columns = s.columns.eraseIdx s.activeColumnIdx :=
    rfl
  have hlen : (s.columns.eraseIdx s.activeColumnIdx).length = s.columns.length - 1 :=
    length_eraseIdx_of_lt hlt
  have hprev : (s.dropColumn s.activeColumnIdx c).activatePrevColumnOnRemoval =
      s.activatePrevColumnOnRemoval := by simp [dropColumn]
  have hidx : (s.dropColumn s.activeColumnIdx c).activeColumnIdx = s.activeColumnIdx := rfl
  rw [hlike.activeUid]
  unfold activeUid activeColumn
  rw [columns_refocused, hcols]
  by_cases hsome : s.activatePrevColumnOnRemoval.isSome
  · have h0 := hp hsome
    have hne : (s.dropColumn s.activeColumnIdx c).columns ≠ [] :=
      ne_nil_of_length_pos (by rw [hcols]; omega)
    have hfocus : ((s.dropColumn s.activeColumnIdx c).refocused s.activeColumnIdx).activeColumnIdx =
        s.activeColumnIdx - 1 := by
      unfold refocused
      rw [if_neg hne, if_neg (by omega), if_pos ⟨hidx.symm, hprev ▸ hsome⟩, if_pos h0]
      simp [hidx]
    rw [if_pos hsome, hfocus, getElem?_eraseIdx_of_lt (by omega)]
    unfold leftUid
    rw [if_neg (by omega)]
  · rw [if_neg hsome]
    unfold nextOrLastUid
    by_cases hne : s.columns.eraseIdx s.activeColumnIdx = []
    · have hnext : s.columns[s.activeColumnIdx + 1]? = none := by
        rw [List.getElem?_eq_none_iff]
        rw [hne, length_nil] at hlen
        omega
      simp [hne, hnext]
    · have hfocus : ((s.dropColumn s.activeColumnIdx c).refocused
          s.activeColumnIdx).activeColumnIdx =
          min s.activeColumnIdx ((s.columns.eraseIdx s.activeColumnIdx).length - 1) := by
        unfold refocused
        rw [if_neg (by rw [hcols]; exact hne), if_neg (by omega),
          if_neg (fun hh => hsome (hprev ▸ hh.2))]
        simp [hidx, hcols]
      have hpos := length_pos_iff.mpr hne
      rw [hfocus]
      by_cases hnext : s.activeColumnIdx + 1 < s.columns.length
      · rw [Nat.min_eq_left (by omega), getElem?_eraseIdx_of_ge (Nat.le_refl _),
          getElem?_eq_getElem hnext]
        rfl
      · have hlast : s.columns[s.activeColumnIdx + 1]? = none := by
          rw [List.getElem?_eq_none_iff]
          omega
        rw [Nat.min_eq_right (by omega), hlast, none_or, getLast?_eq_getElem?]

/-- A gesture that ends on another column leaves the offset of the previous column behind. -/
theorem endGesture_moves (hs : s.Inv) {g : ViewGesture} (h : s.movesAway (s.snapTarget g)) :
    (s.endGesture g).activeUid ≠ s.activeUid ∧
      (s.endGesture g).activatePrevColumnOnRemoval ≠ none := by
  unfold movesAway at h
  cases ht : s.snapTarget g with
  | none => simp [ht] at h
  | some i =>
    obtain ⟨hsome, hi⟩ : s.activatePrevColumnOnRemoval.isSome ∧ i ≠ s.activeColumnIdx := by
      simpa [ht] using h
    have hlt := snapTarget_lt ht
    have hactive := hs.active (ne_nil_of_length_pos (by omega))
    have hlike := s.like_endGesture g
    rw [ht] at hlike
    refine ⟨fun heq => ?_, fun hnone => ?_⟩
    · rw [hlike.activeUid] at heq
      simp only [activeUid, activeColumn, getElem?_eq_getElem hlt,
        getElem?_eq_getElem hactive, map_some, some.injEq] at heq
      refine hi ((nodup_iff_injective_getElem.mp hs.uids |>.eq_iff
        (a := ⟨i, by simpa using hlt⟩) (b := ⟨s.activeColumnIdx, by simpa using hactive⟩)).mp
        (by simpa using heq) |> Fin.mk.inj_iff.mp)
    · have hold : s.activatePrevColumnOnRemoval = none := hlike.prev.symm.trans hnone
      simp [hold] at hsome

theorem viewOffsetGestureEnd_moves (hs : s.Inv) {isTouchpad : Option Bool}
    (h : s.movesAway (s.gestureEndColumn isTouchpad)) :
    (s.viewOffsetGestureEnd isTouchpad).activeUid ≠ s.activeUid ∧
      (s.viewOffsetGestureEnd isTouchpad).activatePrevColumnOnRemoval ≠ none := by
  unfold viewOffsetGestureEnd
  unfold gestureEndColumn at h
  split
  · rename_i g hg
    rw [hg] at h
    split
    · rename_i hany
      simp only [hany, if_true] at h
      simp [movesAway] at h
    · rename_i hany
      simp only [hany, if_false, Bool.false_eq_true] at h
      exact endGesture_moves hs h
  · rename_i hg
    cases hv : s.viewOffset with
    | gesture g => exact absurd hv (hg g)
    | _ => simp [hv, movesAway] at h

theorem endsElsewhere_moves (hs : s.Inv) (h : s.step op = some s') (he : s.endsElsewhere op) :
    s'.activeUid ≠ s.activeUid ∧ s'.activatePrevColumnOnRemoval ≠ none := by
  unfold step at h
  split at h
  swap
  · simp at h
  cases op with
  | viewOffsetGestureEnd isTouchpad =>
    obtain rfl := some.inj h
    exact viewOffsetGestureEnd_moves hs he
  | dndScrollGestureEnd =>
    obtain rfl := some.inj h
    have he : s.movesAway s.dndEndColumn = true := he
    unfold dndScrollGestureEnd
    unfold dndEndColumn at he
    cases hv : s.viewOffset with
    | gesture g =>
      simp only [hv] at he ⊢
      split
      · rename_i hcond
        simp [hcond, movesAway] at he
      · rename_i hcond
        simp only [hcond, if_false] at he
        exact viewOffsetGestureEnd_moves hs he
    | _ => simp [hv, movesAway] at he
  | _ => simp [endsElsewhere] at he

/-- In a run without such a gesture end, the offset of the previous column goes with every change of
focus that does not open a column. Removing the active column then goes back to the left neighbour
only if the active column was opened next to it and never left since. -/
theorem activatePrevColumnOnRemoval_of_not_endsElsewhere
    (h : run step (new viewSize parentArea scale options now) ops = some s)
    (hops : along step (fun t op => !t.endsElsewhere op)
      (new viewSize parentArea scale options now) ops = true) :
    (∀ op s', s.step op = some s' → s.opens op = false →
      ((s'.activeUid ≠ s.activeUid → s'.activatePrevColumnOnRemoval = none) ↔
        s.endsElsewhere op = false)) ∧
    ∀ c s', s.removeActiveColumn = some (c, s') →
      (s.activatePrevColumnOnRemoval.isSome ∧ s'.activeUid = s.leftUid ∧
        OpenedSince (new viewSize parentArea scale options now) ops s) ∨
      (s.activatePrevColumnOnRemoval = none ∧ s'.activeUid = s.nextOrLastUid) := by
  obtain ⟨hinv, hprev, hopened⟩ := openedSince_of_prev inv_new rfl h hops
  refine ⟨fun op s' hstep hopens => ⟨fun hmove => ?_, fun hstay hmoved => ?_⟩, fun c s' hremove => ?_⟩
  · by_contra hends
    have hmoves := endsElsewhere_moves hinv hstep (by simpa using hends)
    exact hmoves.2 (hmove hmoves.1)
  · rcases ((effect_step hinv hstep).prev hprev hstay).2 with (hnone | ⟨-, huid, -⟩) | ⟨hopens', -⟩
    · exact hnone
    · exact absurd huid hmoved
    · simp [hopens] at hopens'
  · have hfocus := activeUid_removeActiveColumn hprev hremove
    by_cases hsome : s.activatePrevColumnOnRemoval.isSome
    · rw [if_pos hsome] at hfocus
      exact .inl ⟨hsome, hfocus, hopened hsome⟩
    · rw [if_neg hsome] at hfocus
      exact .inr ⟨not_isSome_iff_eq_none.mp hsome, hfocus⟩

/-- Open four columns and swipe back to the first one. -/
def swipeToFirst : List Op :=
  [openOp 1, openOp 2, openOp 3, openOp 4, .view (.viewOffsetGestureBegin true),
    .view (.viewOffsetGestureUpdate (-1000) 1 true)]

/-- The swipe focuses another column, and the offset of the column before the fourth one is still
stored: removing the column that the swipe ended on would go to its left. -/
theorem activatePrevColumnOnRemoval_outlives_swipe : ¬ ∀ (ops : List Op) (op : Op)
    (s s' : ScrollingSpace), run step testSpace ops = some s → s.step op = some s' →
      s.opens op = false → s'.activeUid ≠ s.activeUid → s'.activatePrevColumnOnRemoval = none := by
  intro hall
  have hrun : (run step testSpace swipeToFirst).any (fun s =>
      (s.step (.viewOffsetGestureEnd (some true))).any fun s' =>
        s'.activeUid != s.activeUid && s'.activatePrevColumnOnRemoval.isSome) = true := by
    decide +kernel
  obtain ⟨s, hs, hstep⟩ := (Option.any_eq_true _ _).mp hrun
  obtain ⟨s', hs', hbad⟩ := (Option.any_eq_true _ _).mp hstep
  obtain ⟨hmoved, hsome⟩ := Bool.and_eq_true_iff.mp hbad
  have hnone := hall swipeToFirst _ s s' hs hs' rfl (by simpa using hmoved)
  simp [hnone] at hsome

/-- Without the swipe the fourth column goes back to the third one. -/
theorem activatePrevColumnOnRemoval_goes_back : ∃ s, run step testSpace
    [openOp 1, openOp 2, openOp 3, openOp 4] = some s ∧ s.activatePrevColumnOnRemoval.isSome ∧
      ∀ c s', s.removeActiveColumn = some (c, s') → s'.activeUid = s.leftUid ∧
        OpenedSince testSpace [openOp 1, openOp 2, openOp 3, openOp 4] s := by
  have hrun : (run step testSpace [openOp 1, openOp 2, openOp 3, openOp 4]).any
      (·.activatePrevColumnOnRemoval.isSome) = true := by decide +kernel
  obtain ⟨s, hs, hsome⟩ := (Option.any_eq_true _ _).mp hrun
  refine ⟨s, hs, hsome, fun c s' hremove => ?_⟩
  rcases (activatePrevColumnOnRemoval_of_not_endsElsewhere hs (by decide +kernel)).2 c s'
    hremove with ⟨-, hleft, hopened⟩ | ⟨hnone, -⟩
  · exact ⟨hleft, hopened⟩
  · simp [hnone] at hsome

end Macniri.Layout.ScrollingSpace
