import Macniri.Scrolling.SpaceInvariant

/-! What an operation can do to the flags of a scrolling space: the view offset to restore, and the
view offset of the previous column. -/
namespace Macniri.Layout.ScrollingSpace

open List Option

/-- The identity of the left neighbour of the active column. -/
def leftUid (s : ScrollingSpace) : Option ℕ :=
  if s.activeColumnIdx = 0 then none else (s.columns[s.activeColumnIdx - 1]?).map (·.uid)

/-- A view offset to restore belongs to an active column that is fullscreen or maximized. -/
def RestoreOk (s : ScrollingSpace) : Prop :=
  s.viewOffsetToRestore.isSome → ∃ c, s.activeColumn = some c ∧ c.isNormal = false

/-- The offset of a previous column is stored only while there is one. -/
def PrevOk (s : ScrollingSpace) : Prop :=
  s.activatePrevColumnOnRemoval.isSome → 0 < s.activeColumnIdx

/-- Either the offset of the previous column is gone, or the same column is still active. With
`near = false` its left neighbour is the same too. -/
def Kept (near : Bool) (s s' : ScrollingSpace) : Prop :=
  s'.activatePrevColumnOnRemoval = none ∨
    (s'.activatePrevColumnOnRemoval = s.activatePrevColumnOnRemoval ∧
      s'.activeUid = s.activeUid ∧ (near = false → s'.leftUid = s.leftUid))

/-- A change that keeps the invariant, the law of the stored offsets, and the previous column. -/
structure Tame (near : Bool) (s s' : ScrollingSpace) : Prop where
  inv : s.Inv → s'.Inv
  restore : s.Inv → s.RestoreOk → s'.RestoreOk
  prev : s.Inv → s.PrevOk → s'.PrevOk ∧ Kept near s s'

variable {s s' t : ScrollingSpace} {near : Bool} {i : ℕ} {c c' : Column}

theorem Kept.trans (h : Kept near s t) (h' : Kept near t s') : Kept near s s' := by
  rcases h' with hnone | ⟨hprev', huid', hleft'⟩
  · exact .inl hnone
  · rcases h with hnone | ⟨hprev, huid, hleft⟩
    · exact .inl (hprev'.trans hnone)
    · exact .inr ⟨hprev'.trans hprev, huid'.trans huid,
        fun hn => (hleft' hn).trans (hleft hn)⟩

theorem Tame.refl (s : ScrollingSpace) : Tame near s s :=
  ⟨id, fun _ h => h, fun _ h => ⟨h, .inr ⟨rfl, rfl, fun _ => rfl⟩⟩⟩

theorem Tame.trans (h : Tame near s t) (h' : Tame near t s') : Tame near s s' where
  inv hs := h'.inv (h.inv hs)
  restore hs hr := h'.restore (h.inv hs) (h.restore hs hr)
  prev hs hp := by
    obtain ⟨hpt, hkept⟩ := h.prev hs hp
    obtain ⟨hps, hkept'⟩ := h'.prev (h.inv hs) hpt
    exact ⟨hps, hkept.trans hkept'⟩

theorem Tame.mono {b : Bool} (h : Tame b s s') (hb : near = false → b = false) :
    Tame near s s' := by
  refine ⟨h.inv, h.restore, fun hs hp => ⟨(h.prev hs hp).1, ?_⟩⟩
  rcases (h.prev hs hp).2 with hnone | ⟨hprev, huid, hleft⟩
  · exact .inl hnone
  · exact .inr ⟨hprev, huid, fun hn => hleft (hb hn)⟩

theorem Tame.weaken (h : Tame false s s') : Tame near s s' := h.mono fun _ => rfl

/-- Nothing is left to outlive its column once both offsets are gone. -/
theorem Tame.of_clear (hinv : s.Inv → s'.Inv) (hprev : s'.activatePrevColumnOnRemoval = none)
    (hrestore : s'.viewOffsetToRestore = none) : Tame near s s' :=
  ⟨hinv, fun _ _ h => by simp [hrestore] at h, fun _ _ => ⟨fun h => by simp [hprev] at h,
    .inl hprev⟩⟩

/-- The same column stays active at the same index. -/
theorem Tame.of_same (hinv : s.Inv → s'.Inv) (hrestore : s.Inv → s.RestoreOk → s'.RestoreOk)
    (hactive : s'.activeColumnIdx = s.activeColumnIdx)
    (hprev : s'.activatePrevColumnOnRemoval = s.activatePrevColumnOnRemoval)
    (huids : s'.columns.map (·.uid) = s.columns.map (·.uid)) : Tame near s s' := by
  have hget (n : ℕ) : (s'.columns[n]?).map (·.uid) = (s.columns[n]?).map (·.uid) := by
    simpa using congrArg (·[n]?) huids
  refine ⟨hinv, hrestore, fun _ hp => ⟨?_, .inr ⟨hprev, ?_, fun _ => ?_⟩⟩⟩
  · unfold PrevOk
    rw [hprev, hactive]
    exact hp
  · unfold activeUid activeColumn
    rw [hactive]
    exact hget _
  · unfold leftUid
    rw [hactive, hget]

theorem Like.uids (h : s.Like s') : s'.columns.map (·.uid) = s.columns.map (·.uid) :=
  Forall₂.map_eq h.columns fun _ _ hab => hab.uid

theorem Like.restoreOk (h : s.Like s') (hr : s.RestoreOk) : s'.RestoreOk := by
  intro hsome
  rw [h.restore] at hsome
  obtain ⟨c, hc, hn⟩ := hr hsome
  obtain ⟨c', hc', hlike⟩ := h.activeColumn hc
  exact ⟨c', hc', hlike.normal.trans hn⟩

theorem Like.tame (h : s.Like s') : Tame near s s' :=
  .of_same h.inv (fun _ => h.restoreOk) h.active h.prev h.uids

theorem tame_focusOn (hi : i < s.columns.length ∨ i = s.activeColumnIdx) :
    Tame near s (s.focusOn i) := by
  by_cases he : s.activeColumnIdx = i
  · unfold focusOn
    rw [if_pos he]
    exact .refl s
  · refine .of_clear (fun h => h.focusOn hi) ?_ ?_ <;> simp [focusOn, he]

theorem tame_activateColumn (hi : i < s.columns.length ∨ i = s.activeColumnIdx) :
    Tame near s (s.activateColumn i) :=
  (tame_focusOn hi).trans (s.like_activateColumn i).tame

/-- One column is replaced by another one with the same identity. -/
theorem Tame.of_set (hinv : s.Inv → s'.Inv) (hrestore : s.Inv → s.RestoreOk → s'.RestoreOk)
    (hc : s.columns[i]? = some c) (hcols : s'.columns = s.columns.set i c') (huid : c'.uid = c.uid)
    (hactive : s'.activeColumnIdx = s.activeColumnIdx)
    (hprev : s'.activatePrevColumnOnRemoval = s.activatePrevColumnOnRemoval) : Tame near s s' :=
  .of_same hinv hrestore hactive hprev (by rw [hcols]; exact map_set_of_eq hc huid)

/-- A column that is not normal keeps the view offset to restore when it is replaced. -/
theorem RestoreOk.set (hr : s.RestoreOk) (hc : s.columns[i]? = some c)
    (hcols : s'.columns = s.columns.set i c') (hactive : s'.activeColumnIdx = s.activeColumnIdx)
    (hrestore : s'.viewOffsetToRestore.isSome → s.viewOffsetToRestore.isSome ∧
      (i = s.activeColumnIdx → c.isNormal = false → c'.isNormal = false)) : s'.RestoreOk := by
  intro hsome
  obtain ⟨hold, hn⟩ := hrestore hsome
  obtain ⟨d, hd, hdn⟩ := hr hold
  unfold activeColumn at hd ⊢
  rw [hcols, hactive]
  by_cases hi : i = s.activeColumnIdx
  · subst hi
    obtain rfl := some.inj (hc.symm.trans hd)
    refine ⟨c', ?_, hn rfl hdn⟩
    rw [getElem?_set_self (lt_length_of_getElem? hc)]
  · refine ⟨d, ?_, hdn⟩
    rw [getElem?_set_ne hi]
    exact hd

theorem PrevOk.none_of_zero (h : s.PrevOk) (h0 : s.activeColumnIdx = 0) :
    s.activatePrevColumnOnRemoval = none := by
  rw [← not_isSome_iff_eq_none]
  intro hsome
  have := h hsome
  omega

/-! Inserting a column without activating it. -/

theorem columns_inserted (s : ScrollingSpace) (i : ℕ) (c : Column) (activate : Bool) :
    (s.inserted i c activate).columns = s.columns.insertIdx i (s.adopt c) := by
  unfold inserted
  split
  · simp [insertColumn]
  · split <;> rfl

/-- The active column and what is stored about it stay the same. -/
theorem inserted_same (h : s.Inv) (hne : s.columns ≠ []) :
    (s.inserted i c false).activeColumn = s.activeColumn ∧
      (s.inserted i c false).activatePrevColumnOnRemoval = s.activatePrevColumnOnRemoval ∧
      (s.inserted i c false).viewOffsetToRestore = s.viewOffsetToRestore ∧
      (i ≠ s.activeColumnIdx → (s.inserted i c false).leftUid = s.leftUid) ∧
      s.activeColumnIdx ≤ (s.inserted i c false).activeColumnIdx := by
  have hactive := h.active hne
  unfold activeColumn leftUid
  rw [columns_inserted]
  unfold inserted
  by_cases hi : i ≤ s.activeColumnIdx
  · simp only [Bool.false_eq_true, if_false, hne, ne_eq, not_false_eq_true, hi, and_self, if_true]
    refine ⟨?_, rfl, rfl, fun hn => ?_, Nat.le_succ _⟩
    · rw [getElem?_insertIdx_of_gt (by omega)]
      rfl
    · rw [if_neg (by omega), if_neg (by omega), getElem?_insertIdx_of_gt (by omega)]
      rfl
  · simp only [Bool.false_eq_true, if_false, hi, and_false]
    have hidx : (s.insertColumn i c).activeColumnIdx = s.activeColumnIdx := rfl
    refine ⟨?_, rfl, rfl, fun _ => ?_, Nat.le_refl _⟩
    · exact getElem?_insertIdx_of_lt (by omega)
    · rw [hidx, getElem?_insertIdx_of_lt (by omega)]

theorem tame_inserted (hi : i ≤ s.columns.length) (hc : c.Wf)
    (hfresh : ∀ w ∈ c.windowIds, w ∉ s.windowIds)
    (hnear : near = false → s.columns ≠ [] → i ≠ s.activeColumnIdx) :
    Tame near s (s.inserted i c false) := by
  refine ⟨fun h => h.inserted hi hc hfresh false, fun h hr => ?_, fun h hp => ?_⟩
  · intro hsome
    by_cases hne : s.columns = []
    · have hold : s.viewOffsetToRestore.isSome := by simpa [inserted, insertColumn, hne] using hsome
      obtain ⟨d, hd, -⟩ := hr hold
      simp [activeColumn, hne] at hd
    · obtain ⟨hcol, -, hrestore, -⟩ := inserted_same (i := i) (c := c) h hne
      rw [hrestore] at hsome
      rw [hcol]
      exact hr hsome
  · by_cases hne : s.columns = []
    · have hnone : (s.inserted i c false).activatePrevColumnOnRemoval = none := by
        have hold := hp.none_of_zero (h.empty hne)
        simpa [inserted, insertColumn, hne] using hold
      exact ⟨fun hsome => by simp [hnone] at hsome, .inl hnone⟩
    · obtain ⟨hcol, hprev, -, hleft, hle⟩ := inserted_same (i := i) (c := c) h hne
      refine ⟨fun hsome => ?_, .inr ⟨hprev, ?_, fun hn => hleft (hnear hn hne)⟩⟩
      · rw [hprev] at hsome
        exact (hp hsome).trans_le hle
      · unfold activeUid
        rw [hcol]

/-! Removing a column. -/

/-- A column other than the active one goes. -/
theorem tame_dropped_other (hc : s.columns[i]? = some c) (hi : i ≠ s.activeColumnIdx) :
    Tame near s ((s.dropColumn i c).refocused i) := by
  have hlt := lt_length_of_getElem? hc
  have hidx : (s.dropColumn i c).activeColumnIdx = s.activeColumnIdx := rfl
  have hlen : (s.dropColumn i c).columns.length = s.columns.length - 1 :=
    length_eraseIdx_of_lt hlt
  have hrestore : (s.dropColumn i c).viewOffsetToRestore = s.viewOffsetToRestore := by
    simp [dropColumn, hi]
  by_cases hlt : i < s.activeColumnIdx
  · refine ⟨fun h => h.refocused hc, fun h hr => ?_, fun h hp => ?_⟩
    all_goals
      have hactive := h.active (ne_nil_of_getElem? hc)
      have hne : (s.dropColumn i c).columns ≠ [] := ne_nil_of_length_pos (by omega)
      simp only [refocused, hne, if_false, hidx, hlt, if_true]
    · intro hsome
      obtain ⟨d, hd, hn⟩ := hr (hrestore ▸ hsome)
      refine ⟨d, ?_, hn⟩
      unfold activeColumn at hd ⊢
      show (s.columns.eraseIdx i)[s.activeColumnIdx - 1]? = some d
      rw [getElem?_eraseIdx_of_ge (by omega), ← hd]
      congr 1
      omega
    · exact ⟨fun hsome => by simp at hsome, .inl rfl⟩
  · have hgt : s.activeColumnIdx < i := by omega
    have hne : (s.dropColumn i c).columns ≠ [] := ne_nil_of_length_pos (by omega)
    have hget (n : ℕ) (hn : n < i) : (s.dropColumn i c).columns[n]? = s.columns[n]? :=
      getElem?_eraseIdx_of_lt hn
    have heq : (s.dropColumn i c).refocused i = s.dropColumn i c := by
      have hmin : min s.activeColumnIdx ((s.dropColumn i c).columns.length - 1) =
          s.activeColumnIdx := by omega
      unfold refocused
      rw [if_neg hne, if_neg (by rw [hidx]; exact hlt), if_neg (by rw [hidx]; exact fun h => hi h.1),
        hidx, hmin]
      unfold focusOn
      rw [if_pos hidx]
    have hprev : (s.dropColumn i c).activatePrevColumnOnRemoval = s.activatePrevColumnOnRemoval := by
      simp [dropColumn, show i + 1 ≠ s.activeColumnIdx by omega]
    refine ⟨fun h => h.refocused hc, fun h hr => ?_, fun h hp => ?_⟩
    all_goals rw [heq]
    · intro hsome
      obtain ⟨d, hd, hn⟩ := hr (hrestore ▸ hsome)
      exact ⟨d, (hget _ hgt).trans hd, hn⟩
    · refine ⟨fun hsome => hp (hprev ▸ hsome), .inr ⟨hprev, ?_, fun _ => ?_⟩⟩
      · unfold activeUid activeColumn
        rw [hidx, hget _ hgt]
      · unfold leftUid
        rw [hidx, hget _ (by omega)]

/-- The active column goes: the one that is focused instead has nothing stored about it. -/
theorem tame_dropped_active (hc : s.columns[i]? = some c) (hi : i = s.activeColumnIdx) :
    Tame near s ((s.dropColumn i c).refocused i) := by
  have hidx : (s.dropColumn i c).activeColumnIdx = s.activeColumnIdx := rfl
  have hrestore : ((s.dropColumn i c).refocused i).viewOffsetToRestore = none := by
    have hdrop : (s.dropColumn i c).viewOffsetToRestore = none := by simp [dropColumn, hi]
    unfold refocused focusOn
    split
    · exact hdrop
    · split
      · exact hdrop
      · split
        · split
          · split
            · exact hdrop
            · rfl
          · exact hdrop
        · split
          · exact hdrop
          · rfl
  refine ⟨fun h => h.refocused hc, fun _ _ hsome => by simp [hrestore] at hsome, fun h hp => ?_⟩
  have hprev : ((s.dropColumn i c).refocused i).activatePrevColumnOnRemoval = none := by
    have hdrop : s.activatePrevColumnOnRemoval = none →
        (s.dropColumn i c).activatePrevColumnOnRemoval = none := fun hn => by
      simp [dropColumn, hn]
    have h0 : s.activeColumnIdx = 0 → s.activatePrevColumnOnRemoval = none := hp.none_of_zero
    unfold refocused focusOn
    rw [hidx]
    split
    · rename_i he
      -- The only column was removed, so it had no left neighbour.
      have hlen : (s.columns.eraseIdx i).length = s.columns.length - 1 :=
        length_eraseIdx_of_lt (lt_length_of_getElem? hc)
      have he : s.columns.eraseIdx i = [] := he
      have hactive := h.active (ne_nil_of_getElem? hc)
      rw [he, length_nil] at hlen
      exact hdrop (h0 (by omega))
    · split
      · rfl
      · split
        · split
          · split
            · omega
            · rfl
          · exact hdrop (h0 (by omega))
        · rename_i hnone
          have hnone : (s.dropColumn i c).activatePrevColumnOnRemoval = none := by
            rw [← not_isSome_iff_eq_none]
            exact fun hsome => hnone ⟨hi, hsome⟩
          split
          · exact hnone
          · rfl
  exact ⟨fun hsome => by simp [hprev] at hsome, .inl hprev⟩

theorem tame_dropped (hc : s.columns[i]? = some c) :
    Tame near s ((s.dropColumn i c).refocused i) := by
  by_cases hi : i = s.activeColumnIdx
  · exact tame_dropped_active hc hi
  · exact tame_dropped_other hc hi

theorem tame_removeColumnByIdx (h : s.removeColumnByIdx i = some (c, s')) : Tame near s s' := by
  obtain ⟨hc, hlike⟩ := removeColumnByIdx_spec h
  exact (tame_dropped hc).trans hlike.tame

/-! Removing a tile and adding one to a column. -/

theorem tame_removeTileByIdx {tileIdx : ℕ} {r : RemovedTile}
    (h : s.removeTileByIdx i tileIdx = some (r, s')) : Tame near s s' := by
  have hinv : s.Inv → s'.Inv := fun hs => hs.removeTileByIdx h
  obtain ⟨c, hc, ht, -, -, ⟨-, hlike⟩ | ⟨hlen, hlike⟩⟩ := removeTileByIdx_spec h
  · exact (tame_dropped hc).trans hlike.tame
  · have hcols := hlike.uids
    refine .of_same hinv (fun _ hr => hlike.restoreOk ?_) hlike.active hlike.prev
      (hcols.trans (map_set_of_eq hc Column.uid_removeTile))
    refine hr.set hc rfl rfl fun hsome => ?_
    dsimp only at hsome
    split at hsome
    · simp at hsome
    · rename_i hcond
      refine ⟨hsome, fun hi hn => ?_⟩
      cases hr : (c.removeTile tileIdx).isNormal with
      | false => rfl
      | true => exact absurd ⟨hi, hn, hr⟩ hcond

theorem tame_addTileToColumn {tileIdx : Option ℕ} {tile : Tile} {activate : Bool}
    (hfresh : tile.id ∉ s.windowIds)
    (h : s.addTileToColumn i tileIdx tile activate = some s') : Tame near s s' := by
  have hinv : s.Inv → s'.Inv := fun hs => hs.addTileToColumn hfresh h
  obtain ⟨c, hc, ht, hlike⟩ := addTileToColumn_spec h
  have hset : ∀ t : ScrollingSpace,
      t = s.replaceColumn i (c.insertTile (tileIdx.getD c.tiles.length) tile activate) →
      (s.Inv → s.RestoreOk → t.RestoreOk) := by
    rintro t rfl - hr
    refine hr.set hc rfl rfl fun hsome => ⟨hsome, fun _ hn => ?_⟩
    rw [Column.isNormal_insertTile activate ht, hn, Bool.and_false]
  by_cases hfocus : activate = true ∧ s.activeColumnIdx ≠ i
  · obtain ⟨rfl, hi⟩ := hfocus
    refine .of_clear hinv (hlike.prev.trans ?_) (hlike.restore.trans ?_) <;>
      simp [focusOn, replaceColumn, setColumn, updateData, hi]
  · have heq : (if activate = true then (s.replaceColumn i
        (c.insertTile (tileIdx.getD c.tiles.length) tile activate)).focusOn i
        else s.replaceColumn i (c.insertTile (tileIdx.getD c.tiles.length) tile activate)) =
        s.replaceColumn i (c.insertTile (tileIdx.getD c.tiles.length) tile activate) := by
      split
      · rename_i ha
        unfold focusOn
        rw [if_pos]
        show s.activeColumnIdx = i
        by_contra hne
        exact hfocus ⟨ha, hne⟩
      · rfl
    rw [heq] at hlike
    exact .of_same hinv (fun hs hr => hlike.restoreOk (hset _ rfl hs hr)) hlike.active hlike.prev
      (hlike.uids.trans (map_set_of_eq hc (Column.uid_insertTile activate)))

/-- A column is added and not activated. -/
theorem tame_addColumn {idx : Option ℕ} (hc : c.Wf) (hfresh : ∀ w ∈ c.windowIds, w ∉ s.windowIds)
    (hnear : near = false → s.columns ≠ [] → s.insertionIdx idx ≠ s.activeColumnIdx)
    (h : s.addColumn idx c false = some s') : Tame near s s' := by
  obtain ⟨hi, hlike⟩ := addColumn_spec h
  exact (tame_inserted hi hc hfresh hnear).trans hlike.tame

theorem tame_addTile {idx : Option ℕ} {tile : Tile} {width : ColumnWidth} {isFullWidth : Bool}
    (hfresh : tile.id ∉ s.windowIds)
    (hnear : near = false → s.columns ≠ [] → s.insertionIdx idx ≠ s.activeColumnIdx)
    (h : s.addTile idx tile false width isFullWidth = some s') : Tame near s s' := by
  refine tame_addColumn (Column.wf_newWithTile ..) ?_ hnear h
  rw [Column.windowIds_newWithTile]
  simpa using hfresh

end Macniri.Layout.ScrollingSpace
