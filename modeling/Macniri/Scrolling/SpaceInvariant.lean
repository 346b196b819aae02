import Macniri.Lib.Run
import Macniri.Scrolling.ColumnOps
import Macniri.Scrolling.Gesture

/-! The representation invariant of a scrolling space, and what its primitive operations do. -/
namespace Macniri.Layout

open List Option

/-- What holds also while the active column is being chosen. -/
structure ScrollingSpace.Core (s : ScrollingSpace) : Prop where
  data : s.data = s.columns.map ColumnData.new
  columns : ∀ c ∈ s.columns, c.Wf
  options : ∀ c ∈ s.columns, c.options = s.options
  resize : ∀ r, s.interactiveResize = some r → r.window ∈ s.windowIds
  ids : s.windowIds.Nodup
  uids : (s.columns.map (·.uid)).Nodup
  uid_lt : ∀ c ∈ s.columns, c.uid < s.nextUid

structure ScrollingSpace.Inv (s : ScrollingSpace) : Prop extends s.Core where
  active : s.columns ≠ [] → s.activeColumnIdx < s.columns.length
  empty : s.columns = [] → s.activeColumnIdx = 0

/-- `s'` differs from `s` in the view onto the columns and in columns that look the same. -/
structure ScrollingSpace.Like (s s' : ScrollingSpace) : Prop where
  columns : Forall₂ Column.Like s.columns s'.columns
  data : s'.data = s.data
  active : s'.activeColumnIdx = s.activeColumnIdx
  resize : s'.interactiveResize = s.interactiveResize
  prev : s'.activatePrevColumnOnRemoval = s.activatePrevColumnOnRemoval
  restore : s'.viewOffsetToRestore = s.viewOffsetToRestore
  options : s'.options = s.options
  nextUid : s'.nextUid = s.nextUid

namespace ScrollingSpace

variable {s s' t : ScrollingSpace}

theorem forall₂_like_refl (cs : List Column) : Forall₂ Column.Like cs cs :=
  forall₂_same.mpr fun c _ => .refl c

theorem Like.refl (s : ScrollingSpace) : s.Like s :=
  ⟨forall₂_like_refl _, rfl, rfl, rfl, rfl, rfl, rfl, rfl⟩

theorem Like.trans (h : s.Like t) (h' : t.Like s') : s.Like s' :=
  ⟨Forall₂.trans_of (fun _ _ _ => Column.Like.trans) h.columns h'.columns, h'.data.trans h.data,
    h'.active.trans h.active, h'.resize.trans h.resize, h'.prev.trans h.prev,
    h'.restore.trans h.restore, h'.options.trans h.options, h'.nextUid.trans h.nextUid⟩

theorem Like.length (h : s.Like s') : s'.columns.length = s.columns.length :=
  h.columns.length_eq.symm

theorem windowIds_perm_of_forall₂ {cs ds : List Column} (h : Forall₂ Column.Like cs ds) :
    (ds.map Column.windowIds).flatten.Perm (cs.map Column.windowIds).flatten := by
  have hperm : Forall₂ Perm (ds.map Column.windowIds) (cs.map Column.windowIds) := by
    rw [forall₂_map_left_iff, forall₂_map_right_iff]
    exact h.flip.imp fun _ _ hl => hl.ids
  exact Forall₂.flatten_perm hperm

theorem Like.windowIds (h : s.Like s') : s'.windowIds.Perm s.windowIds :=
  windowIds_perm_of_forall₂ h.columns

theorem Like.core (h : s.Like s') (hs : s.Core) : s'.Core := by
  refine ⟨?_, ?_, ?_, ?_, ?_, ?_, ?_⟩
  · rw [h.data, hs.data]
    exact (Forall₂.map_eq h.columns fun a b hab => by simp [ColumnData.new, hab.width]).symm
  · exact Forall₂.forall_mem h.columns (fun _ _ hab => hab.wf) hs.columns
  · rw [h.options]
    exact Forall₂.forall_mem h.columns (fun _ _ hab => hab.options.trans) hs.options
  · rw [h.resize]
    exact fun r hr => h.windowIds.mem_iff.mpr (hs.resize r hr)
  · exact h.windowIds.nodup_iff.mpr hs.ids
  · rw [Forall₂.map_eq h.columns fun a b hab => hab.uid]
    exact hs.uids
  · rw [h.nextUid]
    exact Forall₂.forall_mem h.columns (fun _ _ hab hlt => hab.uid ▸ hlt) hs.uid_lt

theorem Like.nil_iff (h : s.Like s') : s'.columns = [] ↔ s.columns = [] := by
  rw [← length_eq_zero_iff, ← length_eq_zero_iff, h.length]

theorem Like.inv (h : s.Like s') (hs : s.Inv) : s'.Inv := by
  refine ⟨h.core hs.toCore, ?_, ?_⟩
  · rw [h.active, h.length]
    exact fun hne => hs.active (mt h.nil_iff.mpr hne)
  · rw [h.active]
    exact fun he => hs.empty (h.nil_iff.mp he)

/-- The identity of the active column. -/
def activeUid (s : ScrollingSpace) : Option ℕ := s.activeColumn.map (·.uid)

theorem Like.activeColumn (h : s.Like s') {c : Column} (hc : s.activeColumn = some c) :
    ∃ c', s'.activeColumn = some c' ∧ c.Like c' := by
  unfold ScrollingSpace.activeColumn at hc ⊢
  rw [h.active]
  exact Forall₂.getElem? h.columns hc

theorem Like.activeUid (h : s.Like s') : s'.activeUid = s.activeUid := by
  unfold ScrollingSpace.activeUid
  cases hc : s.activeColumn with
  | none =>
    have : s'.activeColumn = none := by
      unfold ScrollingSpace.activeColumn at hc ⊢
      rw [List.getElem?_eq_none_iff] at hc ⊢
      rw [h.length, h.active]
      exact hc
    rw [this]
  | some c =>
    obtain ⟨c', hc', hlike⟩ := h.activeColumn hc
    simp [hc', hlike.uid]

/-! Changes of the view only. -/

theorem like_viewOffset (s : ScrollingSpace) (v : ViewOffset) : s.Like { s with viewOffset := v } :=
  ⟨forall₂_like_refl _, rfl, rfl, rfl, rfl, rfl, rfl, rfl⟩

theorem like_animateViewOffset (s : ScrollingSpace) (idx : ℕ) (x : ℚ) :
    s.Like (s.animateViewOffset idx x) := s.like_viewOffset _

theorem like_animateViewOffsetToColumn (s : ScrollingSpace) (targetX : Option ℚ) (idx : ℕ)
    (prevIdx : Option ℕ) : s.Like (s.animateViewOffsetToColumn targetX idx prevIdx) :=
  s.like_viewOffset _

theorem like_animateColumns (s : ScrollingSpace) (p : ℕ → Bool) (x : ℚ) :
    s.Like (s.animateColumns p x) := by
  refine ⟨forall₂_mapIdx fun i c _ => ?_, rfl, rfl, rfl, rfl, rfl, rfl, rfl⟩
  split
  · exact c.like_animateMoveFrom x
  · exact .refl c

/-- Moving the columns on one side of an index, depending on where the active column is. -/
theorem like_animateAround (s : ScrollingSpace) (n : ℕ) (p q : ℕ → Bool) (x y : ℚ) :
    s.Like (if s.activeColumnIdx ≤ n then s.animateColumns p x else s.animateColumns q y) := by
  split
  · exact s.like_animateColumns p x
  · exact s.like_animateColumns q y

/-- The column at the new index becomes active, and what was stored about the old one goes. -/
def focusOn (s : ScrollingSpace) (idx : ℕ) : ScrollingSpace :=
  if s.activeColumnIdx = idx then s
  else
    { s with
      activeColumnIdx := idx
      activatePrevColumnOnRemoval := none
      viewOffsetToRestore := none
      interactiveResize := none }

theorem like_activateColumn (s : ScrollingSpace) (idx : ℕ) :
    (s.focusOn idx).Like (s.activateColumn idx) := by
  unfold focusOn activateColumn
  by_cases hidx : s.activeColumnIdx = idx
  · rw [if_pos hidx]
    split
    · exact .refl s
    · rw [if_pos (by simpa [animateViewOffsetToColumn, animateViewOffset] using hidx)]
      exact s.like_animateViewOffsetToColumn ..
  · rw [if_neg hidx, if_neg (fun h => hidx h.1),
      if_neg (by simpa [animateViewOffsetToColumn, animateViewOffset] using hidx)]
    exact ⟨forall₂_like_refl _, rfl, rfl, rfl, rfl, rfl, rfl, rfl⟩

@[simp] theorem columns_focusOn (s : ScrollingSpace) (idx : ℕ) :
    (s.focusOn idx).columns = s.columns := by
  unfold focusOn
  split <;> rfl

@[simp] theorem activeColumnIdx_focusOn (s : ScrollingSpace) (idx : ℕ) :
    (s.focusOn idx).activeColumnIdx = idx := by
  unfold focusOn
  split
  · assumption
  · rfl

theorem Core.focusOn (h : s.Core) (idx : ℕ) : (s.focusOn idx).Core := by
  unfold ScrollingSpace.focusOn
  split
  · exact h
  · exact ⟨h.data, h.columns, h.options, by simp, h.ids, h.uids, h.uid_lt⟩

/-- Any column can be focused. -/
theorem Core.inv_focusOn (h : s.Core) {idx : ℕ} (hidx : idx < s.columns.length) :
    (s.focusOn idx).Inv := by
  refine ⟨h.focusOn idx, ?_, ?_⟩
  · simpa using fun _ => hidx
  · intro he
    rw [columns_focusOn] at he
    simp [he] at hidx

theorem Inv.focusOn (h : s.Inv) {idx : ℕ} (hidx : idx < s.columns.length ∨ idx = s.activeColumnIdx) :
    (s.focusOn idx).Inv := by
  rcases hidx with hlt | rfl
  · exact h.inv_focusOn hlt
  · unfold ScrollingSpace.focusOn
    rw [if_pos rfl]
    exact h

/-! Inserting a column. -/

/-- The space after a column is inserted, before the view moves. -/
def inserted (s : ScrollingSpace) (i : ℕ) (column : Column) (activate : Bool) : ScrollingSpace :=
  if activate then
    { (s.insertColumn i column).focusOn i with
      activatePrevColumnOnRemoval := if s.columns ≠ [] ∧ i = s.activeColumnIdx + 1
        then some s.viewOffset.stationary else none }
  else if s.columns ≠ [] ∧ i ≤ s.activeColumnIdx then
    { s.insertColumn i column with activeColumnIdx := s.activeColumnIdx + 1 }
  else s.insertColumn i column

theorem Like.withPrev (h : s.Like t) (p : Option ℚ) :
    ({ s with activatePrevColumnOnRemoval := p } : ScrollingSpace).Like
      { t with activatePrevColumnOnRemoval := p } :=
  ⟨h.columns, h.data, h.active, h.resize, rfl, h.restore, h.options, h.nextUid⟩

theorem Like.focusOn (h : s.Like t) (i : ℕ) : (s.focusOn i).Like (t.focusOn i) := by
  unfold ScrollingSpace.focusOn
  rw [h.active]
  split
  · exact h
  · exact ⟨h.columns, h.data, rfl, rfl, rfl, rfl, h.options, h.nextUid⟩

theorem like_activateInserted (s : ScrollingSpace) (i : ℕ) (column : Column) :
    (s.inserted i column true).Like
      ((s.insertColumn i column).activateInserted i s.columns.isEmpty) := by
  have hactivate (u : ScrollingSpace) (h : (s.insertColumn i column).Like u) :
      ((s.insertColumn i column).focusOn i).Like (u.activateColumn i) :=
    (h.focusOn i).trans (u.like_activateColumn i)
  unfold inserted activateInserted
  have hidx : (s.insertColumn i column).activeColumnIdx = s.activeColumnIdx := rfl
  have hoff : (s.insertColumn i column).viewOffset = s.viewOffset := rfl
  cases hempty : s.columns with
  | nil => simpa using (hactivate _ (like_viewOffset _ _)).withPrev none
  | cons c cs => simpa [hidx, hoff] using (hactivate _ (.refl _)).withPrev _

theorem addColumn_spec {idx : Option ℕ} {column : Column} {activate : Bool}
    (h : s.addColumn idx column activate = some s') :
    s.insertionIdx idx ≤ s.columns.length ∧
      (s.inserted (s.insertionIdx idx) column activate).Like s' := by
  unfold addColumn at h
  dsimp only at h
  split at h
  · simp at h
  · rename_i hle
    refine ⟨Nat.le_of_not_lt hle, ?_⟩
    obtain rfl := some.inj h
    refine Like.trans ?_ (like_animateAround ..)
    cases activate with
    | true => exact s.like_activateInserted _ _
    | false =>
      unfold inserted
      simp only [Bool.false_eq_true, if_false, Bool.and_eq_true, Bool.not_eq_true',
        isEmpty_eq_false_iff, decide_eq_true_eq]
      exact .refl _

theorem arrangement_insertColumn (s : ScrollingSpace) (i : ℕ) (column : Column) :
    (s.insertColumn i column).arrangement = s.arrangement.insertIdx i column.windowIds := by
  unfold arrangement insertColumn
  rw [map_insertIdx]
  exact congrArg _ Column.windowIds_updateConfig

theorem Inv.insertColumn (h : s.Inv) {i : ℕ} {column : Column} (hi : i ≤ s.columns.length)
    (hc : column.Wf) (hfresh : ∀ w ∈ column.windowIds, w ∉ s.windowIds) :
    (s.insertColumn i column).Inv := by
  have hadopt : (s.adopt column).Wf := by
    have hw := hc.updateConfig s.viewSize s.workingArea s.parentArea s.scale s.options
    exact ⟨⟨⟨hw.sizes, hw.heights, hw.presetWidth, hw.presetHeight, hw.ids⟩, hw.nonempty, hw.active,
      hw.single⟩, hw.modes⟩
  have hlen : (s.insertColumn i column).columns.length = s.columns.length + 1 :=
    length_insertIdx_of_le_length hi _
  have hids : (s.insertColumn i column).windowIds.Perm (column.windowIds ++ s.windowIds) := by
    unfold ScrollingSpace.windowIds
    rw [arrangement_insertColumn]
    exact flatten_insertIdx_perm (by simpa [arrangement] using hi)
  have huids : ((s.insertColumn i column).columns.map (·.uid)).Perm
      (s.nextUid :: s.columns.map (·.uid)) := (perm_insertIdx _ s.columns hi).map _
  refine ⟨⟨?_, ?_, ?_, ?_, ?_, ?_, ?_⟩, ?_, ?_⟩
  · show s.data.insertIdx i _ = (s.columns.insertIdx i _).map _
    rw [h.data, map_insertIdx]
  · intro c hmem
    rcases eq_or_mem_of_mem_insertIdx hmem with rfl | hmem
    · exact hadopt
    · exact h.columns c hmem
  · intro c hmem
    rcases eq_or_mem_of_mem_insertIdx hmem with rfl | hmem
    · exact Column.options_updateConfig
    · exact h.options c hmem
  · exact fun r hr => hids.mem_iff.mpr (mem_append_right _ (h.resize r hr))
  · exact hids.nodup_iff.mpr (nodup_append.mpr
      ⟨hc.ids, h.ids, fun a ha b hb hab => hfresh a ha (hab ▸ hb)⟩)
  · refine huids.nodup_iff.mpr (nodup_cons.mpr ⟨fun hmem => ?_, h.uids⟩)
    obtain ⟨c, hcm, heq⟩ := List.mem_map.mp hmem
    exact absurd (h.uid_lt c hcm) (by omega)
  · intro c hmem
    rcases eq_or_mem_of_mem_insertIdx hmem with rfl | hmem
    · exact Nat.lt_succ_self _
    · exact (h.uid_lt c hmem).trans (Nat.lt_succ_self _)
  · intro _
    rw [hlen]
    by_cases he : s.columns = []
    · exact (h.empty he).trans_lt (Nat.succ_pos _)
    · exact (h.active he).trans (Nat.lt_succ_self _)
  · intro he
    simp [he] at hlen

theorem Inv.inserted (h : s.Inv) {i : ℕ} {column : Column} (hi : i ≤ s.columns.length)
    (hc : column.Wf) (hfresh : ∀ w ∈ column.windowIds, w ∉ s.windowIds) (activate : Bool) :
    (s.inserted i column activate).Inv := by
  have hins := h.insertColumn hi hc hfresh
  have hlen : (s.insertColumn i column).columns.length = s.columns.length + 1 :=
    length_insertIdx_of_le_length hi _
  unfold ScrollingSpace.inserted
  split
  · have hf : ((s.insertColumn i column).focusOn i).Inv := hins.focusOn (.inl (by omega))
    exact ⟨⟨hf.data, hf.columns, hf.options, hf.resize, hf.ids, hf.uids, hf.uid_lt⟩, hf.active,
      hf.empty⟩
  · split
    · rename_i hne
      refine ⟨⟨hins.data, hins.columns, hins.options, hins.resize, hins.ids, hins.uids,
        hins.uid_lt⟩, fun _ => ?_, fun he => ?_⟩
      · have := h.active hne.1
        dsimp only
        omega
      · have he : (s.insertColumn i column).columns = [] := he
        simp [he] at hlen
    · exact hins

theorem Inv.addColumn (h : s.Inv) {idx : Option ℕ} {column : Column} {activate : Bool}
    (hc : column.Wf) (hfresh : ∀ w ∈ column.windowIds, w ∉ s.windowIds)
    (hs : s.addColumn idx column activate = some s') : s'.Inv := by
  obtain ⟨hi, hlike⟩ := addColumn_spec hs
  exact hlike.inv (h.inserted hi hc hfresh activate)

/-! Removing a column. -/

/-- The space after the column at `i` is dropped, before the view moves. -/
def refocused (s : ScrollingSpace) (i : ℕ) : ScrollingSpace :=
  if s.columns = [] then s
  else if i < s.activeColumnIdx then
    { s with activeColumnIdx := s.activeColumnIdx - 1, activatePrevColumnOnRemoval := none }
  else if i = s.activeColumnIdx ∧ s.activatePrevColumnOnRemoval.isSome then
    if 0 < i then s.focusOn (s.activeColumnIdx - 1) else s
  else s.focusOn (min s.activeColumnIdx (s.columns.length - 1))

theorem like_refocusAfterRemoval (s : ScrollingSpace) (i : ℕ) :
    (s.refocused i).Like (s.refocusAfterRemoval i) := by
  unfold refocused refocusAfterRemoval
  split
  · exact .refl s
  · split
    · exact .refl _
    · by_cases hi : i = s.activeColumnIdx
      · cases hp : s.activatePrevColumnOnRemoval with
        | none =>
          simp only [hi, if_true, isSome_none, Bool.false_eq_true, and_false, if_false]
          exact s.like_activateColumn _
        | some x =>
          simp only [hi, if_true, isSome_some, and_self]
          split
          · exact (s.like_activateColumn _).trans ((like_animateViewOffset ..).trans
              (like_animateViewOffsetToColumn ..))
          · exact .refl s
      · simp only [hi, if_false, false_and]
        exact s.like_activateColumn _

theorem Like.dropColumn (h : s.Like t) (i : ℕ) (c : Column) :
    (s.dropColumn i c).Like (t.dropColumn i c) := by
  refine ⟨Forall₂.eraseIdx h.columns i, ?_, h.active, ?_, ?_, ?_, h.options, h.nextUid⟩
  · exact congrArg (·.eraseIdx i) h.data
  · simp only [ScrollingSpace.dropColumn, h.resize]
  · simp only [ScrollingSpace.dropColumn, h.active, h.prev]
  · simp only [ScrollingSpace.dropColumn, h.active, h.restore]

theorem Like.refocused (h : s.Like t) (i : ℕ) : (s.refocused i).Like (t.refocused i) := by
  unfold ScrollingSpace.refocused
  simp only [h.nil_iff, h.active, h.prev, h.length]
  split
  · exact h
  · split
    · exact ⟨h.columns, h.data, rfl, h.resize, rfl, h.restore, h.options, h.nextUid⟩
    · split
      · split
        · exact h.focusOn _
        · exact h
      · exact h.focusOn _

theorem removeColumnByIdx_spec {i : ℕ} {c : Column} (h : s.removeColumnByIdx i = some (c, s')) :
    s.columns[i]? = some c ∧ ((s.dropColumn i c).refocused i).Like s' := by
  unfold removeColumnByIdx at h
  obtain ⟨c', hc, h⟩ := of_bind h
  obtain ⟨rfl, rfl⟩ := pair_inj h
  refine ⟨hc, ?_⟩
  exact Like.trans (Like.refocused (Like.dropColumn (like_animateAround ..) i _) i)
    (like_refocusAfterRemoval _ i)

theorem windowIds_dropColumn {i : ℕ} {c : Column} (hc : s.columns[i]? = some c) :
    s.windowIds.Perm (c.windowIds ++ (s.dropColumn i c).windowIds) := by
  have harr : s.arrangement[i]? = some c.windowIds := by simp [arrangement, hc]
  have hdrop : (s.dropColumn i c).arrangement = s.arrangement.eraseIdx i := by
    simp [arrangement, dropColumn, eraseIdx_map]
  unfold ScrollingSpace.windowIds
  rw [hdrop]
  exact perm_flatten_eraseIdx harr

theorem Core.dropColumn (h : s.Core) {i : ℕ} {c : Column} (hc : s.columns[i]? = some c) :
    (s.dropColumn i c).Core := by
  have hperm := windowIds_dropColumn hc
  have hsub : (s.dropColumn i c).columns.Sublist s.columns := eraseIdx_sublist _ _
  refine ⟨?_, fun d hd => h.columns d (hsub.subset hd), fun d hd => h.options d (hsub.subset hd),
    ?_, ?_, h.uids.sublist (hsub.map _), fun d hd => h.uid_lt d (hsub.subset hd)⟩
  · show s.data.eraseIdx i = (s.columns.eraseIdx i).map _
    rw [h.data, eraseIdx_map]
  · intro r hr
    obtain ⟨hr, hnot⟩ := filter_eq_some_iff.mp hr
    have hmem := hperm.mem_iff.mp (h.resize r hr)
    rcases mem_append.mp hmem with hin | hin
    · simp [Column.mem_windowIds.mp hin] at hnot
    · exact hin
  · exact (nodup_append.mp (hperm.nodup_iff.mp h.ids)).2.1

theorem Inv.refocused (h : s.Inv) {i : ℕ} {c : Column} (hc : s.columns[i]? = some c) :
    ((s.dropColumn i c).refocused i).Inv := by
  have hcore := h.toCore.dropColumn hc
  have hi := lt_length_of_getElem? hc
  have hlen : (s.dropColumn i c).columns.length = s.columns.length - 1 :=
    length_eraseIdx_of_lt hi
  have hidx : (s.dropColumn i c).activeColumnIdx = s.activeColumnIdx := rfl
  have hactive := h.active (ne_nil_of_getElem? hc)
  have hne : (s.dropColumn i c).columns ≠ [] → 0 < s.columns.length - 1 := fun hne => by
    rw [← hlen]
    exact length_pos_iff.mpr hne
  unfold ScrollingSpace.refocused
  split
  · rename_i he
    refine ⟨hcore, fun hne => absurd he hne, fun _ => ?_⟩
    rw [he] at hlen
    simp only [length_nil] at hlen
    omega
  · rename_i hnil
    have hpos := hne hnil
    split
    · rename_i hlt
      refine ⟨⟨hcore.data, hcore.columns, hcore.options, hcore.resize, hcore.ids, hcore.uids,
        hcore.uid_lt⟩, fun _ => ?_, fun he => absurd he hnil⟩
      dsimp only
      omega
    · split
      · split
        · exact hcore.inv_focusOn (by omega)
        · refine ⟨hcore, fun _ => ?_, fun he => absurd he hnil⟩
          omega
      · exact hcore.inv_focusOn (by omega)

/-! Adding a tile to a column and removing one. -/

/-- The space with another column in place of one of its columns. -/
def replaceColumn (s : ScrollingSpace) (i : ℕ) (c : Column) : ScrollingSpace :=
  (s.updateData i c).setColumn i c

theorem addTileToColumn_spec {i : ℕ} {tileIdx : Option ℕ} {tile : Tile} {activate : Bool}
    (h : s.addTileToColumn i tileIdx tile activate = some s') :
    ∃ c, s.columns[i]? = some c ∧ tileIdx.getD c.tiles.length ≤ c.tiles.length ∧
      (if activate then (s.replaceColumn i
          (c.insertTile (tileIdx.getD c.tiles.length) tile activate)).focusOn i
        else s.replaceColumn i (c.insertTile (tileIdx.getD c.tiles.length) tile activate)).Like
        s' := by
  unfold addTileToColumn at h
  obtain ⟨c, hc, h⟩ := of_bind h
  dsimp only at h
  split at h
  · simp at h
  · rename_i hle
    refine ⟨c, hc, Nat.le_of_not_lt hle, ?_⟩
    obtain rfl := some.inj h
    refine Like.trans ?_ (like_animateAround ..)
    cases activate with
    | false => exact .refl _
    | true =>
      simp only [if_true, Bool.true_and, decide_eq_true_eq]
      split
      · exact like_activateColumn _ i
      · rename_i heq
        have hactive : (s.replaceColumn i (c.insertTile (tileIdx.getD c.tiles.length) tile
            true)).activeColumnIdx = i := not_not.mp heq
        unfold focusOn
        rw [if_pos hactive]
        exact .refl _

theorem removeTileByIdx_spec {i tileIdx : ℕ} {r : RemovedTile}
    (h : s.removeTileByIdx i tileIdx = some (r, s')) :
    ∃ c, s.columns[i]? = some c ∧ c.tiles[tileIdx]? = some r.tile ∧ r.width = c.width ∧
      r.isFullWidth = c.isFullWidth ∧
      ((c.tiles.length = 1 ∧ ((s.dropColumn i c).refocused i).Like s') ∨
        (c.tiles.length ≠ 1 ∧
          ({ s.replaceColumn i (c.removeTile tileIdx) with
              viewOffsetToRestore :=
                if i = s.activeColumnIdx ∧ c.isNormal = false ∧ (c.removeTile tileIdx).isNormal
                then none else s.viewOffsetToRestore
              interactiveResize := s.interactiveResize.filter fun resize =>
                r.tile.id != resize.window } : ScrollingSpace).Like s')) := by
  unfold removeTileByIdx at h
  obtain ⟨c, hc, h⟩ := of_bind h
  split at h
  · rename_i hlen
    obtain ⟨⟨c', u⟩, hremove, h⟩ := of_bind h
    obtain ⟨hc', hlike⟩ := removeColumnByIdx_spec hremove
    obtain rfl := some.inj (hc.symm.trans hc')
    obtain ⟨tile, htile, h⟩ := of_bind h
    obtain ⟨rfl, rfl⟩ := pair_inj h
    exact ⟨c, hc, htile, rfl, rfl, .inl ⟨hlen, hlike⟩⟩
  · rename_i hlen
    obtain ⟨tile, htile, h⟩ := of_bind h
    obtain ⟨rfl, rfl⟩ := pair_inj h
    refine ⟨c, hc, htile, rfl, rfl, .inr ⟨hlen, ?_⟩⟩
    simp only [Bool.and_eq_true, Bool.not_eq_true']
    exact like_animateAround ..

theorem arrangement_replaceColumn (s : ScrollingSpace) (i : ℕ) (c : Column) :
    (s.replaceColumn i c).arrangement = s.arrangement.set i c.windowIds := by
  simp [arrangement, replaceColumn, setColumn, updateData, map_set]

theorem Inv.replaceColumn (h : s.Inv) {i : ℕ} {c c' : Column} (hc : s.columns[i]? = some c)
    (hwf : c'.Wf) (huid : c'.uid = c.uid) (hoptions : c'.options = c.options)
    (hids : (s.replaceColumn i c').windowIds.Nodup)
    (hresize : ∀ r, s.interactiveResize = some r → r.window ∈ (s.replaceColumn i c').windowIds) :
    (s.replaceColumn i c').Inv := by
  have hmem := mem_of_getElem? hc
  have hlen : (s.replaceColumn i c').columns.length = s.columns.length := length_set
  refine ⟨⟨?_, ?_, ?_, hresize, hids, ?_, ?_⟩, fun hne => ?_, fun he => ?_⟩
  · show s.data.set i _ = (s.columns.set i c').map _
    rw [h.data, map_set]
  · intro d hd
    rcases mem_of_mem_set hd with rfl | hd
    · exact hwf
    · exact h.columns d hd
  · intro d hd
    rcases mem_of_mem_set hd with rfl | hd
    · exact hoptions.trans (h.options c hmem)
    · exact h.options d hd
  · have huids : (s.columns.set i c').map (·.uid) = s.columns.map (·.uid) := map_set_of_eq hc huid
    exact (Perm.of_eq huids).nodup_iff.mpr h.uids
  · intro d hd
    rcases mem_of_mem_set hd with rfl | hd
    · exact huid ▸ h.uid_lt c hmem
    · exact h.uid_lt d hd
  · rw [hlen]
    exact h.active (ne_nil_of_getElem? hc)
  · have : s.columns.length = 0 := by
      rw [← hlen, he]
      rfl
    exact absurd (lt_length_of_getElem? hc) (by omega)

theorem arrangement_getElem? {i : ℕ} {c : Column} (hc : s.columns[i]? = some c) :
    s.arrangement[i]? = some c.windowIds := by simp [arrangement, hc]

theorem windowIds_insertTile {i t : ℕ} {c : Column} (tile : Tile) (activate : Bool)
    (hc : s.columns[i]? = some c) (ht : t ≤ c.tiles.length) :
    (s.replaceColumn i (c.insertTile t tile activate)).windowIds.Perm (tile.id :: s.windowIds) := by
  unfold ScrollingSpace.windowIds
  rw [arrangement_replaceColumn, Column.windowIds_insertTile]
  exact flatten_set_perm_cons (arrangement_getElem? hc)
    (perm_insertIdx _ _ (by simpa [Column.windowIds] using ht))

theorem Inv.addTileToColumn (h : s.Inv) {i : ℕ} {tileIdx : Option ℕ} {tile : Tile}
    {activate : Bool} (hfresh : tile.id ∉ s.windowIds)
    (hs : s.addTileToColumn i tileIdx tile activate = some s') : s'.Inv := by
  obtain ⟨c, hc, ht, hlike⟩ := addTileToColumn_spec hs
  have hperm := windowIds_insertTile tile activate hc ht
  have hlt := lt_length_of_getElem? hc
  have hsub : ∀ w ∈ c.windowIds, w ∈ s.windowIds := fun w hw =>
    mem_flatten.mpr ⟨_, mem_of_getElem? (arrangement_getElem? hc), hw⟩
  have hwf := (h.columns c (mem_of_getElem? hc)).insertTile activate ht
    (fun hin => hfresh (hsub _ hin))
  have hinv := h.replaceColumn hc hwf (Column.uid_insertTile activate)
    (Column.options_insertTile activate)
    (hperm.nodup_iff.mpr (nodup_cons.mpr ⟨hfresh, h.ids⟩))
    (fun r hr => hperm.mem_iff.mpr (mem_cons_of_mem _ (h.resize r hr)))
  have hlen : (s.replaceColumn i (c.insertTile (tileIdx.getD c.tiles.length) tile
      activate)).columns.length = s.columns.length := length_set
  refine hlike.inv ?_
  split
  · exact hinv.focusOn (.inl (hlen ▸ hlt))
  · exact hinv

theorem windowIds_removeTile {i t : ℕ} {c : Column} {tile : Tile} (hc : s.columns[i]? = some c)
    (ht : c.tiles[t]? = some tile) :
    s.windowIds.Perm (tile.id :: (s.replaceColumn i (c.removeTile t)).windowIds) := by
  unfold ScrollingSpace.windowIds
  rw [arrangement_replaceColumn, Column.windowIds_removeTile]
  refine perm_cons_flatten_set (arrangement_getElem? hc) ?_
  have hid : c.windowIds[t]? = some tile.id := by simp [Column.windowIds, ht]
  obtain ⟨hlt, heq⟩ := List.getElem?_eq_some_iff.mp hid
  exact heq ▸ (getElem_cons_eraseIdx_perm hlt).symm

theorem Inv.filterResize (h : s.Inv) (p : InteractiveResize → Bool) :
    ({ s with interactiveResize := s.interactiveResize.filter p } : ScrollingSpace).Inv :=
  ⟨⟨h.data, h.columns, h.options, fun r hr => h.resize r (filter_eq_some_iff.mp hr).1, h.ids,
    h.uids, h.uid_lt⟩, h.active, h.empty⟩

theorem Inv.withFlags (h : s.Inv) (prev restore : Option ℚ) :
    ({ s with activatePrevColumnOnRemoval := prev, viewOffsetToRestore := restore } :
      ScrollingSpace).Inv :=
  ⟨⟨h.data, h.columns, h.options, h.resize, h.ids, h.uids, h.uid_lt⟩, h.active, h.empty⟩

theorem Inv.removeTileByIdx (h : s.Inv) {i t : ℕ} {r : RemovedTile}
    (hs : s.removeTileByIdx i t = some (r, s')) : s'.Inv := by
  obtain ⟨c, hc, ht, -, -, ⟨-, hlike⟩ | ⟨hlen, hlike⟩⟩ := removeTileByIdx_spec hs
  · exact hlike.inv (h.refocused hc)
  · refine hlike.inv ?_
    have hwf := h.columns c (mem_of_getElem? hc)
    have hpos := hwf.length_pos
    have hperm := windowIds_removeTile hc ht
    have hnodup := nodup_cons.mp (hperm.nodup_iff.mp h.ids)
    have hfilter := h.filterResize fun resize => r.tile.id != resize.window
    -- The resized window stays unless it is the removed one, and then the resize is stopped.
    have hinv := hfilter.replaceColumn hc (hwf.removeTile (by omega) (lt_length_of_getElem? ht))
      Column.uid_removeTile Column.options_removeTile hnodup.2 (fun resize hr => by
        obtain ⟨hr, hne⟩ := filter_eq_some_iff.mp hr
        rcases mem_cons.mp (hperm.mem_iff.mp (h.resize resize hr)) with heq | hin
        · simp [heq] at hne
        · exact hin)
    exact hinv.withFlags _ _

@[simp] theorem columns_refocused (s : ScrollingSpace) (i : ℕ) :
    (s.refocused i).columns = s.columns := by
  unfold refocused
  split
  · rfl
  · split
    · rfl
    · split
      · split <;> simp
      · simp

/-- The windows after a removal are those before it, without the removed one. -/
theorem removeTileByIdx_perm {i t : ℕ} {r : RemovedTile}
    (hs : s.removeTileByIdx i t = some (r, s')) : s.windowIds.Perm (r.tile.id :: s'.windowIds) := by
  obtain ⟨c, hc, ht, -, -, ⟨hlen, hlike⟩ | ⟨-, hlike⟩⟩ := removeTileByIdx_spec hs
  · have hids : c.windowIds = [r.tile.id] := by
      obtain ⟨tile, htiles⟩ := length_eq_one_iff.mp hlen
      have ht0 : t = 0 := by
        have := lt_length_of_getElem? ht
        omega
      simp_all [Column.windowIds]
    have hdrop := windowIds_dropColumn hc
    have hcols : ((s.dropColumn i c).refocused i).windowIds = (s.dropColumn i c).windowIds := by
      simp [ScrollingSpace.windowIds, arrangement]
    rw [hids, ← hcols] at hdrop
    exact hdrop.trans (hlike.windowIds.symm.cons _)
  · exact (windowIds_removeTile hc ht).trans (hlike.windowIds.symm.cons _)

theorem addTileToColumn_perm {i : ℕ} {tileIdx : Option ℕ} {tile : Tile} {activate : Bool}
    (hs : s.addTileToColumn i tileIdx tile activate = some s') :
    s'.windowIds.Perm (tile.id :: s.windowIds) := by
  obtain ⟨c, hc, ht, hlike⟩ := addTileToColumn_spec hs
  have hperm := windowIds_insertTile tile activate hc ht
  refine hlike.windowIds.trans ?_
  split
  · simpa [ScrollingSpace.windowIds, arrangement] using hperm
  · exact hperm

theorem addColumn_perm {idx : Option ℕ} {column : Column} {activate : Bool}
    (hs : s.addColumn idx column activate = some s') :
    s'.windowIds.Perm (column.windowIds ++ s.windowIds) := by
  obtain ⟨hi, hlike⟩ := addColumn_spec hs
  have hcols : (s.inserted (s.insertionIdx idx) column activate).columns =
      (s.insertColumn (s.insertionIdx idx) column).columns := by
    unfold inserted
    split
    · simp
    · split <;> rfl
  refine hlike.windowIds.trans ?_
  have harr := arrangement_insertColumn s (s.insertionIdx idx) column
  unfold ScrollingSpace.windowIds arrangement at *
  rw [hcols, harr]
  exact flatten_insertIdx_perm (by simpa using hi)

theorem addTile_perm {idx : Option ℕ} {tile : Tile} {activate : Bool} {width : ColumnWidth}
    {isFullWidth : Bool} (hs : s.addTile idx tile activate width isFullWidth = some s') :
    s'.windowIds.Perm (tile.id :: s.windowIds) := by
  have hperm := addColumn_perm hs
  rwa [Column.windowIds_newWithTile] at hperm

theorem Inv.addTile (h : s.Inv) {idx : Option ℕ} {tile : Tile} {activate : Bool}
    {width : ColumnWidth} {isFullWidth : Bool} (hfresh : tile.id ∉ s.windowIds)
    (hs : s.addTile idx tile activate width isFullWidth = some s') : s'.Inv := by
  refine h.addColumn (Column.wf_newWithTile ..) ?_ hs
  rw [Column.windowIds_newWithTile]
  simpa using hfresh

end ScrollingSpace

end Macniri.Layout
