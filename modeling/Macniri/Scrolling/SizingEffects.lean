import Macniri.Lib.Run
import Macniri.Scrolling.MoveEffects

/-! Fullscreen, maximized and tabbed columns, and client commits. -/
namespace Macniri.Layout

open List Option

/-- What a column keeps when its windows change their size or mode. -/
structure Column.Kin (c c' : Column) : Prop where
  uid : c'.uid = c.uid
  ids : c'.windowIds.Perm c.windowIds
  options : c'.options = c.options

/-- A column that may be pending fullscreen with several tiles that are not tabbed. -/
structure Column.Loose (c : Column) : Prop extends c.Parts where
  nonempty : c.tiles ≠ []
  active : c.activeTileIdx < c.tiles.length
  modes : ∀ t ∈ c.tiles, t.window.pendingSizingMode = c.pendingSizingMode

namespace Column

variable {c c' c'' : Column}

theorem Kin.refl (c : Column) : c.Kin c := ⟨rfl, .refl _, rfl⟩

theorem Kin.trans (h : c.Kin c') (h' : c'.Kin c'') : c.Kin c'' :=
  ⟨h'.uid.trans h.uid, h'.ids.trans h.ids, h'.options.trans h.options⟩

theorem Seen.kin (h : c.Seen c') : c.Kin c' := ⟨h.uid, h.ids, h.options⟩

theorem Wf.loose (h : c.Wf) : c.Loose :=
  ⟨h.toParts, h.nonempty, h.active, h.modes⟩

theorem Loose.wf (h : c.Loose)
    (hs : c.pendingSizingMode ≠ .normal → c.tiles.length = 1 ∨ c.displayMode = .tabbed) : c.Wf :=
  ⟨⟨h.toParts, h.nonempty, h.active, hs⟩, h.modes⟩

theorem Parts.loose_updateTileSizes (h : c.Parts) (hne : c.tiles ≠ [])
    (hactive : c.activeTileIdx < c.tiles.length) : c.updateTileSizes.Loose where
  sizes := by simpa using h.sizes
  heights := by simpa using h.heights
  presetWidth := by simpa using h.presetWidth
  presetHeight := by simpa using h.presetHeight
  ids := by simpa using h.ids
  nonempty := by
    rw [← length_pos_iff, length_updateTileSizes]
    exact length_pos_iff.mpr hne
  active := by simpa using hactive
  modes := by simpa using modes_updateTileSizes h.length_data

/-- If the column were tabbed, it would be well-formed. -/
theorem Loose.wf_tabbed (h : c.Loose) : ({ c with displayMode := .tabbed } : Column).Wf :=
  ⟨⟨⟨h.sizes, h.heights, h.presetWidth, h.presetHeight, h.ids⟩, h.nonempty, h.active,
    fun _ => .inr rfl⟩, h.modes⟩

theorem Loose.cancelResize (h : c.Loose) : c.cancelResize.Loose := by
  have hw := (like_cancelResize _).wf h.wf_tabbed
  exact ⟨⟨hw.sizes, hw.heights, hw.presetWidth, hw.presetHeight, hw.ids⟩, hw.nonempty, hw.active,
    hw.modes⟩

theorem Loose.setFullscreen (h : c.Loose) (v : Bool) : (c.setFullscreen v).Loose := by
  unfold Column.setFullscreen
  split
  · exact h
  · exact Parts.loose_updateTileSizes ⟨h.sizes, h.heights, h.presetWidth, h.presetHeight, h.ids⟩
      h.nonempty h.active

theorem Loose.setMaximized (h : c.Loose) (v : Bool) : (c.setMaximized v).Loose := by
  unfold Column.setMaximized
  split
  · exact h
  · exact Parts.loose_updateTileSizes ⟨h.sizes, h.heights, h.presetWidth, h.presetHeight, h.ids⟩
      h.nonempty h.active

theorem Loose.display (h : c.Loose) (d : ColumnDisplay) : (c.setColumnDisplay d).Loose := by
  unfold Column.setColumnDisplay
  split
  · exact h
  · exact Parts.loose_updateTileSizes ⟨h.sizes, h.heights, h.presetWidth, h.presetHeight, h.ids⟩
      h.nonempty h.active

theorem seen_setFullscreen (c : Column) (v : Bool) : c.Seen (c.setFullscreen v) := by
  unfold Column.setFullscreen
  split
  · exact .refl c
  · refine Seen.trans ?_ (seen_updateTileSizes _)
    exact seen_of_tiles rfl rfl rfl rfl rfl rfl

theorem seen_setMaximized (c : Column) (v : Bool) : c.Seen (c.setMaximized v) := by
  unfold Column.setMaximized
  split
  · exact .refl c
  · refine Seen.trans ?_ (seen_updateTileSizes _)
    exact seen_of_tiles rfl rfl rfl rfl rfl rfl

theorem kin_setColumnDisplay (c : Column) (d : ColumnDisplay) :
    c.Kin (c.setColumnDisplay d) ∧ (c.setColumnDisplay d).isNormal = c.isNormal := by
  unfold Column.setColumnDisplay
  split
  · exact ⟨.refl c, rfl⟩
  · have hkin : c.Kin { c with displayMode := d } := ⟨rfl, .refl _, rfl⟩
    exact ⟨hkin.trans (seen_updateTileSizes _).kin, isNormal_updateTileSizes _⟩

@[simp] theorem displayMode_setColumnDisplay (c : Column) (d : ColumnDisplay) :
    (c.setColumnDisplay d).displayMode = d := by
  unfold Column.setColumnDisplay
  split
  · assumption
  · simp

end Column

namespace ScrollingSpace

variable {s s' t : ScrollingSpace} {near : Bool} {i : ℕ} {c c' c'' : Column}

/-- `s'` is `s` with another column in place of `c`, and maybe without the interactive resize. -/
structure Replaced (i : ℕ) (c c' : Column) (s s' : ScrollingSpace) : Prop where
  old : s.columns[i]? = some c
  oldData : s.data[i]? = some (ColumnData.new c)
  kin : c.Kin c'
  columns : s'.columns = s.columns.set i c'
  data : s'.data = s.data.set i (ColumnData.new c')
  active : s'.activeColumnIdx = s.activeColumnIdx
  prev : s'.activatePrevColumnOnRemoval = s.activatePrevColumnOnRemoval
  restore : s'.viewOffsetToRestore = s.viewOffsetToRestore
  options : s'.options = s.options
  nextUid : s'.nextUid = s.nextUid
  resize : ∀ r, s'.interactiveResize = some r → s.interactiveResize = some r

theorem Replaced.new (h : Replaced i c c' s s') : s'.columns[i]? = some c' := by
  rw [h.columns, getElem?_set_self (lt_length_of_getElem? h.old)]

theorem Replaced.newData (h : Replaced i c c' s s') : s'.data[i]? = some (ColumnData.new c') := by
  rw [h.data, getElem?_set_self (lt_length_of_getElem? h.oldData)]

theorem Replaced.refl (hc : s.columns[i]? = some c) (hd : s.data[i]? = some (ColumnData.new c)) :
    Replaced i c c s s :=
  ⟨hc, hd, .refl c, (set_self_of_getElem? hc).symm, (set_self_of_getElem? hd).symm, rfl, rfl, rfl,
    rfl, rfl, fun _ h => h⟩

theorem Replaced.trans (h : Replaced i c c' s t) (h' : Replaced i c' c'' t s') :
    Replaced i c c'' s s' :=
  ⟨h.old, h.oldData, h.kin.trans h'.kin, by rw [h'.columns, h.columns, List.set_set],
    by rw [h'.data, h.data, List.set_set], h'.active.trans h.active, h'.prev.trans h.prev,
    h'.restore.trans h.restore, h'.options.trans h.options, h'.nextUid.trans h.nextUid,
    fun r hr => h.resize r (h'.resize r hr)⟩

theorem Replaced.windowIds (h : Replaced i c c' s s') : s'.windowIds.Perm s.windowIds := by
  unfold ScrollingSpace.windowIds arrangement
  rw [h.columns, map_set]
  exact flatten_set_perm_of_perm (by simp [h.old]) h.kin.ids

theorem Replaced.inv (h : Replaced i c c' s s') (hs : s.Inv) (hc : c'.Wf) : s'.Inv := by
  have hmem := mem_of_getElem? h.old
  have hlen : s'.columns.length = s.columns.length := by rw [h.columns, length_set]
  have hcases {d : Column} (hd : d ∈ s'.columns) : d = c' ∨ d ∈ s.columns := by
    rw [h.columns] at hd
    exact mem_of_mem_set hd
  refine ⟨⟨?_, fun d hd => ?_, fun d hd => ?_, fun r hr => ?_, ?_, ?_, fun d hd => ?_⟩,
    fun hne => ?_, fun he => ?_⟩
  · rw [h.data, h.columns, hs.data, map_set]
  · rcases hcases hd with rfl | hd
    · exact hc
    · exact hs.columns d hd
  · rw [h.options]
    rcases hcases hd with rfl | hd
    · exact h.kin.options.trans (hs.options c hmem)
    · exact hs.options d hd
  · exact h.windowIds.mem_iff.mpr (hs.resize r (h.resize r hr))
  · exact h.windowIds.nodup_iff.mpr hs.ids
  · rw [h.columns, map_set_of_eq h.old h.kin.uid]
    exact hs.uids
  · rw [h.nextUid]
    rcases hcases hd with rfl | hd
    · exact h.kin.uid ▸ hs.uid_lt c hmem
    · exact hs.uid_lt d hd
  · rw [h.active, hlen]
    exact hs.active (ne_nil_of_getElem? h.old)
  · have : s.columns.length = 0 := by rw [← hlen, he, length_nil]
    have := lt_length_of_getElem? h.old
    omega

theorem Replaced.tame (h : Replaced i c c' s s') (hc : s.Inv → c'.Wf)
    (hn : c'.isNormal = c.isNormal) : Tame near s s' :=
  .of_set (fun hs => h.inv hs (hc hs))
    (fun _ hr => hr.set h.old h.columns h.active fun hsome =>
      ⟨h.restore ▸ hsome, fun _ hnn => hn.trans hnn⟩) h.old h.columns h.kin.uid h.active h.prev

theorem replaced_cancelResize (hc : s.columns[i]? = some c)
    (hd : s.data[i]? = some (ColumnData.new c)) :
    Replaced i c c.cancelResize s (s.cancelResizeForColumn i) := by
  have hlike := c.like_cancelResize
  have hw : ColumnData.new c.cancelResize = ColumnData.new c := by
    simp [ColumnData.new, hlike.width]
  unfold cancelResizeForColumn
  rw [hc]
  exact ⟨hc, hd, hlike.toSeen.kin, rfl, by rw [hw]; exact (set_self_of_getElem? hd).symm, rfl, rfl,
    rfl, rfl, rfl, fun r hr => (filter_eq_some_iff.mp hr).1⟩

/-- Writing a column and the data of one that is as wide. -/
theorem replaced_setColumn {d : Column} (hc : s.columns[i]? = some c)
    (hd : s.data[i]? = some (ColumnData.new c)) (hkin : c.Kin c')
    (hw : ColumnData.new d = ColumnData.new c') :
    Replaced i c c' s ((s.setColumn i c').updateData i d) :=
  ⟨hc, hd, hkin, rfl, congrArg (s.data.set i) hw, rfl, rfl, rfl, rfl, rfl, fun _ h => h⟩

/-! Fullscreen and maximized. -/

/-- A window is in one column only. -/
theorem findIdx?_contains_eq {w : ℕ} (hids : s.windowIds.Nodup) (hc : s.columns[i]? = some c)
    (hw : c.contains w) : s.columns.findIdx? (·.contains w) = some i := by
  have hdisj := (pairwise_flatten.mp hids).2
  obtain ⟨hi, rfl⟩ := List.getElem?_eq_some_iff.mp hc
  refine findIdx?_eq_some_iff_getElem.mpr ⟨hi, hw, fun j hj hjw => ?_⟩
  have hlt : i < s.arrangement.length := by simpa [arrangement] using hi
  have hne := pairwise_iff_getElem.mp hdisj j i (hj.trans hlt) hlt hj
  simp only [arrangement, getElem_map] at hne
  exact hne w (Column.mem_windowIds.mpr hjw) w (Column.mem_windowIds.mpr hw) rfl

theorem findWindow_eq {w : ℕ} (hids : s.windowIds.Nodup) (hc : s.columns[i]? = some c)
    (hw : c.contains w) : s.findWindow w = (c.position w).map (i, ·) := by
  unfold findWindow
  rw [findIdx?_contains_eq hids hc hw]
  simp only [some_bind, hc]
  cases c.position w <;> rfl

theorem position_isSome {w : ℕ} (hw : c.contains w) : ∃ k, c.position w = some k := by
  rw [← isSome_iff_exists]
  unfold Column.position
  rw [findIdx?_isSome]
  exact hw

theorem position_cancelResize (c : Column) (w : ℕ) : c.cancelResize.position w = c.position w := by
  unfold Column.position Column.cancelResize
  rw [findIdx?_map]
  rfl

variable {isPending : Column → Bool} {set : Column → Bool → Column} {w : ℕ}

/-- Disabling never extracts a window. -/
theorem replaced_setPending_false (hseen : ∀ (c : Column) v, c.Seen (set c v)) (hids : s.windowIds.Nodup)
    (hc : s.columns[i]? = some c) (hd : s.data[i]? = some (ColumnData.new c)) (hw : c.contains w)
    (h : setPending isPending set s w false = some s') :
    Replaced i c (if isPending c then set c.cancelResize false else c) s s' := by
  unfold setPending at h
  rw [findIdx?_contains_eq hids hc hw, some_bind, hc,
    some_bind] at h
  split at h
  · rename_i hp
    obtain rfl := some.inj h
    rw [← hp]
    exact .refl hc hd
  · rename_i hp
    have hp : isPending c = true := by simpa using Ne.symm hp
    have hcancel := replaced_cancelResize hc hd
    rw [if_pos hp]
    have hno : mustExtract c false = false := rfl
    simp only [extractWindow, hno, Bool.false_eq_true, if_false, bind_eq_bind,
      bind_some, hcancel.new, Option.pure_def, some.injEq] at h
    subst h
    exact hcancel.trans (replaced_setColumn hcancel.new hcancel.newData (hseen _ _).kin rfl)

/-- The column that a window leaves when it is made fullscreen or maximized, if it must. -/
def extractSource (isPending : Column → Bool) (s : ScrollingSpace) (window : ℕ) (enable : Bool) :
    Option ℕ := do
  let colIdx ← s.columns.findIdx? (·.contains window)
  let col ← s.columns[colIdx]?
  if enable ≠ isPending col ∧ mustExtract col enable then some colIdx else none

/-- The data of a column that did not change its width. -/
theorem updateData_self (hd : s.data[i]? = some (ColumnData.new c))
    (hw : c'.actualWidth = c.actualWidth) : s.updateData i c' = s := by
  unfold updateData
  rw [set_self_of_getElem? (a := ColumnData.new c')]
  rw [hd, ColumnData.new, ColumnData.new, hw]

theorem like_setColumn_updateData (hs : s.Inv) (hc : s.columns[i]? = some c) (h : c.Like c') :
    s.Like ((s.setColumn i c').updateData i c') := by
  rw [updateData_self (s := s.setColumn i c') (hs.data_getElem? hc) h.width]
  exact like_setColumn hc h

/-- An expelled window is alone in the column to the right. -/
theorem counts_expelRight {k : ℕ} (hw : s.windowOrActive (some w) = some (i, k))
    (hc : s.columns[i]? = some c) (hlen : c.tiles.length ≠ 1)
    (h : s.consumeOrExpelWindowRight (some w) = some s') : s'.counts[i + 1]? = some 1 := by
  have hne : s.columns.isEmpty = false := by
    rw [isEmpty_eq_false_iff]
    exact ne_nil_of_getElem? hc
  unfold consumeOrExpelWindowRight at h
  simp only [hne, Bool.false_eq_true, if_false, hw, some_bind, hc, hlen]
    at h
  obtain ⟨⟨r, t⟩, hremove, hadd⟩ := of_bind h
  obtain ⟨hcounts, -⟩ := counts_removeTileByIdx (counts_getElem? hc) hlen hremove
  have hlt : i < s.counts.length := lt_length_of_getElem? (counts_getElem? hc)
  rw [(counts_addTile hadd).1, getElem?_insertIdx_self, if_pos]
  rw [hcounts, length_set]
  omega

theorem setPending_cases (hs : s.Inv) {enable : Bool}
    (hlike : ∀ (c : Column) v, (v = true → c.tiles.length = 1 ∨ c.displayMode = .tabbed) →
      c.Like (set c v))
    (h : setPending isPending set s w enable = some s') :
    Tame ((extractSource isPending s w enable).any (· + 1 == s.activeColumnIdx)) s s' ∨
      ((extractSource isPending s w enable).isSome ∧ s.isActiveTile (some w) ∧
        Opens s s' True) := by
  unfold setPending at h
  obtain ⟨i, hi, h⟩ := of_bind h
  obtain ⟨c, hc, h⟩ := of_bind h
  obtain ⟨c', hc', hw⟩ := findIdx?_contains_spec hi
  obtain rfl := some.inj (hc.symm.trans hc')
  unfold extractSource
  simp only [hi, hc, some_bind]
  split at h
  · rename_i hp
    obtain rfl := some.inj h
    exact .inl (.refl s)
  · rename_i hp
    obtain ⟨t, ht, h⟩ := of_bind h
    obtain ⟨d, hd, rfl⟩ := of_bind_some h
    have hcancel := replaced_cancelResize hc (hs.data_getElem? hc)
    have htame : Tame false s (s.cancelResizeForColumn i) := tame_cancelResizeForColumn s i
    have hs1 := htame.inv hs
    have hwf := hs.columns c (mem_of_getElem? hc)
    unfold extractWindow at ht
    cases hextract : mustExtract c enable with
    | false =>
      simp only [hextract, Bool.false_eq_true, if_false, some.injEq] at ht hd
      subst ht
      obtain rfl := some.inj (hcancel.new.symm.trans hd)
      refine .inl (htame.weaken.trans (like_setColumn_updateData hs1 hd (hlike _ _ ?_)).tame)
      rintro rfl
      have hpos := hwf.length_pos
      have hone : c.cancelResize.tiles.length = c.tiles.length := length_map _
      by_cases htab : c.displayMode = .tabbed
      · exact .inr htab
      · have : ¬ 1 < c.tiles.length := by
          simpa [mustExtract, Column.isTabbed, htab] using hextract
        exact .inl (by omega)
    | true =>
      simp only [hextract, if_true] at ht hd
      have hlen : c.cancelResize.tiles.length ≠ 1 := by
        have hone : c.cancelResize.tiles.length = c.tiles.length := length_map _
        have : 1 < c.tiles.length := by
          have := hextract
          simp only [mustExtract, Bool.and_eq_true, decide_eq_true_eq] at this
          exact this.1.2
        omega
      obtain ⟨k, hk⟩ := position_isSome hw
      have hfind : s.windowOrActive (some w) = some (i, k) := by
        simp [windowOrActive, findWindow_eq hs.ids hc hw, hk]
      have hfind1 : (s.cancelResizeForColumn i).windowOrActive (some w) = some (i, k) := by
        have hw1 : c.cancelResize.contains w :=
          Column.mem_windowIds.mp (hcancel.kin.ids.mem_iff.mpr (Column.mem_windowIds.mpr hw))
        simp [windowOrActive, findWindow_eq hs1.ids hcancel.new hw1, position_cancelResize, hk]
      have hidx := activeColumnIdx_cancelResizeForColumn s i
      have hone := counts_expelRight hfind1 hcancel.new hlen ht
      obtain ⟨d', hd', hlen'⟩ := column_of_counts hone
      obtain rfl := some.inj (hd'.symm.trans hd)
      have hset (ht : t.Inv) : t.Like ((t.setColumn (i + 1) (set d' enable)).updateData (i + 1)
          (set d' enable)) :=
        like_setColumn_updateData ht hd (hlike _ _ fun _ => .inl hlen')
      rcases consumeOrExpelWindowRight_cases hs1 ht with hmove | ⟨-, hactive, hopens⟩
      · refine .inl ?_
        rw [expelSource_eq hfind1 hcancel.new, if_neg hlen, hidx] at hmove
        rw [if_pos ⟨hp, rfl⟩]
        exact htame.weaken.trans (hmove.trans (hset (hmove.inv hs1)).tame)
      · refine .inr ⟨by rw [if_pos ⟨hp, rfl⟩]; rfl, ?_, ?_⟩
        · rw [isActiveTile_eq hfind1 hcancel.new, hidx] at hactive
          rw [isActiveTile_eq hfind hc]
          exact hactive
        · have hopens := hopens.trans_like (hset hopens.inv)
          exact ⟨hopens.inv, fun hr hp => hopens.restore (htame.restore hs hr) hp, hopens.prev,
            hopens.opened.of_uids hidx (by
              rw [hcancel.columns, map_set_of_eq hc hcancel.kin.uid])⟩

theorem setFullscreen_cases (hs : s.Inv) {enable : Bool} (h : s.setFullscreen w enable = some s') :
    Tame ((extractSource (·.isPendingFullscreen) s w enable).any (· + 1 == s.activeColumnIdx)) s s' ∨
      ((extractSource (·.isPendingFullscreen) s w enable).isSome ∧ s.isActiveTile (some w) ∧
        Opens s s' True) :=
  setPending_cases hs (fun _ _ => Column.like_setFullscreen) h

theorem setMaximized_cases (hs : s.Inv) {enable : Bool} (h : s.setMaximized w enable = some s') :
    Tame ((extractSource (·.isPendingMaximized) s w enable).any (· + 1 == s.activeColumnIdx)) s s' ∨
      ((extractSource (·.isPendingMaximized) s w enable).isSome ∧ s.isActiveTile (some w) ∧
        Opens s s' True) :=
  setPending_cases hs (fun _ _ => Column.like_setMaximized) h

/-! The column display. -/

theorem isPendingFullscreen_disabled (c : Column) : (if c.isPendingFullscreen
    then c.cancelResize.setFullscreen false else c).isPendingFullscreen = false := by
  cases h : c.isPendingFullscreen <;> simp [h, Column.setFullscreen, Column.cancelResize]

theorem pending_disabled (h : c.isPendingFullscreen = false) : (if c.isPendingMaximized
    then c.cancelResize.setMaximized false else c).pendingSizingMode = .normal := by
  cases hm : c.isPendingMaximized <;>
    simp [h, hm, Column.setMaximized, Column.cancelResize, Column.pendingSizingMode]

/-- The column after one of the modes is disabled. -/
theorem disabled_loose {set : Column → Bool → Column} (h : c.Loose)
    (hset : ∀ {c : Column}, c.Loose → ∀ v, (set c v).Loose) (p : Column → Bool) :
    (if p c then set c.cancelResize false else c).Loose := by
  split
  · exact hset h.cancelResize false
  · exact h

theorem disabled_normal {set : Column → Bool → Column} (hseen : ∀ (c : Column) v, c.Seen (set c v))
    {p : Bool} : (if p then set c.cancelResize false else c).isNormal = c.isNormal := by
  split
  · exact (hseen _ _).normal.trans c.like_cancelResize.normal
  · rfl

theorem tame_setColumnDisplay (hs : s.Inv) {display : ColumnDisplay}
    (h : s.setColumnDisplay display = some s') : Tame near s s' := by
  unfold setColumnDisplay at h
  split at h
  · obtain rfl := some.inj h
    exact .refl s
  · obtain ⟨c, hc, h⟩ := of_bind h
    split at h
    · obtain rfl := some.inj h
      exact .refl s
    · dsimp only at h
      have hwf := hs.columns c (mem_of_getElem? hc)
      have hcancel := replaced_cancelResize hc (hs.data_getElem? hc)
      have hkin := Column.kin_setColumnDisplay c.cancelResize display
      have hseen := (c.cancelResize.setColumnDisplay display).seen_updateTileSizes
      have hloose : (c.cancelResize.setColumnDisplay display).updateTileSizes.Loose := by
        have hl := hwf.loose.cancelResize.display display
        exact Column.Parts.loose_updateTileSizes hl.toParts hl.nonempty hl.active
      have hset : Replaced s.activeColumnIdx c
          (c.cancelResize.setColumnDisplay display).updateTileSizes s _ :=
        hcancel.trans (replaced_setColumn (d := c.cancelResize.setColumnDisplay display) hcancel.new
          hcancel.newData (hkin.1.trans hseen.kin) (by simp [ColumnData.new]))
      have hnormal : (c.cancelResize.setColumnDisplay display).updateTileSizes.isNormal =
          c.isNormal := by
        rw [Column.isNormal_updateTileSizes, hkin.2, c.like_cancelResize.normal]
      have hidx := activeColumnIdx_cancelResizeForColumn s s.activeColumnIdx
      split at h
      · obtain ⟨tile, htile, h⟩ := of_bind h
        obtain ⟨t, ht, h⟩ := of_bind h
        rw [hidx] at ht
        have hw : (c.cancelResize.setColumnDisplay display).updateTileSizes.contains tile.id :=
          Column.mem_windowIds.mp (hseen.ids.mem_iff.mpr
            (List.mem_map_of_mem (mem_of_getElem? htile)))
        have hfull := replaced_setPending_false Column.seen_setFullscreen
          (hset.windowIds.nodup_iff.mpr hs.ids) hset.new hset.newData hw ht
        have hmax := replaced_setPending_false Column.seen_setMaximized
          ((hset.trans hfull).windowIds.nodup_iff.mpr hs.ids) hfull.new hfull.newData
          (Column.mem_windowIds.mp (hfull.kin.ids.mem_iff.mpr (Column.mem_windowIds.mpr hw))) h
        have hloose1 := disabled_loose hloose Column.Loose.setFullscreen (·.isPendingFullscreen)
        refine (hset.trans (hfull.trans hmax)).tame (fun _ => ?_) ?_
        · exact (disabled_loose hloose1 Column.Loose.setMaximized _).wf fun hp =>
            absurd (pending_disabled (isPendingFullscreen_disabled _)) hp
        · rw [disabled_normal Column.seen_setMaximized, disabled_normal Column.seen_setFullscreen,
            hnormal]
      · rename_i hcond
        obtain rfl := some.inj h
        rw [hidx]
        refine hset.tame (fun _ => hloose.wf fun hp => ?_) hnormal
        have hpos := length_pos_iff.mpr hloose.nonempty
        by_cases htab : display = .tabbed
        · exact .inr (by simpa using htab)
        · refine .inl ?_
          rw [Column.displayMode_setColumnDisplay] at hcond
          rw [Column.length_updateTileSizes] at hpos ⊢
          have : ¬ 1 < (c.cancelResize.setColumnDisplay display).tiles.length :=
            fun hlt => hcond ⟨htab, hlt⟩
          omega

theorem tame_toggleColumnTabbedDisplay (hs : s.Inv) (h : s.toggleColumnTabbedDisplay = some s') :
    Tame near s s' := by
  unfold toggleColumnTabbedDisplay at h
  split at h
  · obtain rfl := some.inj h
    exact .refl s
  · exact tame_setColumnDisplay hs h

/-! Client commits. -/

theorem like_followInteractiveResize (s : ScrollingSpace) (i : ℕ) (resize : Option ResizeEdge)
    (offset : ℚ) : s.Like (s.followInteractiveResize i resize offset) := by
  unfold followInteractiveResize
  split
  · exact .refl s
  · exact s.like_viewOffset _

theorem like_updateViewAfterCommit (s : ScrollingSpace) (i : ℕ) (wasNormal isNormal : Bool)
    (resize : Option ResizeEdge) (offset : ℚ) :
    ((s.followInteractiveResize i resize offset).storeViewOffset wasNormal isNormal).Like
      (s.updateViewAfterCommit i wasNormal isNormal resize offset) := by
  unfold updateViewAfterCommit
  dsimp only
  split
  · split
    · exact (like_animateViewOffset ..).trans (like_animateViewOffsetToColumn ..)
    · exact like_animateViewOffsetToColumn ..
  · exact .refl _

/-- Storing and taking the view offset keeps it with a column that is not normal. -/
theorem restoreOk_storeViewOffset {wasNormal : Bool} (hc : s.activeColumn = some c)
    (hwas : s.viewOffsetToRestore.isSome → wasNormal = false) :
    (s.storeViewOffset wasNormal c.isNormal).RestoreOk := by
  unfold storeViewOffset
  split
  · rename_i h
    exact fun _ => ⟨c, hc, by simpa using (Bool.and_eq_true_iff.mp h).2⟩
  · split
    · exact fun hsome => by simp at hsome
    · rename_i h
      refine fun hsome => ⟨c, hc, ?_⟩
      have := hwas hsome
      simpa [this] using h

theorem Inv.storeViewOffset (hs : s.Inv) (wasNormal isNormal : Bool) :
    (s.storeViewOffset wasNormal isNormal).Inv := by
  unfold ScrollingSpace.storeViewOffset
  split
  · exact hs.withFlags s.activatePrevColumnOnRemoval _
  · split
    · exact hs.withFlags s.activatePrevColumnOnRemoval _
    · exact hs

theorem storeViewOffset_keeps (s : ScrollingSpace) (wasNormal isNormal : Bool) :
    (s.storeViewOffset wasNormal isNormal).activeColumnIdx = s.activeColumnIdx ∧
      (s.storeViewOffset wasNormal isNormal).columns = s.columns ∧
      (s.storeViewOffset wasNormal isNormal).activatePrevColumnOnRemoval =
        s.activatePrevColumnOnRemoval := by
  unfold storeViewOffset
  split
  · exact ⟨rfl, rfl, rfl⟩
  · split <;> exact ⟨rfl, rfl, rfl⟩

theorem tame_updateWindow {w : ℕ} {commit : Commit} {ongoing : Bool} (hs : s.Inv)
    (h : s.updateWindow w commit ongoing = some s') : Tame near s s' := by
  unfold updateWindow at h
  obtain ⟨⟨i, k⟩, hw, h⟩ := of_bind h
  obtain ⟨c, hc, h⟩ := of_bind h
  obtain ⟨tile, ht, rfl⟩ := of_bind_some h
  have hwf := hs.columns c (mem_of_getElem? hc)
  have hkin : c.Kin (c.updateWindow k commit) :=
    ⟨Column.uid_updateWindow, .of_eq Column.windowIds_updateWindow, Column.options_updateWindow⟩
  have hseen := (c.updateWindow k commit).seen_updateTileSizes
  have hset := replaced_setColumn (d := c.updateWindow k commit) hc (hs.data_getElem? hc)
    (hkin.trans hseen.kin) (by simp [ColumnData.new])
  have hwf' : (c.updateWindow k commit).updateTileSizes.Wf := hwf.updateWindow.wf_updateTileSizes
  have hinv := hset.inv hs hwf'
  have hnew := hset.new
  generalize (s.setColumn i (c.updateWindow k commit).updateTileSizes).updateData i
    (c.updateWindow k commit) = u at hset hinv hnew ⊢
  have hfollow := u.like_followResize i (s.dataWidth i - u.dataWidth i) ongoing
  have huids : u.columns.map (·.uid) = s.columns.map (·.uid) := by
    rw [hset.columns, map_set_of_eq hc hset.kin.uid]
  split
  · rename_i hi
    have hi : i = s.activeColumnIdx := hi.trans (hfollow.active.trans hset.active)
    have hlike := hfollow.trans (like_followInteractiveResize _ i tile.window.interactiveResizeData
      (s.dataWidth i - u.dataWidth i))
    have hview := like_updateViewAfterCommit (u.followResize i (s.dataWidth i - u.dataWidth i)
      ongoing) i c.isNormal (c.updateWindow k commit).isNormal tile.window.interactiveResizeData
      (s.dataWidth i - u.dataWidth i)
    generalize (u.followResize i (s.dataWidth i - u.dataWidth i)
      ongoing).followInteractiveResize i tile.window.interactiveResizeData
      (s.dataWidth i - u.dataWidth i) = v at hlike hview
    obtain ⟨hidx, hcols, hprev⟩ := v.storeViewOffset_keeps c.isNormal
      (c.updateWindow k commit).isNormal
    have hactive : u.activeColumn = some (c.updateWindow k commit).updateTileSizes := by
      unfold activeColumn
      rw [hset.active, ← hi]
      exact hnew
    obtain ⟨d, hd, hdlike⟩ := hlike.activeColumn hactive
    have hnormal : d.isNormal = (c.updateWindow k commit).isNormal :=
      hdlike.normal.trans (Column.isNormal_updateTileSizes _)
    refine .of_same (fun _ => hview.inv ((hlike.inv hinv).storeViewOffset _ _)) (fun _ hr => ?_)
      (hview.active.trans (hidx.trans (hlike.active.trans hset.active)))
      (hview.prev.trans (hprev.trans (hlike.prev.trans hset.prev)))
      (hview.uids.trans (by rw [hcols, hlike.uids, huids]))
    refine hview.restoreOk ?_
    rw [← hnormal]
    refine restoreOk_storeViewOffset hd fun hsome => ?_
    rw [hlike.restore, hset.restore] at hsome
    obtain ⟨c', hc', hn⟩ := hr hsome
    unfold activeColumn at hc'
    rw [← hi] at hc'
    obtain rfl := some.inj (hc.symm.trans hc')
    exact hn
  · rename_i hi
    have hi : i ≠ s.activeColumnIdx :=
      fun he => hi (he.trans (hfollow.active.trans hset.active).symm)
    refine .of_same (fun _ => hfollow.inv hinv) (fun _ hr => hfollow.restoreOk ?_)
      (hfollow.active.trans hset.active) (hfollow.prev.trans hset.prev)
      (hfollow.uids.trans huids)
    exact hr.set hc hset.columns hset.active fun hsome =>
      ⟨hset.restore ▸ hsome, fun he => absurd he hi⟩

end ScrollingSpace

end Macniri.Layout
