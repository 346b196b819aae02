import Macniri.Layout.MonitorFocus
import Macniri.Scrolling.ColumnOps

/-! The active window of a workspace while windows are opened, closed and activated. -/
namespace Macniri.Layout

open Option List

/-! Columns. -/

namespace Column

variable {c : Column}

theorem activeId_autoExcept (c : Column) (i : ℕ) : (c.autoExcept i).activeId = c.activeId := by
  unfold autoExcept
  split <;> rfl

theorem activeId_setWindowHeight (c : Column) (change : SizeChange) (tileIdx : Option ℕ) :
    (c.setWindowHeight change tileIdx).activeId = c.activeId := by
  unfold setWindowHeight
  dsimp only
  split
  · rw [activeId_updateTileSizes]
    exact activeId_autoExcept c _
  · exact activeId_autoExcept c _

end Column

namespace ScrollingSpace

variable {s s' : ScrollingSpace} {w : ℕ}

theorem activeId_resizeWindow {f : Column → Option ℕ → Column}
    (hf : ∀ (c : Column) k, (f c k).activeId = c.activeId) {window : Option ℕ}
    (h : resizeWindow f s window = some s') : s'.activeId = s.activeId := by
  unfold resizeWindow at h
  split at h
  · exact some.inj h ▸ rfl
  · obtain ⟨⟨i, k⟩, -, h⟩ := of_bind h
    obtain ⟨c, hc, rfl⟩ := of_bind_some h
    have hset : (s.setColumn i (f c k)).activeId = s.activeId :=
      activeId_congr (map_set_of_eq hc (hf c k)) rfl
    exact (activeId_congr (foci_cancelResizeForColumn ..)
      (activeColumnIdx_cancelResizeForColumn ..)).trans hset

theorem hasWindow_of_mem (hw : w ∈ s.windowIds) : s.hasWindow w = true := by
  obtain ⟨ids, hids, hw⟩ := mem_flatten.mp hw
  obtain ⟨c, hc, rfl⟩ := List.mem_map.mp hids
  exact List.any_eq_true.mpr ⟨c, hc, Column.mem_windowIds.mp hw⟩

/-- A window that is activated is the active one. -/
theorem activeId_activateWindow (hw : s.hasWindow w = true) :
    (s.activateWindow w).activeId = some w := by
  obtain ⟨i, k, hfind⟩ : ∃ i k, s.findWindow w = some (i, k) := by
    obtain ⟨c, hc, hcontains⟩ := List.any_eq_true.mp hw
    have hsome : (s.columns.findIdx? (·.contains w)).isSome := by
      rw [findIdx?_isSome]
      exact List.any_eq_true.mpr ⟨c, hc, hcontains⟩
    obtain ⟨i, hi⟩ := isSome_iff_exists.mp hsome
    obtain ⟨hlt, hthere, -⟩ := findIdx?_eq_some_iff_getElem.mp hi
    have htile : (s.columns[i].tiles.findIdx? (·.id == w)).isSome := by
      rw [findIdx?_isSome]
      exact hthere
    obtain ⟨k, hk⟩ := isSome_iff_exists.mp htile
    refine ⟨i, k, bind_eq_some_iff.mpr ⟨i, hi, ?_⟩⟩
    refine bind_eq_some_iff.mpr ⟨s.columns[i], getElem?_eq_getElem hlt, ?_⟩
    exact bind_eq_some_iff.mpr ⟨k, hk, rfl⟩
  obtain ⟨c, tile, hc, htile, rfl⟩ := findWindow_spec hfind
  unfold activateWindow
  rw [hfind]
  dsimp only
  have hcol : (s.columns.modify i (·.activateIdx k))[i]? = some (c.activateIdx k) := by
    rw [getElem?_modify_eq, hc]
    rfl
  refine (activeId_of_getElem? (c := c.activateIdx k) ?_).trans ?_
  · rw [activeColumnIdx_activateColumn, columns_activateColumn]
    exact hcol
  · show c.windowIds[k]? = some tile.id
    rw [Column.windowIds, getElem?_map, htile, map_some]

end ScrollingSpace

namespace FloatingSpace

variable {s s' : FloatingSpace} {w : ℕ}

theorem active_setWindowHeight {id : Option ℕ} {change : SizeChange}
    (h : s.setWindowHeight id change = some s') : s'.activeWindowId = s.activeWindowId := by
  unfold setWindowHeight at h
  split at h
  · exact some.inj h ▸ rfl
  · obtain ⟨i, -, h⟩ := of_bind h
    obtain ⟨tile, -, h⟩ := of_bind h
    exact some.inj h ▸ rfl

theorem active_activateWindow (hw : s.hasWindow w = true) (h : s.activateWindow w = some s') :
    s'.activeWindowId = some w := by
  unfold activateWindow at h
  split at h
  · rename_i hnone
    obtain ⟨tile, htile, hid⟩ := List.any_eq_true.mp hw
    exact absurd hid (by simpa using findIdx?_eq_none_iff.mp hnone tile htile)
  · obtain ⟨t, ht, h⟩ := of_bind h
    exact (active_bringUpDescendantsOf h).1

end FloatingSpace

namespace Workspace

variable {ws ws' : Workspace} {w : ℕ} {tile : Tile} {removed : RemovedTile}

/-! Closing. -/

theorem Focus.activeId_dropsScrolling (h : ws.Focus) {s : ScrollingSpace}
    (hs : ws.scrolling.removeTile w = some (removed, s)) (hw : ws.activeId ≠ some w)
    (hfocus : ({ ws with scrolling := s }.updateFocusFloatingTilingAfterRemoving false).Focus) :
    ({ ws with scrolling := s }.updateFocusFloatingTilingAfterRemoving false).activeId =
      ws.activeId := by
  rw [hfocus.activeId_eq, floating_updateFocus, scrolling_updateFocus, flag_updateFocus,
    if_neg Bool.false_ne_true]
  by_cases hyes : ws.floatingIsActive = .yes
  · have hstays : (if s.columns.isEmpty && !ws.floating.isEmpty then FloatingActive.yes
        else ws.floatingIsActive) = .yes := by
      rw [hyes]
      split <;> rfl
    rw [if_pos hstays, h.activeId_eq, if_pos hyes]
  · rw [h.activeId_eq, if_neg hyes] at hw ⊢
    have hsame := ScrollingSpace.activeId_removeTile h.ok.scrolling hw hs
    have hcols : s.columns ≠ [] := by
      intro hnil
      have hnone : s.activeId = none := by
        unfold ScrollingSpace.activeId ScrollingSpace.foci
        rw [hnil]
        rfl
      have hempty : ws.scrolling.windowIds = [] := by
        rw [← ScrollingSpace.columns_eq_nil_iff h.ok.scrolling]
        by_contra hne
        have hsome := (ScrollingSpace.activeId_isSome_iff h.ok.scrolling).mpr hne
        rw [← hsame, hnone] at hsome
        cases hsome
      obtain ⟨⟨i, k⟩, -, hs⟩ := of_bind hs
      have hperm := ScrollingSpace.removeTileByIdx_perm hs
      rw [hempty] at hperm
      simpa using hperm.length_eq
    rw [isEmpty_eq_false_iff.mpr hcols, Bool.false_and, if_neg Bool.false_ne_true, if_neg hyes]
    exact hsame

/-- Closing another window leaves the active one alone. -/
theorem Focus.activeId_removeTile (h : ws.Focus) (hw : ws.activeId ≠ some w)
    (hr : ws.removeTile w = some (removed, ws')) : ws'.activeId = ws.activeId := by
  have hfocus := h.removeTile hr
  unfold Workspace.removeTile at hr
  split at hr
  · obtain ⟨⟨r, f⟩, hf, hr⟩ := of_bind hr
    obtain ⟨rfl, rfl⟩ := pair_inj hr
    rw [hfocus.activeId_eq, floating_updateFocus, scrolling_updateFocus, flag_updateFocus, if_pos rfl]
    dsimp only
    by_cases hyes : ws.floatingIsActive = .yes
    · have hother : (some w == ws.activeId) = false :=
        beq_eq_false_iff_ne.mpr fun heq => hw heq.symm
      obtain ⟨hsame, hne⟩ := active_of_removed h hyes hother hf
      rw [if_neg fun hempty => hne ((isEmpty_iff f).mp hempty), if_pos hyes, hsame, h.activeId_eq,
        if_pos hyes]
    · have hstays : (if f.isEmpty then FloatingActive.no else ws.floatingIsActive) ≠ .yes := by
        split
        · exact nofun
        · exact hyes
      rw [if_neg hstays, h.activeId_eq, if_neg hyes]
  · obtain ⟨⟨r, s⟩, hs, hr⟩ := of_bind hr
    obtain ⟨rfl, rfl⟩ := pair_inj hr
    exact h.activeId_dropsScrolling hs hw hfocus

/-! Opening. -/

/-- The tile goes to one of the spaces, and is activated there or not. -/
theorem addTile_activates {activate : ActivateWindow} {a : Bool} (ha : ∀ smart, activate.mapSmart smart = a)
    {target : WorkspaceAddWindowTarget} {width : ColumnWidth} {isFullWidth isFloating : Bool}
    {renderPos : Point}
    (h : ws.addTile tile target activate width isFullWidth isFloating renderPos = some ws') :
    ∃ pos, let placed : Tile := { tile with restoreToFloating := isFloating, floatingPos := pos }
      ws.AddsFloating placed a ws' ∨ ws.AddsScrolling placed a ws' := by
  unfold addTile at h
  cases target with
  | auto =>
    dsimp only at h
    rw [ha] at h
    split at h
    · exact ⟨_, .inl (addsFloating_addFloating h)⟩
    · exact ⟨_, .inr (addsScrolling_addScrolling h)⟩
  | newColumnAt colIdx =>
    dsimp only at h
    rw [ha] at h
    exact ⟨_, .inr (addsScrolling_addScrolling h)⟩
  | nextTo nextTo =>
    obtain ⟨b, hb, h⟩ := of_bind h
    have hsame : b = a := by
      cases activate with
      | yes => exact (some.inj hb).symm.trans (ha true)
      | no => exact (some.inj hb).symm.trans (ha true)
      | smart => exact absurd ((ha true).trans (ha false).symm) (by decide)
    subst hsame
    have hcases := addTileNextTo_cases h
    split at hcases
    · obtain ⟨pos, hadds⟩ := hcases
      exact ⟨_, .inl hadds⟩
    · exact ⟨_, .inr hcases⟩

theorem activeId_addsFloating (h' : ws'.Focus) (hadds : ws.AddsFloating tile true ws') :
    ws'.activeId = some tile.id := by
  obtain ⟨i, f, hf, rfl⟩ := hadds
  rw [h'.activeId_eq, flag_focusAddedFloating, Bool.true_or, if_pos rfl, if_pos rfl,
    floating_focusAddedFloating, FloatingSpace.active_addTileAt hf]
  exact if_pos rfl

theorem activeId_addsScrolling (h' : ws'.Focus) (hadds : ws.AddsScrolling tile true ws') :
    ws'.activeId = some tile.id := by
  obtain ⟨colIdx, width, isFullWidth, s, hs, rfl⟩ := hadds
  rw [h'.activeId_eq, flag_focusAddedScrolling, if_pos rfl, if_neg (by decide),
    scrolling_focusAddedScrolling]
  exact ScrollingSpace.activeId_addTile_true hs

/-- Opening a window without activating it leaves the active one alone, if there is one. -/
theorem Focus.activeId_addsFloating_false (h : ws.Focus) (h' : ws'.Focus) (hsome : ws.activeId ≠ none)
    (hadds : ws.AddsFloating tile false ws') : ws'.activeId = ws.activeId := by
  obtain ⟨i, f, hf, rfl⟩ := hadds
  have hactive := FloatingSpace.active_addTileAt hf
  rw [h'.activeId_eq, flag_focusAddedFloating, floating_focusAddedFloating, scrolling_focusAddedFloating,
    Bool.false_or]
  rw [Bool.false_or] at hactive
  rw [h.activeId_eq] at hsome ⊢
  by_cases hyes : ws.floatingIsActive = .yes
  · have hne : ws.floating.tiles.isEmpty ≠ true := fun hempty =>
      h.floating hyes ((isEmpty_iff ws.floating).mp hempty)
    have hstays : (if ws.scrolling.columns.isEmpty then FloatingActive.yes else ws.floatingIsActive) =
        .yes := by
      rw [hyes]
      split <;> rfl
    rw [if_pos hstays, if_pos hyes, hactive, if_neg hne]
  · rw [if_neg hyes] at hsome ⊢
    have hcols : ws.scrolling.columns ≠ [] :=
      (ScrollingSpace.activeId_isSome_iff h.ok.scrolling).mp (isSome_iff_ne_none.mpr hsome)
    rw [isEmpty_eq_false_iff.mpr hcols, if_neg Bool.false_ne_true, if_neg hyes]

theorem Focus.activeId_addsScrolling_false (h : ws.Focus) (h' : ws'.Focus) (hsome : ws.activeId ≠ none)
    (hadds : ws.AddsScrolling tile false ws') : ws'.activeId = ws.activeId := by
  obtain ⟨colIdx, width, isFullWidth, s, hs, rfl⟩ := hadds
  rw [h'.activeId_eq, flag_focusAddedScrolling, if_neg Bool.false_ne_true, floating_focusAddedScrolling,
    scrolling_focusAddedScrolling]
  rw [h.activeId_eq] at hsome ⊢
  by_cases hyes : ws.floatingIsActive = .yes
  · rw [if_pos hyes, if_pos hyes]
  · rw [if_neg hyes] at hsome ⊢
    have hcols : ws.scrolling.columns ≠ [] :=
      (ScrollingSpace.activeId_isSome_iff h.ok.scrolling).mp (isSome_iff_ne_none.mpr hsome)
    rw [if_neg hyes]
    exact ScrollingSpace.activeId_addTile_false h.ok.scrolling hcols hs

/-- A window that is opened and activated is the active one. -/
theorem Focus.activeId_addTile_yes (h : ws.Focus) (hfresh : tile.id ∉ ws.windowIds)
    {target : WorkspaceAddWindowTarget} {width : ColumnWidth} {isFullWidth isFloating : Bool}
    {renderPos : Point}
    (hadd : ws.addTile tile target .yes width isFullWidth isFloating renderPos = some ws') :
    ws'.activeId = some tile.id := by
  have h' := h.addTile hfresh hadd
  obtain ⟨pos, hadds | hadds⟩ := addTile_activates (a := true) (fun _ => rfl) hadd
  · have hactive := activeId_addsFloating h' hadds
    exact hactive
  · have hactive := activeId_addsScrolling h' hadds
    exact hactive

theorem Focus.activeId_addTile_no (h : ws.Focus) (hfresh : tile.id ∉ ws.windowIds)
    (hsome : ws.activeId ≠ none) {target : WorkspaceAddWindowTarget} {width : ColumnWidth}
    {isFullWidth isFloating : Bool} {renderPos : Point}
    (hadd : ws.addTile tile target .no width isFullWidth isFloating renderPos = some ws') :
    ws'.activeId = ws.activeId := by
  have h' := h.addTile hfresh hadd
  obtain ⟨pos, hadds | hadds⟩ := addTile_activates (a := false) (fun _ => rfl) hadd
  · exact h.activeId_addsFloating_false h' hsome hadds
  · exact h.activeId_addsScrolling_false h' hsome hadds

theorem Focus.activeId_setOpeningHeight (h : ws.Focus) {opening : WindowOpening}
    (ha : ws.setOpeningHeight w opening = some ws') : ws'.activeId = ws.activeId := by
  have h' := h.setOpeningHeight ha
  unfold Workspace.setOpeningHeight at ha
  split at ha
  · exact some.inj ha ▸ rfl
  · split at ha
    · exact some.inj ha ▸ rfl
    · unfold setWindowHeight onSpaceOf at ha
      rw [h'.activeId_eq, h.activeId_eq]
      split at ha
      · obtain ⟨f, hf, rfl⟩ := of_map ha
        dsimp only
        rw [FloatingSpace.active_setWindowHeight hf]
      · obtain ⟨s, hs, rfl⟩ := of_map ha
        dsimp only
        rw [ScrollingSpace.activeId_resizeWindow
          (fun c k => c.activeId_setWindowHeight _ k) hs]

/-! Activating. -/

theorem Focus.activeId_activateWindow (h : ws.Focus) (hw : ws.hasWindow w = true) {b : Bool}
    (ha : ws.activateWindow w = some (b, ws')) : ws'.activeId = some w := by
  have h' := h.activateWindow ha
  unfold Workspace.activateWindow at ha
  split at ha
  · rename_i hfloating
    obtain ⟨f, hf, ha⟩ := of_map ha
    obtain ⟨-, rfl⟩ := Prod.mk.inj ha
    rw [h'.activeId_eq, if_pos rfl]
    exact FloatingSpace.active_activateWindow hfloating hf
  · rename_i hfloating
    split at ha
    · rename_i hscrolling
      obtain ⟨-, rfl⟩ := pair_inj ha
      rw [h'.activeId_eq, if_neg nofun]
      exact ScrollingSpace.activeId_activateWindow hscrolling
    · rename_i hscrolling
      have hmem := hasWindow_iff.mp hw
      rcases mem_append.mp hmem with hmem | hmem
      · exact absurd (ScrollingSpace.hasWindow_of_mem hmem) hscrolling
      · exact absurd (FloatingSpace.mem_windowIds_iff.mp hmem) hfloating

end Workspace

end Macniri.Layout
