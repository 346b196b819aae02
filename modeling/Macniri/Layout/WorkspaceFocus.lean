import Macniri.Floating.Focus
import Macniri.Layout.WorkspaceSteps
import Macniri.Scrolling.ActiveWindow

/-! Which space of a workspace has the focus, and which window is active. -/
namespace Macniri.Layout

open List Option

namespace Workspace

/-- What holds of the focus of every reachable workspace. -/
structure Focus (ws : Workspace) : Prop where
  ok : ws.Ok
  active : ws.floating.ActiveOk
  floating : ws.floatingIsActive = .yes → ws.floating.windowIds ≠ []
  scrolling : ws.floating.windowIds ≠ [] → ws.scrolling.windowIds = [] → ws.floatingIsActive = .yes

/-- The spaces keep their windows, and the focus stays on the same one. -/
structure Steady (ws ws' : Workspace) : Prop where
  flag : ws'.floatingIsActive = ws.floatingIsActive
  floating : ws.floating.Refocused ws'.floating

variable {ws ws' wt : Workspace} {s : ScrollingSpace} {f : FloatingSpace} {w : ℕ} {window : Option ℕ}
variable {tile : Tile}

theorem get_eq_true {a : FloatingActive} : a.get = true ↔ a = .yes := beq_iff_eq

theorem Steady.refl (ws : Workspace) : Steady ws ws := ⟨rfl, .refl _⟩

theorem Steady.trans (h : Steady ws wt) (h' : Steady wt ws') : Steady ws ws' :=
  ⟨h'.flag.trans h.flag, h.floating.trans h'.floating⟩

theorem perm_scrolling (hkept : Kept ws ws') (hfl : ws'.floating.windowIds.Perm ws.floating.windowIds) :
    ws'.scrolling.windowIds.Perm ws.scrolling.windowIds := by
  have hids : (ws'.scrolling.windowIds ++ ws'.floating.windowIds).Perm
      (ws.scrolling.windowIds ++ ws'.floating.windowIds) :=
    hkept.windowIds.trans (hfl.symm.append_left _)
  exact (perm_append_right_iff _).mp hids

theorem nil_iff_of_perm {xs ys : List ℕ} (h : xs.Perm ys) : xs = [] ↔ ys = [] := by
  rw [← length_eq_zero_iff, ← length_eq_zero_iff, h.length_eq]

theorem Focus.steady (h : ws.Focus) (hkept : Kept ws ws') (hsteady : Steady ws ws') : ws'.Focus where
  ok := hkept.ok
  active := h.active.refocused hsteady.floating
  floating hyes := by
    rw [Ne, hsteady.floating.nil_iff]
    exact h.floating (hsteady.flag ▸ hyes)
  scrolling hne hnil := by
    rw [hsteady.flag]
    rw [Ne, hsteady.floating.nil_iff] at hne
    exact h.scrolling hne
      ((nil_iff_of_perm (perm_scrolling hkept hsteady.floating.windowIds)).mp hnil)

/-! Operations that stay within one space. -/

variable {fl : FloatingSpace → Option FloatingSpace} {sc : ScrollingSpace → Option ScrollingSpace}

theorem steady_liftScrolling (h : ws.liftScrolling sc = some ws') : Steady ws ws' := by
  obtain ⟨s, -, rfl⟩ := of_map h
  exact ⟨rfl, .refl _⟩

theorem steady_liftFloating (hfl : ∀ f, fl ws.floating = some f → ws.floating.Refocused f)
    (h : ws.liftFloating fl = some ws') : Steady ws ws' := by
  obtain ⟨f, hf, rfl⟩ := of_map h
  exact ⟨rfl, hfl f hf⟩

theorem steady_onActiveSpace (hfl : ∀ f, fl ws.floating = some f → ws.floating.Refocused f)
    (h : ws.onActiveSpace fl sc = some ws') : Steady ws ws' := by
  unfold onActiveSpace at h
  split at h
  · exact steady_liftFloating hfl h
  · exact steady_liftScrolling h

theorem steady_onScrolling (h : ws.onScrolling sc = some ws') : Steady ws ws' :=
  steady_onActiveSpace (fun _ hf => some.inj hf ▸ .refl _) h

theorem steady_onSpaceOf (hfl : ∀ f, fl ws.floating = some f → ws.floating.Refocused f)
    (h : ws.onSpaceOf window fl sc = some ws') : Steady ws ws' := by
  unfold onSpaceOf at h
  split at h
  · exact steady_liftFloating hfl h
  · exact steady_liftScrolling h

theorem steady_focusDirectional {b : Bool} {distance : Point → Point → ℚ}
    {focused : ScrollingSpace → Bool} {g : ScrollingSpace → ScrollingSpace}
    (h : ws.focusOnActiveSpace (·.focusDirectional distance) focused g = some (b, ws')) :
    Steady ws ws' := by
  unfold focusOnActiveSpace at h
  split at h
  · obtain ⟨⟨c, f⟩, hf, h⟩ := of_map h
    obtain ⟨-, rfl⟩ := Prod.mk.inj h
    exact ⟨rfl, FloatingSpace.refocused_focusDirectional hf⟩
  · obtain ⟨-, rfl⟩ := pair_inj h
    exact ⟨rfl, .refl _⟩

theorem steady_focusVertically {distance : Point → Point → ℚ}
    (h : ws.onActiveSpace (fun s => (s.focusDirectional distance).map (·.2)) sc = some ws') :
    Steady ws ws' := by
  refine steady_onActiveSpace (fun f hf => ?_) h
  obtain ⟨⟨b, f'⟩, hf', rfl⟩ := of_map hf
  exact FloatingSpace.refocused_focusDirectional hf'

theorem steady_focusPicked {coord : Point → ℚ}
    {pick : (Tile × FloatingData → ℚ) → List (Tile × FloatingData) → Option (Tile × FloatingData)}
    (h : ws.onActiveSpace (·.focusPicked pick coord) sc = some ws') : Steady ws ws' :=
  steady_onActiveSpace (fun _ => FloatingSpace.refocused_focusPicked) h

theorem steady_focusOr {g : Workspace → Option (Bool × Workspace)} {o : Workspace → Option Workspace}
    (hg : ∀ b wt, g ws = some (b, wt) → Steady ws wt)
    (ho : ∀ wt, o wt = some ws' → Steady wt ws') (h : ws.focusOr g o = some ws') :
    Steady ws ws' := by
  obtain ⟨⟨b, wt⟩, hwt, h⟩ := of_bind h
  dsimp only at h
  split at h
  · exact some.inj h ▸ hg b wt hwt
  · exact (hg b wt hwt).trans (ho wt h)

theorem steady_moveBy {b : Bool} {amount : Point} {moved : ScrollingSpace → Bool}
    {g : ScrollingSpace → ScrollingSpace}
    (h : ws.moveOnActiveSpace (·.moveBy amount) moved g = some (b, ws')) : Steady ws ws' := by
  unfold moveOnActiveSpace at h
  split at h
  · obtain ⟨f, hf, h⟩ := of_map h
    obtain ⟨-, rfl⟩ := Prod.mk.inj h
    exact ⟨rfl, FloatingSpace.refocused_moveBy hf⟩
  · obtain ⟨-, rfl⟩ := pair_inj h
    exact ⟨rfl, .refl _⟩

theorem steady_snd {r : Option (Bool × Workspace)} (hr : ∀ b wt, r = some (b, wt) → Steady ws wt)
    (h : r.map (·.2) = some ws') : Steady ws ws' := by
  obtain ⟨⟨b, wt⟩, hwt, rfl⟩ := of_map h
  exact hr b wt hwt

/-! Switching between the spaces. -/

theorem Focus.switchFocusFloatingTiling (h : ws.Focus) : ws.switchFocusFloatingTiling.Focus := by
  have hkept := kept_switchFocusFloatingTiling h.ok
  unfold Workspace.switchFocusFloatingTiling at hkept ⊢
  split
  · exact h
  · rename_i hboth
    simp only [Bool.or_eq_true, not_or, Bool.not_eq_true, isEmpty_eq_false_iff] at hboth
    obtain ⟨hfl, hsc⟩ := hboth
    have hfl : ws.floating.windowIds ≠ [] := by
      rw [Ne, FloatingSpace.windowIds_eq_nil]
      simpa [FloatingSpace.isEmpty] using hfl
    have hsc : ws.scrolling.windowIds ≠ [] :=
      fun hnil => hsc ((ScrollingSpace.columns_eq_nil_iff h.ok.scrolling).mpr hnil)
    exact ⟨⟨h.ok.scrolling, h.ok.ids⟩, h.active, fun _ => hfl, fun _ hnil => absurd hnil hsc⟩

theorem Focus.focusFloating (h : ws.Focus) : ws.focusFloating.Focus := by
  unfold Workspace.focusFloating
  split
  · exact h
  · exact h.switchFocusFloatingTiling

theorem Focus.focusTiling (h : ws.Focus) : ws.focusTiling.Focus := by
  unfold Workspace.focusTiling
  split
  · exact h.switchFocusFloatingTiling
  · exact h

theorem Focus.focusColumn (h : ws.Focus) (index : ℕ) : (ws.focusColumn index).Focus := by
  have htiling := h.focusTiling
  have hkept := kept_focus htiling.ok (.focusColumn index)
  rw [scrolling_focusTiling] at hkept
  exact htiling.steady hkept ⟨rfl, .refl _⟩

/-- A window of the floating space gets the focus. -/
theorem Focus.toFloating (h : ws.Focus) (hw : ws.floating.hasWindow w = true)
    (hf : ws.floating.Refocused f) :
    Focus { ws with floating := f, floatingIsActive := .yes } := by
  have hne : f.windowIds ≠ [] := by
    rw [Ne, hf.nil_iff]
    exact ne_nil_of_mem (FloatingSpace.mem_windowIds_iff.mpr hw)
  have hkept := kept_floating h.ok hf.windowIds
  exact ⟨(kept_floatingIsActive hkept.ok .yes).ok, h.active.refocused hf, fun _ => hne, fun _ _ => rfl⟩

/-- A window of the scrolling space gets the focus. -/
theorem Focus.toScrolling (h : ws.Focus) (hw : ws.scrolling.hasWindow w = true) {a : FloatingActive}
    (ha : a ≠ .yes) : Focus { ws with
      scrolling := ws.scrolling.activateWindow w, floatingIsActive := a } := by
  have hkept := kept_focus h.ok (.activateWindow w)
  have hperm := ws.scrolling.perm_activateWindow w
  obtain ⟨c, hc, hcw⟩ := List.any_eq_true.mp hw
  have hne : (ws.scrolling.activateWindow w).windowIds ≠ [] := by
    rw [Ne, nil_iff_of_perm hperm]
    refine ne_nil_of_mem (mem_flatten.mpr ⟨c.windowIds, ?_, Column.mem_windowIds.mpr hcw⟩)
    exact List.mem_map_of_mem hc
  exact ⟨(kept_floatingIsActive hkept.ok a).ok, h.active, fun hyes => absurd hyes ha,
    fun _ hnil => absurd hnil hne⟩

theorem Focus.activateWindow (h : ws.Focus) {b : Bool} (ha : ws.activateWindow w = some (b, ws')) :
    ws'.Focus := by
  unfold Workspace.activateWindow at ha
  split at ha
  · rename_i hw
    obtain ⟨f, hf, ha⟩ := of_map ha
    obtain ⟨-, rfl⟩ := Prod.mk.inj ha
    exact h.toFloating hw (FloatingSpace.refocused_activateWindow hf)
  · split at ha
    · rename_i hw
      obtain ⟨-, rfl⟩ := pair_inj ha
      exact h.toScrolling hw (by simp)
    · obtain ⟨-, rfl⟩ := pair_inj ha
      exact h

theorem Focus.activateWindowWithoutRaising (h : ws.Focus) (w : ℕ) :
    (ws.activateWindowWithoutRaising w).2.Focus := by
  unfold Workspace.activateWindowWithoutRaising
  split
  · rename_i hw
    exact h.toFloating hw (FloatingSpace.refocused_activateWindowWithoutRaising ws.floating w)
  · split
    · rename_i hw
      refine h.toScrolling hw ?_
      cases ws.floatingIsActive <;> simp
    · exact h

theorem Focus.applyActive (h : ws.Focus) {op : ActiveOp} (ha : ws.applyActive op = some ws') :
    ws'.Focus := by
  have hkept := kept_applyActive h.ok ha
  cases op with
  | moveLeft => exact h.steady hkept (steady_snd (fun _ _ => steady_moveBy) ha)
  | moveRight => exact h.steady hkept (steady_snd (fun _ _ => steady_moveBy) ha)
  | moveDown => exact h.steady hkept (steady_snd (fun _ _ => steady_moveBy) ha)
  | moveUp => exact h.steady hkept (steady_snd (fun _ _ => steady_moveBy) ha)
  | focusLeft => exact h.steady hkept (steady_snd (fun _ _ => steady_focusDirectional) ha)
  | focusRight => exact h.steady hkept (steady_snd (fun _ _ => steady_focusDirectional) ha)
  | focusDown => exact h.steady hkept (steady_snd (fun _ _ => steady_focusDirectional) ha)
  | focusUp => exact h.steady hkept (steady_snd (fun _ _ => steady_focusDirectional) ha)
  | focusColumnFirst => exact h.steady hkept (steady_focusPicked ha)
  | focusColumnLast => exact h.steady hkept (steady_focusPicked ha)
  | focusWindowTop => exact h.steady hkept (steady_focusPicked ha)
  | focusWindowBottom => exact h.steady hkept (steady_focusPicked ha)
  | focusColumnRightOrFirst =>
    exact h.steady hkept
      (steady_focusOr (fun _ _ => steady_focusDirectional) (fun _ => steady_focusPicked) ha)
  | focusColumnLeftOrLast =>
    exact h.steady hkept
      (steady_focusOr (fun _ _ => steady_focusDirectional) (fun _ => steady_focusPicked) ha)
  | focusWindowDownOrTop =>
    exact h.steady hkept
      (steady_focusOr (fun _ _ => steady_focusDirectional) (fun _ => steady_focusPicked) ha)
  | focusWindowUpOrBottom =>
    exact h.steady hkept
      (steady_focusOr (fun _ _ => steady_focusDirectional) (fun _ => steady_focusPicked) ha)
  | focusDownOrLeft => exact h.steady hkept (steady_focusVertically ha)
  | focusDownOrRight => exact h.steady hkept (steady_focusVertically ha)
  | focusUpOrLeft => exact h.steady hkept (steady_focusVertically ha)
  | focusUpOrRight => exact h.steady hkept (steady_focusVertically ha)
  | centerColumn =>
    exact h.steady hkept (steady_onActiveSpace (fun _ => FloatingSpace.refocused_centerWindow) ha)
  | toggleWidth forwards =>
    exact h.steady hkept
      (steady_onActiveSpace (fun _ => FloatingSpace.refocused_toggleWindowWidth) ha)
  | setColumnWidth change =>
    exact h.steady hkept (steady_onActiveSpace (fun _ => FloatingSpace.refocused_setWindowWidth) ha)
  | focusColumn index => exact some.inj ha ▸ h.focusColumn index
  | focusFloating => exact some.inj ha ▸ h.focusFloating
  | focusTiling => exact some.inj ha ▸ h.focusTiling
  | switchFocusFloatingTiling => exact some.inj ha ▸ h.switchFocusFloatingTiling
  | moveColumnToFirst | moveColumnToLast | moveColumnToIndex | focusWindowInColumn
  | consumeIntoColumn | expelFromColumn | swapWindowInDirection | toggleColumnTabbedDisplay
  | setColumnDisplay | centerVisibleColumns | toggleFullWidth | expandColumnToAvailableWidth =>
    exact h.steady hkept (steady_onScrolling ha)

theorem Focus.applyWindow (h : ws.Focus) {op : WindowOp} (ha : ws.applyWindow window op = some ws') :
    ws'.Focus := by
  refine h.steady (kept_applyWindow h.ok ha) ?_
  cases op with
  | consumeOrExpelWindowLeft =>
    exact steady_onSpaceOf (fun _ hf => some.inj hf ▸ .refl _) ha
  | consumeOrExpelWindowRight =>
    exact steady_onSpaceOf (fun _ hf => some.inj hf ▸ .refl _) ha
  | resetWindowHeight => exact steady_onSpaceOf (fun _ hf => some.inj hf ▸ .refl _) ha
  | centerWindow => exact steady_onSpaceOf (fun _ => FloatingSpace.refocused_centerWindow) ha
  | toggleWindowWidth forwards =>
    exact steady_onSpaceOf (fun _ => FloatingSpace.refocused_toggleWindowWidth) ha
  | toggleWindowHeight forwards =>
    exact steady_onSpaceOf (fun _ => FloatingSpace.refocused_toggleWindowHeight) ha
  | setWindowWidth change =>
    exact steady_onSpaceOf (fun _ => FloatingSpace.refocused_setWindowWidth) ha
  | setWindowHeight change =>
    exact steady_onSpaceOf (fun _ => FloatingSpace.refocused_setWindowHeight) ha
  | moveFloatingWindow x y =>
    have ha : ws.moveFloatingWindow window x y = some ws' := ha
    unfold moveFloatingWindow at ha
    split at ha
    · exact steady_liftFloating (fun _ => FloatingSpace.refocused_moveWindow) ha
    · split at ha
      · exact some.inj ha ▸ .refl ws
      · obtain ⟨tile, -, rfl⟩ := of_bind_some ha
        split
        · exact .refl ws
        · exact ⟨rfl, .refl _⟩

/-! Adding and removing. -/

theorem flag_focusAddedFloating (ws : Workspace) (activate : Bool) :
    (ws.focusAddedFloating activate).floatingIsActive =
      if activate || ws.scrolling.columns.isEmpty then .yes else ws.floatingIsActive := by
  unfold focusAddedFloating
  split <;> rfl

theorem scrolling_focusAddedFloating (ws : Workspace) (activate : Bool) :
    (ws.focusAddedFloating activate).scrolling = ws.scrolling := by
  unfold focusAddedFloating
  split <;> rfl

theorem floating_focusAddedFloating (ws : Workspace) (activate : Bool) :
    (ws.focusAddedFloating activate).floating = ws.floating := by
  unfold focusAddedFloating
  split <;> rfl

theorem Focus.addsFloating (h : ws.Focus) {activate : Bool}
    (hadds : ws.AddsFloating tile activate ws') (hfresh : tile.id ∉ ws.windowIds) : ws'.Focus := by
  have hok := (hadds.edit h.ok hfresh).ok
  obtain ⟨i, f, hf, rfl⟩ := hadds
  have hne : f.windowIds ≠ [] := by
    rw [Ne, nil_iff_of_perm (FloatingSpace.addTileAt_perm hf)]
    simp
  refine ⟨hok, ?_, fun _ => ?_, fun _ hnil => ?_⟩
  · rw [floating_focusAddedFloating]
    exact h.active.addTileAt hf
  · rw [floating_focusAddedFloating]
    exact hne
  · rw [scrolling_focusAddedFloating] at hnil
    have hcols := (ScrollingSpace.columns_eq_nil_iff h.ok.scrolling).mpr hnil
    rw [flag_focusAddedFloating, if_pos (by simp [hcols])]

/-- Windows were added to the scrolling space, which may have got the focus. -/
theorem Focus.addedScrolling (h : ws.Focus) {ids : List ℕ} (hids : ids ≠ []) (hedit : Edit ids ws ws')
    (hfl : ws'.floating = ws.floating)
    (hflag : ws'.floatingIsActive = .no ∨ ws'.floatingIsActive = ws.floatingIsActive) : ws'.Focus := by
  refine ⟨hedit.ok, hfl ▸ h.active, fun hyes => ?_, fun _ hnil => ?_⟩
  · rw [hfl]
    rcases hflag with hno | hsame
    · simp [hno] at hyes
    · exact h.floating (hsame ▸ hyes)
  · have hlen := hedit.windowIds.length_eq
    have hpos := length_pos_iff.mpr hids
    simp only [windowIds, hnil, hfl, length_append, length_nil] at hlen
    omega

theorem flag_focusAddedScrolling (ws : Workspace) (activate : Bool) :
    (ws.focusAddedScrolling activate).floatingIsActive =
      if activate then .no else ws.floatingIsActive := by
  unfold focusAddedScrolling
  split <;> rfl

theorem scrolling_focusAddedScrolling (ws : Workspace) (activate : Bool) :
    (ws.focusAddedScrolling activate).scrolling = ws.scrolling := by
  unfold focusAddedScrolling
  split <;> rfl

theorem floating_focusAddedScrolling (ws : Workspace) (activate : Bool) :
    (ws.focusAddedScrolling activate).floating = ws.floating := by
  unfold focusAddedScrolling
  split <;> rfl

theorem Focus.addedBy (h : ws.Focus) {ids : List ℕ} {activate : Bool} (hids : ids ≠ [])
    (hedit : Edit ids ws ws')
    (ha : (ws.liftScrolling sc).map (·.focusAddedScrolling activate) = some ws') : ws'.Focus := by
  obtain ⟨wt, hwt, rfl⟩ := of_map ha
  obtain ⟨s, -, rfl⟩ := of_map hwt
  refine h.addedScrolling hids hedit (floating_focusAddedScrolling ..) ?_
  rw [flag_focusAddedScrolling]
  cases activate
  · exact .inr rfl
  · exact .inl rfl

theorem Focus.addsScrolling (h : ws.Focus) {activate : Bool}
    (hadds : ws.AddsScrolling tile activate ws') (hfresh : tile.id ∉ ws.windowIds) : ws'.Focus := by
  have hedit := hadds.edit h.ok hfresh
  obtain ⟨colIdx, width, isFullWidth, s, -, rfl⟩ := hadds
  refine h.addedScrolling (by simp) hedit (floating_focusAddedScrolling ..) ?_
  rw [flag_focusAddedScrolling]
  cases activate
  · exact .inr rfl
  · exact .inl rfl

theorem flag_updateFocus (ws : Workspace) (removedFromFloating : Bool) :
    (ws.updateFocusFloatingTilingAfterRemoving removedFromFloating).floatingIsActive =
      if removedFromFloating then if ws.floating.isEmpty then .no else ws.floatingIsActive
      else if ws.scrolling.columns.isEmpty && !ws.floating.isEmpty then .yes
      else ws.floatingIsActive := by
  unfold updateFocusFloatingTilingAfterRemoving
  split
  · split <;> rfl
  · split <;> rfl

theorem scrolling_updateFocus (ws : Workspace) (removedFromFloating : Bool) :
    (ws.updateFocusFloatingTilingAfterRemoving removedFromFloating).scrolling = ws.scrolling := by
  unfold updateFocusFloatingTilingAfterRemoving
  split
  · split <;> rfl
  · split <;> rfl

theorem floating_updateFocus (ws : Workspace) (removedFromFloating : Bool) :
    (ws.updateFocusFloatingTilingAfterRemoving removedFromFloating).floating = ws.floating := by
  unfold updateFocusFloatingTilingAfterRemoving
  split
  · split <;> rfl
  · split <;> rfl

theorem isEmpty_iff (f : FloatingSpace) : f.isEmpty = true ↔ f.windowIds = [] := by
  rw [FloatingSpace.windowIds_eq_nil]
  exact List.isEmpty_iff

theorem Focus.dropsFloating (h : ws.Focus) {removed : RemovedTile}
    (hdrops : ws.DropsFloating removed ws') : ws'.Focus := by
  have hok := (hdrops.cut h.ok).ok
  obtain ⟨f, hf, rfl⟩ := hdrops
  have hne : ws.floating.windowIds ≠ [] := by
    rw [Ne, nil_iff_of_perm (FloatingSpace.removeTile_perm hf).2]
    simp
  refine ⟨hok, ?_, ?_, ?_⟩
  · rw [floating_updateFocus]
    exact h.active.removeTile hf
  · rw [floating_updateFocus, flag_updateFocus, if_pos rfl]
    intro hyes hnil
    rw [if_pos ((isEmpty_iff f).mpr hnil)] at hyes
    cases hyes
  · rw [floating_updateFocus, scrolling_updateFocus, flag_updateFocus, if_pos rfl]
    intro hfl hnil
    rw [if_neg fun hempty => hfl ((isEmpty_iff f).mp hempty)]
    exact h.scrolling hne hnil

/-- Windows were removed from the scrolling space. -/
theorem Focus.droppedScrolling (h : ws.Focus) (hok : Ok { ws with scrolling := s }) :
    ({ ws with scrolling := s }.updateFocusFloatingTilingAfterRemoving false).Focus := by
  refine ⟨(kept_updateFocus hok false).ok, ?_, ?_, ?_⟩
  · rw [floating_updateFocus]
    exact h.active
  · rw [floating_updateFocus, flag_updateFocus, if_neg (by simp)]
    intro hyes hnil
    rw [if_neg (by simp [(isEmpty_iff ws.floating).mpr hnil])] at hyes
    exact h.floating hyes hnil
  · rw [floating_updateFocus, scrolling_updateFocus, flag_updateFocus, if_neg (by simp)]
    intro hne hnil
    have hcols : s.columns = [] := (ScrollingSpace.columns_eq_nil_iff hok.scrolling).mpr hnil
    have hempty : ws.floating.isEmpty = false :=
      Bool.eq_false_iff.mpr fun hempty => hne ((isEmpty_iff ws.floating).mp hempty)
    rw [if_pos (by simp [hcols, hempty])]

theorem Focus.dropsScrolling (h : ws.Focus) {removed : RemovedTile}
    (hdrops : ws.DropsScrolling removed ws') : ws'.Focus := by
  obtain ⟨i, k, s, hs, rfl⟩ := hdrops
  have htame : ScrollingSpace.Tame true ws.scrolling s := ScrollingSpace.tame_removeTileByIdx hs
  have hcut : Cut [removed.tile.id] ws { ws with scrolling := s } :=
    cut_scrolling h.ok (htame.inv h.ok.scrolling) (ScrollingSpace.removeTileByIdx_perm hs)
  exact h.droppedScrolling hcut.ok

theorem Focus.removeActiveColumn (h : ws.Focus) {column : Column}
    (hr : ws.removeActiveColumn = some (some (column, ws'))) : ws'.Focus := by
  obtain ⟨s, hs, rfl⟩ := removeActiveColumn_cases hr
  have htame : ScrollingSpace.Tame true ws.scrolling s := ScrollingSpace.tame_removeColumnByIdx hs
  exact h.droppedScrolling (cut_scrolling h.ok (htame.inv h.ok.scrolling)
    (ScrollingSpace.removeColumnByIdx_perm hs)).ok

/-! The active window. -/

theorem Focus.activeId_eq (h : ws.Focus) : ws.activeId =
    if ws.floatingIsActive = .yes then ws.floating.activeWindowId else ws.scrolling.activeId := by
  unfold activeId activeWindow
  by_cases hyes : ws.floatingIsActive = .yes
  · rw [if_pos (get_eq_true.mpr hyes), if_pos hyes]
    exact h.active.activeWindow_id
  · rw [if_neg (mt get_eq_true.mp hyes), if_neg hyes]
    exact ws.scrolling.activeWindow_id

theorem Focus.activeId_eq_none_iff (h : ws.Focus) : ws.activeId = none ↔ ws.windowIds = [] := by
  have hscrolling : ws.scrolling.activeId = none ↔ ws.scrolling.windowIds = [] := by
    rw [← not_isSome_iff_eq_none, ScrollingSpace.activeId_isSome_iff h.ok.scrolling, not_not,
      ScrollingSpace.columns_eq_nil_iff h.ok.scrolling]
  unfold windowIds
  rw [h.activeId_eq, append_eq_nil_iff]
  split
  · rename_i hyes
    have hne := h.floating hyes
    have hsome := h.active.isSome hne
    exact ⟨fun hnone => by simp [hnone] at hsome, fun hnil => absurd hnil.2 hne⟩
  · rename_i hno
    rw [hscrolling]
    refine ⟨fun hnil => ⟨hnil, ?_⟩, And.left⟩
    by_contra hne
    exact hno (h.scrolling hne hnil)

/-- An active window of the floating space that is not the removed one is still there. -/
theorem active_of_removed (h : ws.Focus) (hyes : ws.floatingIsActive = .yes)
    (hw : (some w == ws.activeId) = false) {removed : RemovedTile}
    (hf : ws.floating.removeTile w = some (removed, f)) :
    f.activeWindowId = ws.floating.activeWindowId ∧ f.windowIds ≠ [] := by
  rw [h.activeId_eq, if_pos hyes] at hw
  obtain ⟨v, hv⟩ := isSome_iff_exists.mp (h.active.isSome (h.floating hyes))
  have hperm := (FloatingSpace.removeTile_perm hf).2
  have hmem : v ∈ f.windowIds := by
    rcases mem_cons.mp (hperm.mem_iff.mp (h.active.mem v hv)) with rfl | hmem
    · simp [hv] at hw
    · exact hmem
  have hne := ne_nil_of_mem hmem
  refine ⟨?_, hne⟩
  rw [FloatingSpace.active_removeTile hf, if_neg, if_neg]
  · exact fun heq => by simp [heq] at hw
  · simpa [FloatingSpace.windowIds_eq_nil] using hne

theorem Focus.toScrolling_activeId (h : ws.Focus) (hw : ws.floating.hasWindow w = true)
    (hto : ws.ToScrolling w (some w == ws.activeId) ws') (hkept : Kept ws ws') :
    ws'.Focus ∧ ws'.activeId = ws.activeId := by
  obtain ⟨removed, f, hf, colIdx, width, isFullWidth, s, hs, rfl⟩ := hto
  obtain ⟨hid, hperm⟩ := FloatingSpace.removeTile_perm hf
  have hne := (ne_nil_of_mem (FloatingSpace.mem_windowIds_iff.mpr hw))
  have hadded : s.windowIds ≠ [] := by
    rw [Ne, nil_iff_of_perm (ScrollingSpace.addTile_perm hs)]
    simp
  have hfocus : (focusAddedScrolling { ws with floating := f, scrolling := s }
      (some w == ws.activeId)).Focus := by
    refine ⟨hkept.ok, ?_, ?_, ?_⟩
    · rw [floating_focusAddedScrolling]
      exact h.active.removeTile hf
    · rw [floating_focusAddedScrolling, flag_focusAddedScrolling]
      cases hactive : some w == ws.activeId with
      | true => simp
      | false => exact fun hyes => (active_of_removed h hyes hactive hf).2
    · rw [scrolling_focusAddedScrolling]
      exact fun _ hnil => absurd hnil hadded
  refine ⟨hfocus, ?_⟩
  rw [hfocus.activeId_eq, flag_focusAddedScrolling, floating_focusAddedScrolling,
    scrolling_focusAddedScrolling]
  cases hactive : some w == ws.activeId with
  | true =>
    rw [hactive] at hs
    rw [if_pos rfl, if_neg (by simp), ← beq_iff_eq.mp hactive, ← hid]
    exact ScrollingSpace.activeId_addTile_true hs
  | false =>
    rw [hactive] at hs
    rw [if_neg Bool.false_ne_true, h.activeId_eq]
    split
    · rename_i hyes
      exact (active_of_removed h hyes hactive hf).1
    · rename_i hno
      -- The scrolling space has windows, or the floating one would have the focus.
      have hcols : ws.scrolling.columns ≠ [] := fun hnil =>
        hno (h.scrolling hne ((ScrollingSpace.columns_eq_nil_iff h.ok.scrolling).mp hnil))
      exact ScrollingSpace.activeId_addTile_false h.ok.scrolling hcols hs

theorem Focus.toFloating_activeId (h : ws.Focus) {renderPos : Point}
    (hto : ws.ToFloating w (some w == ws.activeId) renderPos ws') (hkept : Kept ws ws') :
    ws'.Focus ∧ ws'.activeId = ws.activeId := by
  obtain ⟨removed, s, f, hs, hf, rfl⟩ := hto
  have hid := ScrollingSpace.removeTile_id hs
  have hadded : f.windowIds ≠ [] := by
    rw [Ne, nil_iff_of_perm (FloatingSpace.addTileAt_perm hf)]
    simp
  -- If another window of the scrolling space is active, it stays there.
  have hother (hno : ws.floatingIsActive ≠ .yes) (hactive : (some w == ws.activeId) = false) :
      s.activeId = ws.scrolling.activeId := by
    rw [h.activeId_eq, if_neg hno] at hactive
    refine ScrollingSpace.activeId_removeTile h.ok.scrolling (fun heq => ?_) hs
    simp [heq] at hactive
  have hfocus : Focus { ws with
      scrolling := s
      floating := f
      floatingIsActive := if some w == ws.activeId then .yes else ws.floatingIsActive } := by
    refine ⟨hkept.ok, h.active.addTileAt hf, fun _ => hadded, fun _ hnil => ?_⟩
    cases hactive : some w == ws.activeId with
    | true => rfl
    | false =>
      rw [if_neg Bool.false_ne_true]
      by_contra hno
      have hnone : s.activeId = none := by
        rw [← not_isSome_iff_eq_none, ScrollingSpace.activeId_isSome_iff hkept.ok.scrolling,
          not_not, ScrollingSpace.columns_eq_nil_iff hkept.ok.scrolling]
        exact hnil
      rw [hother hno hactive] at hnone
      have hsome : ws.scrolling.activeId.isSome := by
        rw [ScrollingSpace.activeId_isSome_iff h.ok.scrolling]
        obtain ⟨⟨i, k⟩, -, hs⟩ := of_bind hs
        obtain ⟨c, hc, -⟩ := of_bind hs
        exact ne_nil_of_getElem? hc
      simp [hnone] at hsome
  refine ⟨hfocus, ?_⟩
  rw [hfocus.activeId_eq]
  have hactivated := FloatingSpace.active_addTileAt hf
  rw [withFloatingPos_id, hid] at hactivated
  cases hactive : some w == ws.activeId with
  | true =>
    rw [hactive, Bool.true_or, if_pos rfl] at hactivated
    rw [if_pos rfl, if_pos rfl, hactivated]
    exact beq_iff_eq.mp hactive
  | false =>
    rw [if_neg Bool.false_ne_true, h.activeId_eq]
    split
    · rename_i hyes
      have hne := h.floating hyes
      rw [Ne, FloatingSpace.windowIds_eq_nil] at hne
      rw [hactive, Bool.false_or, if_neg (by simpa using hne)] at hactivated
      exact hactivated
    · rename_i hno
      exact hother hno hactive

theorem Focus.toggles (h : ws.Focus) {renderPos : Point} (ht : ws.Toggles w renderPos ws') :
    ws'.Focus ∧ ws'.activeId = ws.activeId := by
  have hkept := ht.kept h.ok
  unfold Toggles at ht
  split at ht
  · rename_i hw
    exact h.toScrolling_activeId hw ht hkept
  · exact h.toFloating_activeId ht hkept

theorem Focus.toggleWindowFloating (h : ws.Focus) {renderPos : Point}
    (ht : ws.toggleWindowFloating window renderPos = some ws') :
    ws'.Focus ∧ ws'.activeId = ws.activeId := by
  rcases toggleWindowFloating_cases ht with ⟨-, -, rfl⟩ | ⟨w, -, htoggles⟩
  · exact ⟨h, rfl⟩
  · exact h.toggles htoggles

theorem Focus.setWindowFloating (h : ws.Focus) {floating : Bool} {renderPos : Point}
    (ht : ws.setWindowFloating window floating renderPos = some ws') :
    ws'.Focus ∧ ws'.activeId = ws.activeId := by
  unfold Workspace.setWindowFloating at ht
  split at ht
  · exact some.inj ht ▸ ⟨h, rfl⟩
  · exact h.toggleWindowFloating ht

theorem foci_modifyTile (s : ScrollingSpace) (w : ℕ) {g : Tile → Tile} (hg : ∀ t, (g t).id = t.id) :
    (s.modifyTile w g).foci = s.foci := by
  unfold ScrollingSpace.modifyTile
  split
  · rfl
  · refine map_modify_of_eq fun c => Column.activeId_eq ?_ rfl
    exact map_modify_of_eq hg

theorem activeId_modifyTile (s : ScrollingSpace) (w : ℕ) {g : Tile → Tile}
    (hg : ∀ t, (g t).id = t.id) : (s.modifyTile w g).activeId = s.activeId := by
  refine ScrollingSpace.activeId_congr (foci_modifyTile s w hg) ?_
  unfold ScrollingSpace.modifyTile
  split <;> rfl

/-- An operation of the scrolling space that keeps its active window. -/
theorem Focus.scrolled (h : ws.Focus) (hkept : Kept ws { ws with scrolling := s })
    (hactive : s.activeId = ws.scrolling.activeId) :
    Focus { ws with scrolling := s } ∧ activeId { ws with scrolling := s } = ws.activeId := by
  have hfocus := h.steady hkept ⟨rfl, .refl _⟩
  refine ⟨hfocus, ?_⟩
  rw [hfocus.activeId_eq, h.activeId_eq, hactive]

theorem Focus.setScrollingPending (h : ws.Focus) {restore : Bool}
    {set : ScrollingSpace → Option ScrollingSpace}
    (hset : ∀ s, set ws.scrolling = some s → Kept ws { ws with scrolling := s })
    (hactive : ∀ s, set ws.scrolling = some s → s.activeId = ws.scrolling.activeId)
    (hp : ws.setScrollingPending w restore set = some ws') :
    ws'.Focus ∧ ws'.activeId = ws.activeId := by
  have hkept := kept_setScrollingPending hset hp
  obtain ⟨tile, -, hp⟩ := of_bind hp
  obtain ⟨s, hs, hp⟩ := of_bind hp
  obtain ⟨tile', -, rfl⟩ := of_bind_some hp
  refine h.scrolled hkept ?_
  split
  · refine (activeId_modifyTile s w ?_).trans (hactive s hs)
    exact fun _ => rfl
  · exact hactive s hs

theorem Focus.setsPending (h : ws.Focus) {enable : Bool} {renderPos : Point}
    {set : ScrollingSpace → Bool → Option ScrollingSpace} {toFloating : Option Bool}
    (hset : ∀ wt b s, wt.Ok → set wt.scrolling b = some s → Kept wt { wt with scrolling := s })
    (hactive : ∀ t b s, t.Inv → set t b = some s → s.activeId = t.activeId)
    (hp : SetsPending ws w renderPos set toFloating enable ws') :
    ws'.Focus ∧ ws'.activeId = ws.activeId := by
  cases hp with
  | fromFloating hw htoggle hp =>
    obtain ⟨hfocus, hid⟩ := h.toggleWindowFloating htoggle
    have hpending := hfocus.setScrollingPending (fun s => hset _ true s hfocus.ok)
      (fun s => hactive _ true s hfocus.ok.scrolling) hp
    exact ⟨hpending.1, hpending.2.trans hid⟩
  | floating hw => exact ⟨h, rfl⟩
  | toFloating hw hto htoggle => exact h.toggleWindowFloating htoggle
  | tiled hw hto hp =>
    exact h.setScrollingPending (fun s => hset _ _ s h.ok) (fun s => hactive _ _ s h.ok.scrolling) hp

theorem Focus.setFullscreen (h : ws.Focus) {enable : Bool} {renderPos : Point}
    (hp : ws.setFullscreen w enable renderPos = some ws') :
    ws'.Focus ∧ ws'.activeId = ws.activeId :=
  h.setsPending (fun _ b _ hwt => kept_op hwt (.setFullscreen w b) rfl)
    (fun _ _ _ hs => ScrollingSpace.activeId_setFullscreen hs) (setFullscreen_cases hp)

theorem Focus.setMaximized (h : ws.Focus) {maximize : Bool} {renderPos : Point}
    (hp : ws.setMaximized w maximize renderPos = some ws') :
    ws'.Focus ∧ ws'.activeId = ws.activeId :=
  h.setsPending (fun _ b _ hwt => kept_op hwt (.setMaximized w b) rfl)
    (fun _ _ _ hs => ScrollingSpace.activeId_setMaximized hs) (setMaximized_cases hp)

/-! Steps and runs. -/

theorem steady_modifyWindow (ws : Workspace) (w : ℕ) {g : Window → Window}
    (hg : ∀ win, (g win).id = win.id) : Steady ws (ws.modifyWindow w g) := by
  refine ⟨rfl, .of_same ?_ ⟨rfl, rfl⟩⟩
  unfold FloatingSpace.windowIds modifyWindow
  dsimp only
  rw [List.map_map]
  refine map_congr_left fun t _ => ?_
  dsimp only [Function.comp_apply]
  split
  · exact hg t.window
  · rfl

theorem Focus.applyUpdate (h : ws.Focus) {op : UpdateOp} (ha : ws.applyUpdate op = some ws') :
    ws'.Focus := by
  refine h.steady (kept_applyUpdate h.ok ha) ?_
  cases op with
  | descendantsAdded window =>
    have ha : ws.liftFloating (·.descendantsAdded window) = some ws' := ha
    exact steady_liftFloating (fun _ => FloatingSpace.refocused_descendantsAdded) ha
  | updateWindow window commit ongoing =>
    exact steady_onSpaceOf (fun _ => FloatingSpace.refocused_updateWindow) ha
  | setParent window parent => exact some.inj ha ▸ steady_modifyWindow ws window fun _ => rfl
  | requestWindowedFullscreen window value =>
    exact some.inj ha ▸ steady_modifyWindow ws window fun _ => rfl
  | refresh => exact some.inj ha ▸ ⟨rfl, ws.floating.refocused_refresh⟩
  | interactiveResizeBegin window edges =>
    exact steady_onSpaceOf (fun _ => FloatingSpace.refocused_interactiveResizeBegin) ha
  | interactiveResizeUpdate window delta =>
    exact steady_onSpaceOf (fun _ => FloatingSpace.refocused_interactiveResizeUpdate) ha
  | interactiveResizeEnd window =>
    refine steady_onSpaceOf (fun _ hf => ?_) ha
    exact some.inj hf ▸ FloatingSpace.refocused_interactiveResizeEnd ..
  | viewOffsetGestureBegin | viewOffsetGestureUpdate | viewOffsetGestureEnd | dndScrollGestureBegin
  | dndScrollGestureScroll | dndScrollGestureEnd | setClock | advanceAnimations =>
    exact some.inj ha ▸ ⟨rfl, .refl _⟩

theorem steady_setViewSize (ws : Workspace) (scale : ℚ) (transform : Transform) (size : Size)
    (area : Rectangle) : Steady ws (ws.setViewSize scale transform size area) := by
  unfold setViewSize
  split
  · exact .refl ws
  · dsimp only
    split
    · exact ⟨rfl, FloatingSpace.refocused_updateConfig ..⟩
    · exact ⟨rfl, FloatingSpace.refocused_updateConfig ..⟩

theorem Focus.updateOutputSize (h : ws.Focus) : ws.updateOutputSize.Focus := by
  refine h.steady (kept_updateOutputSize h.ok) ?_
  unfold Workspace.updateOutputSize
  split
  · exact .refl ws
  · exact steady_setViewSize ..

theorem Focus.setOutput (h : ws.Focus) (output : Option Output) : (ws.setOutput output).Focus := by
  have hsame (o : Option Output) (original : OutputId) :
      Focus { ws with output := o, originalOutput := original } :=
    ⟨⟨h.ok.scrolling, h.ok.ids⟩, h.active, h.floating, h.scrolling⟩
  unfold Workspace.setOutput
  split
  · exact h
  · split
    · exact hsame none ws.originalOutput
    · exact (hsame _ _).updateOutputSize

theorem Focus.applyConfig (h : ws.Focus) (op : ConfigOp) : (ws.applyConfig op).Focus := by
  cases op with
  | updateConfig baseOptions =>
    exact h.steady (kept_updateConfig h.ok baseOptions) ⟨rfl, FloatingSpace.refocused_updateConfig ..⟩
  | updateLayoutConfig layoutConfig =>
    refine h.steady (kept_updateLayoutConfig h.ok layoutConfig) ?_
    show Steady ws (ws.updateLayoutConfig layoutConfig)
    unfold updateLayoutConfig
    split
    · exact .refl ws
    · exact ⟨rfl, FloatingSpace.refocused_updateConfig ..⟩
  | setOutput output => exact h.setOutput output
  | updateOutputSize => exact h.updateOutputSize

theorem Focus.step (h : ws.Focus) {op : WorkspaceOp} (hstep : ws.step op = some ws') : ws'.Focus := by
  obtain ⟨hfresh, ha⟩ := step_spec hstep
  cases op with
  | active op => exact h.applyActive ha
  | window window op => exact h.applyWindow ha
  | activateWindow window =>
    obtain ⟨⟨b, wt⟩, hwt, rfl⟩ := of_map ha
    exact h.activateWindow hwt
  | activateWindowWithoutRaising window =>
    exact some.inj ha ▸ h.activateWindowWithoutRaising window
  | addTile tile target activate width isFullWidth isFloating renderPos =>
    have hnew : tile.id ∉ ws.windowIds := hfresh tile.id (mem_singleton_self _)
    obtain ⟨pos, a, ⟨-, -, hadds⟩ | hadds⟩ := addTile_cases ha
    · exact h.addsFloating hadds hnew
    · exact h.addsScrolling hadds hnew
  | addTileToColumn colIdx tileIdx tile activate =>
    have hnew : tile.id ∉ ws.windowIds := hfresh tile.id (mem_singleton_self _)
    exact h.addedBy (by simp) (edit_addTileToColumn h.ok hnew ha) ha
  | addColumn column activate =>
    refine h.addedBy ?_ (edit_addColumn h.ok hfresh ha) ha
    simpa [Column.windowIds] using column.2.nonempty
  | removeTile window =>
    obtain ⟨⟨removed, wt⟩, hwt, rfl⟩ := of_map ha
    rcases (removeTile_cases hwt).1 with hdrops | hdrops
    · exact h.dropsFloating hdrops
    · exact h.dropsScrolling hdrops
  | removeActiveTile =>
    obtain ⟨_ | ⟨removed, wt⟩, hwt, rfl⟩ := of_map ha
    · exact h
    · rcases removeActiveTile_cases hwt with hdrops | hdrops
      · exact h.dropsFloating hdrops
      · exact h.dropsScrolling hdrops
  | removeActiveColumn =>
    obtain ⟨_ | ⟨column, wt⟩, hwt, rfl⟩ := of_map ha
    · exact h
    · exact h.removeActiveColumn hwt
  | toggleWindowFloating window renderPos => exact (h.toggleWindowFloating ha).1
  | setWindowFloating window floating renderPos => exact (h.setWindowFloating ha).1
  | setFullscreen window isFullscreen renderPos => exact (h.setFullscreen ha).1
  | toggleFullscreen window renderPos =>
    obtain ⟨tile, -, ha⟩ := of_bind ha
    exact (h.setFullscreen ha).1
  | setMaximized window maximize renderPos => exact (h.setMaximized ha).1
  | toggleMaximized window renderPos => exact (h.setMaximized ha).1
  | update op => exact h.applyUpdate ha
  | config op => exact some.inj ha ▸ h.applyConfig op

/-- A workspace as it is created, on an output or without one. -/
def Created (ws : Workspace) : Prop :=
  ∃ id config clock baseOptions,
    (∃ output, ws = newWithConfig id output config clock baseOptions) ∨
      ws = newWithConfigNoOutputs id config clock baseOptions

theorem Created.focus (h : ws.Created) : ws.Focus := by
  have hempty {ws : Workspace} (hinv : ws.scrolling.Inv) (hscrolling : ws.scrolling.columns = [])
      (hfloating : ws.floating.tiles = []) (hdata : ws.floating.data = [])
      (hactive : ws.floating.activeWindowId = none) (hflag : ws.floatingIsActive = .no) : ws.Focus := by
    have hfl : ws.floating.windowIds = [] := FloatingSpace.windowIds_eq_nil.mpr hfloating
    have hsc : ws.scrolling.windowIds = [] :=
      (ScrollingSpace.columns_eq_nil_iff hinv).mp hscrolling
    refine ⟨⟨hinv, by simp [windowIds, hfl, hsc]⟩, ⟨?_, ?_, fun hne => absurd hfl hne⟩, ?_,
      fun hne => absurd hfl hne⟩
    · rw [hdata, hfloating]
      rfl
    · simp [hactive]
    · simp [hflag]
  obtain ⟨id, config, clock, baseOptions, ⟨output, rfl⟩ | rfl⟩ := h
  · exact hempty ScrollingSpace.inv_new rfl rfl rfl rfl rfl
  · exact hempty ScrollingSpace.inv_new rfl rfl rfl rfl rfl

theorem focus_run (hws : ws.Focus) {ops : List WorkspaceOp} (h : run step ws ops = some ws') :
    ws'.Focus := run_invariant (fun _ _ _ hs => hs.step) hws h

theorem Created.floatingIsActive_consistent (hws : ws.Created) {ops : List WorkspaceOp}
    (h : run step ws ops = some ws') :
    (ws'.floatingIsActive = .yes → ws'.floating.isEmpty = false) ∧
      (ws'.floating.isEmpty = false → ws'.scrolling.columns = [] → ws'.floatingIsActive = .yes) ∧
      (ws'.activeWindow = none ↔ ws'.hasWindows = false) ∧
      ∀ wt, (∃ window pos, ws'.toggleWindowFloating window pos = some wt) ∨
          (∃ w enable pos, ws'.setFullscreen w enable pos = some wt) ∨
          (∃ w enable pos, ws'.setMaximized w enable pos = some wt) →
        wt.activeWindow.map (·.id) = ws'.activeWindow.map (·.id) := by
  have hfocus := focus_run hws.focus h
  have hempty : ws'.floating.isEmpty = false ↔ ws'.floating.windowIds ≠ [] := by
    rw [← Bool.not_eq_true, isEmpty_iff]
  refine ⟨fun hyes => hempty.mpr (hfocus.floating hyes), fun hfl hcols => ?_, ?_, fun wt hwt => ?_⟩
  · exact hfocus.scrolling (hempty.mp hfl)
      ((ScrollingSpace.columns_eq_nil_iff hfocus.ok.scrolling).mp hcols)
  · rw [← map_eq_none_iff (f := fun win : Window => win.id)]
    exact hfocus.activeId_eq_none_iff.trans (by rw [← Bool.not_eq_true, hasWindows_iff, not_not])
  · rcases hwt with ⟨window, pos, hwt⟩ | ⟨w, enable, pos, hwt⟩ | ⟨w, enable, pos, hwt⟩
    · exact (hfocus.toggleWindowFloating hwt).2
    · exact (hfocus.setFullscreen hwt).2
    · exact (hfocus.setMaximized hwt).2

def testWorkspace : Workspace := newNoOutputs 0 0 .default

/-- Open a window, tiled or floating. -/
def openWindow (id : ℕ) (isFloating : Bool) : WorkspaceOp :=
  .addTile (ScrollingSpace.testTile id) .auto .yes (.proportion (1 / 2)) false isFloating ⟨0, 0⟩

/-- A floating window stays active when the only tiled one is made fullscreen and then closed. -/
theorem floatingIsActive_consistent_dialog :
    ∃ ws', run step testWorkspace [openWindow 1 false, openWindow 2 true,
        .setFullscreen 1 true ⟨0, 0⟩, .removeTile 1] = some ws' ∧
      ws'.scrolling.columns = [] ∧ ws'.floatingIsActive = .yes ∧
      ∀ wt, ws'.setFullscreen 2 true ⟨0, 0⟩ = some wt →
        wt.activeWindow.map (·.id) = ws'.activeWindow.map (·.id) := by
  have hrun : (run step testWorkspace [openWindow 1 false, openWindow 2 true,
      .setFullscreen 1 true ⟨0, 0⟩, .removeTile 1]).any
        (fun ws => ws.scrolling.columns.isEmpty && !ws.floating.isEmpty) = true := by decide +kernel
  obtain ⟨ws', hws', hspaces⟩ := (Option.any_eq_true ..).mp hrun
  have hcreated : testWorkspace.Created := ⟨0, none, 0, .default, .inr rfl⟩
  obtain ⟨-, hyes, -, hsame⟩ := hcreated.floatingIsActive_consistent hws'
  simp only [Bool.and_eq_true, List.isEmpty_iff, Bool.not_eq_true'] at hspaces
  exact ⟨ws', hws', hspaces.1, hyes hspaces.2 hspaces.1,
    fun wt hwt => hsame wt (.inr (.inl ⟨2, true, ⟨0, 0⟩, hwt⟩))⟩

end Workspace

end Macniri.Layout
