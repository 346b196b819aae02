import Macniri.Layout.SoundSteps

/-! Windows are opened, closed, and dragged around. -/
namespace Macniri.Layout

open Option List

variable {l l' lt : Layout} {m m' mt : Monitor} {ws ws' : Workspace} {idx w window : ℕ}
variable {output : Output} {added removed : List ℕ}

/-! The active monitor. -/

theorem Monitor.keeps_applyActive (h : m.Sound) {op : ActiveMonitorOp}
    (hm : m.applyActive op = some m') : Monitor.Changes [] [] m m' := by
  have hinv := h.inv
  have hfocused := h.focused
  cases op with
  | moveDownOrToWorkspaceDown =>
    exact (effect_moveDownOrToWorkspaceDown hinv hm).changes (hfocused.moveDownOrToWorkspaceDown hinv hm)
  | moveUpOrToWorkspaceUp =>
    exact (effect_moveUpOrToWorkspaceUp hinv hm).changes (hfocused.moveUpOrToWorkspaceUp hinv hm)
  | focusWindowOrWorkspaceDown =>
    exact (effect_focusWindowOrWorkspaceDown hinv hm).changes
      (hfocused.focusWindowOrWorkspaceDown hinv hm)
  | focusWindowOrWorkspaceUp =>
    exact (effect_focusWindowOrWorkspaceUp hinv hm).changes (hfocused.focusWindowOrWorkspaceUp hinv hm)
  | moveToWorkspaceUp | moveToWorkspaceDown =>
    exact (effect_moveActiveTileTo hinv hm).changes (hfocused.moveActiveTileTo hinv hm)
  | moveColumnToWorkspaceUp | moveColumnToWorkspaceDown =>
    exact (effect_moveColumnTo hinv (effect_moveActiveTileTo hinv) hm).changes
      (hfocused.moveColumnTo hinv (fun hother => hfocused.moveActiveTileTo hinv hother) hm)
  | moveColumnToWorkspace =>
    exact (effect_moveColumnTo hinv (effect_moveToWorkspace hinv) hm).changes
      (hfocused.moveColumnTo hinv (fun hother => hfocused.moveToWorkspace hinv hother) hm)
  | switchWorkspaceUp => exact h.shown (shown_switchWorkspaceUp hinv.toCore hm)
  | switchWorkspaceDown => exact h.shown (shown_switchWorkspaceDown hinv.toCore hm)
  | switchWorkspace => exact h.shown (shown_switchWorkspace hinv.toCore hm)
  | switchWorkspaceAutoBackAndForth =>
    exact h.shown (shown_switchWorkspaceAutoBackAndForth hinv.toCore hm)
  | switchWorkspacePrevious => exact h.shown (shown_switchWorkspacePrevious hinv.toCore hm)
  | moveWorkspaceDown =>
    exact (effect_moveWorkspaceDown hinv hm).changes (hfocused.moveWorkspaceDown hm)
  | moveWorkspaceUp => exact (effect_moveWorkspaceUp hinv hm).changes (hfocused.moveWorkspaceUp hm)

/-! Opening a window. -/

theorem keeps_ensureWorkspace (h : l.Intact) : Keeps l l.ensureWorkspace := by
  unfold ensureWorkspace
  split
  · rename_i hset
    refine .of_count (fun ws hws => ?_) rfl fun w => ?_
    · obtain rfl := mem_singleton.mp hws
      exact Workspace.Created.focus ⟨_, _, _, _, .inr rfl⟩
    · rw [hset]
      rfl
  · exact .refl h

theorem keeps_resolveTargetNoOutputs (h : l.Intact) {target : AddWindowTarget}
    {wsTarget : WorkspaceAddWindowTarget}
    (hl : l.resolveTargetNoOutputs target = some (l', idx, wsTarget)) : Keeps l l' := by
  cases target with
  | auto =>
    obtain ⟨rfl, -⟩ := pair_inj hl
    exact keeps_ensureWorkspace h
  | output => cases hl
  | workspace =>
    obtain ⟨i, -, hi⟩ := of_map hl
    obtain ⟨rfl, -⟩ := Prod.mk.inj hi
    exact .refl h
  | nextTo =>
    unfold resolveTargetNoOutputs at hl
    dsimp only at hl
    split at hl
    · obtain ⟨rfl, -⟩ := pair_inj hl
      exact keeps_ensureWorkspace h
    · obtain ⟨i, -, hi⟩ := of_map hl
      obtain ⟨rfl, -⟩ := Prod.mk.inj hi
      exact .refl h

theorem changes_onWorkspaceNoOutputs (added : List ℕ) (h : l.Intact) {g : Workspace → Option Workspace}
    (hg : ∀ ws ws', (∀ v ∈ ws.windowIds, v ∈ l.windowIds) → ws.Focus → g ws = some ws' →
      Workspace.Edit added ws ws' ∧ ws'.Focus)
    (hl : l.onWorkspaceNoOutputs idx g = some l') : Changes added [] l l' := by
  unfold onWorkspaceNoOutputs at hl
  cases hset : l.monitorSet with
  | normal ms primaryIdx activeMonitorIdx =>
    rw [hset] at hl
    cases hl
  | noOutputs workspaces =>
    rw [hset] at hl
    obtain ⟨ws, hws, hl⟩ := of_bind hl
    obtain ⟨ws', hws', rfl⟩ := of_bind_some hl
    have hfocus := h.noOutputs hset
    have hmem := mem_of_getElem? hws
    have hthere : ∀ v ∈ ws.windowIds, v ∈ l.windowIds := fun v hv => by
      refine mem_append_right _ (mem_flatMap.mpr ⟨ws, ?_, hv⟩)
      rwa [Layout.workspaces, hset]
    obtain ⟨hedit, hnew⟩ := hg ws ws' hthere (hfocus ws hmem) hws'
    refine .of_count (fun w hw => ?_) rfl fun w => ?_
    · obtain rfl | hw := mem_of_mem_set hw
      · exact hnew
      · exact hfocus w hw
    · rw [hset]
      have hcount := hedit.windowIds.count_eq w
      have hsum := sum_map_set (f := fun ws : Workspace => ws.windowIds.count w) hws ws'
      simp only [MonitorSet.count, count_nil, count_append] at hcount ⊢
      omega

theorem changes_addWindow (h : l.Intact) {window : Window} (hfresh : window.id ∉ l.windowIds)
    {target : AddWindowTarget} {opening : WindowOpening} (hl : l.addWindow window target opening = some l') :
    Changes [window.id] [] l l' := by
  unfold addWindow at hl
  split at hl
  · obtain ⟨⟨idx, target'⟩, -, hl⟩ := of_bind hl
    obtain ⟨lt, hlt, rfl⟩ := of_bind_some hl
    have hadded := h.onMonitor (fun m m' hm hsound hm' => by
      have hnew : window.id ∉ m.windowIds := fun hmem => hfresh (mem_windowIds_of_monitorAt hm hmem)
      exact (Monitor.effect_openWindow hsound.inv hnew hm').changes (hsound.focused.openWindow hnew hm')) hlt
    exact hadded.trans (keeps_activateMonitorIf hadded.parts _ (lt_length_of_onMonitor hlt))
  · obtain ⟨⟨lt, idx, target'⟩, hlt, hl⟩ := of_bind hl
    have hkeeps := keeps_resolveTargetNoOutputs h hlt
    have hnew : window.id ∉ lt.windowIds := fun hmem => by
      have hcount := hkeeps.windowIds window.id
      have hpos := count_pos_iff.mpr hmem
      rw [count_eq_zero.mpr hfresh] at hcount
      simp only [count_nil] at hcount
      omega
    have hadded := changes_onWorkspaceNoOutputs [window.id] (hkeeps.sound_of_removed h)
      (fun ws ws' hthere hfocus hws => by
        obtain ⟨wt, hwt, hws⟩ := of_bind hws
        have hfresh' : (ws.makeTile window).id ∉ ws.windowIds := fun hmem => hnew (hthere _ hmem)
        have hedit := Workspace.edit_addTile hfocus.ok hfresh' hwt
        have hopened := hfocus.addTile hfresh' hwt
        exact ⟨hedit.trans (Monitor.kept_setOpeningHeight hopened.ok hws), hopened.setOpeningHeight hws⟩) hl
    refine ⟨hadded.parts, fun w => ?_⟩
    have hfirst := hkeeps.windowIds w
    have hthen := hadded.windowIds w
    simp only [count_nil] at hfirst hthen ⊢
    omega

/-! Closing a window. -/

/-- An update of a workspace that always succeeds. -/
theorem keeps_update (op : UpdateOp) {g : Workspace → Workspace}
    (hop : ∀ ws : Workspace, ws.applyUpdate op = some (g ws)) :
    ∀ ws ws', ws.Focus → some (g ws) = some ws' → Workspace.Keeps ws ws' := by
  intro ws ws' h hws
  obtain rfl := some.inj hws
  exact ⟨Workspace.kept_applyUpdate h.ok (hop ws), h.applyUpdate (hop ws)⟩

theorem keeps_dndScrollGestureEnd : ∀ ws ws' : Workspace, ws.Focus →
    some ws.dndScrollGestureEnd = some ws' → Workspace.Keeps ws ws' :=
  keeps_update .dndScrollGestureEnd fun _ => rfl

theorem Monitor.keeps_dndScrollGestureEnd (h : m.Sound) (hm : m.dndScrollGestureEnd = some m') :
    Monitor.Changes [] [] m m' := h.shown (shown_dndScrollGestureEnd h.inv.toCore hm)

theorem keeps_endDndScroll (h : l.Intact) (hl : l.endDndScroll = some l') : Keeps l l' := by
  obtain ⟨lt, hlt, hl⟩ := of_bind hl
  have hkeeps := h.forMonitors (fun _ _ => Monitor.keeps_dndScrollGestureEnd) hlt
  exact hkeeps.trans ((hkeeps.sound_of_removed h).forWorkspaces keeps_dndScrollGestureEnd hl)

theorem keeps_activateWindow (h : ws.Focus) {b : Bool} (hws : ws.activateWindow w = some (b, ws')) :
    Workspace.Keeps ws ws' := ⟨Workspace.kept_activateWindow h.ok hws, h.activateWindow hws⟩

theorem Workspace.Keeps.trans {wt : Workspace} (h : Workspace.Keeps ws wt) (h' : Workspace.Keeps wt ws') :
    Workspace.Keeps ws ws' := ⟨h.toEdit.trans h'.toEdit, h'.focus⟩

theorem keeps_unlockView (h : ws.Focus) (hws : unlockView ws window = some ws') :
    Workspace.Keeps ws ws' := by
  unfold unlockView at hws
  have hend : Workspace.Keeps ws ws.dndScrollGestureEnd := keeps_dndScrollGestureEnd _ _ h rfl
  dsimp only at hws
  split at hws
  · obtain ⟨⟨b, wt⟩, hwt, rfl⟩ := of_map hws
    exact hend.trans (keeps_activateWindow hend.focus hwt)
  · exact some.inj hws ▸ hend

/-- The move that is cancelled had not taken the window out of the layout. -/
theorem keeps_cancelMove (h : l.Intact) (hmoving : l.movingIds = []) (hl : l.cancelMove window = some l') :
    Keeps l l' := by
  obtain ⟨lt, hlt, hl⟩ := of_bind hl
  have hnone : Keeps l { l with interactiveMove := none } := .of_eq h.parts rfl hmoving.symm
  have hkeeps := hnone.trans
    ((hnone.sound_of_removed h).forMonitors (fun _ _ => Monitor.keeps_dndScrollGestureEnd) hlt)
  exact hkeeps.trans
    ((hkeeps.sound_of_removed h).forWorkspaces (fun _ _ hws hws' => keeps_unlockView hws hws') hl)

theorem changes_removeFromWorkspaces (h : l.Intact) {r : Option RemovedTile}
    (hl : l.removeFromWorkspaces window = some (r, l')) :
    Changes [] (r.map (·.tile.id)).toList l l' := by
  unfold removeFromWorkspaces at hl
  cases hset : l.monitorSet with
  | normal ms primaryIdx activeMonitorIdx =>
    rw [hset] at hl
    dsimp only at hl
    split at hl
    · obtain ⟨rfl, rfl⟩ := pair_inj hl
      exact Keeps.refl h
    · obtain ⟨m, hm, hl⟩ := of_bind hl
      obtain ⟨⟨removed, m'⟩, hm', hl⟩ := of_bind hl
      obtain ⟨rfl, rfl⟩ := pair_inj hl
      have hsound := h.monitorAt hm
      exact changes_setMonitor h.parts hm
        ((Monitor.effect_removeWindow hsound.inv hm').changes (hsound.focused.removeWindow hm'))
  | noOutputs workspaces =>
    rw [hset] at hl
    dsimp only at hl
    split at hl
    · obtain ⟨rfl, rfl⟩ := pair_inj hl
      exact Keeps.refl h
    · rename_i idx hidx
      obtain ⟨ws, hws, hl⟩ := of_bind hl
      obtain ⟨⟨removed, ws'⟩, hws', hl⟩ := of_bind hl
      obtain ⟨rfl, rfl⟩ := pair_inj hl
      have hfocus := h.noOutputs hset
      have hmem := hfocus ws (mem_of_getElem? hws)
      have hcut := Monitor.cut_removeTile hmem.ok hws'
      refine .of_count (fun w hw => ?_) rfl fun w => ?_
      · split at hw
        · obtain rfl | hw := mem_of_mem_set hw
          · exact hmem.removeTile hws'
          · exact hfocus w hw
        · exact hfocus w (mem_of_mem_eraseIdx hw)
      · rw [hset]
        have hcount := hcut.windowIds.count_eq w
        simp only [MonitorSet.count, count_nil, count_append, map_some,
          toList_some] at hcount ⊢
        split
        · have hsum := sum_map_set (f := fun ws : Workspace => ws.windowIds.count w) hws ws'
          omega
        · rename_i hunused
          have hnil : ws'.windowIds = [] := by
            by_contra hne
            have hused := Workspace.hasWindows_iff.mpr hne
            simp [Workspace.hasWindowsOrName, hused] at hunused
          have hsum := sum_map_eraseIdx (f := fun ws : Workspace => ws.windowIds.count w) hws
          rw [hnil, count_nil] at hcount
          omega

theorem movingIds_of_moving {d : InteractiveMoveData} (h : l.interactiveMove = some (.moving d)) :
    l.movingIds = [d.tile.id] := by
  unfold movingIds movingTile moving
  rw [h]
  rfl

theorem movingIds_of_starting {delta : Point} (h : l.interactiveMove = some (.starting window delta)) :
    l.movingIds = [] := by
  unfold movingIds movingTile moving
  rw [h]
  rfl

/-- The moved window is taken out of the layout. -/
theorem changes_dropMoving (h : l.Intact) {d : InteractiveMoveData}
    (hmove : l.interactiveMove = some (.moving d)) :
    Changes [] [d.tile.id] l { l with interactiveMove := none } := by
  refine ⟨h.parts, fun w => ?_⟩
  rw [count_windowIds, count_windowIds l, movingIds_of_none rfl, movingIds_of_moving hmove]
  simp only [count_nil]
  omega

theorem changes_removeWindow (h : l.Intact) {r : Option RemovedTile}
    (hl : l.removeWindow window = some (r, l')) : Changes [] (r.map (·.tile.id)).toList l l' := by
  unfold removeWindow at hl
  cases hmove : l.interactiveMove with
  | none =>
    rw [hmove] at hl
    exact changes_removeFromWorkspaces h hl
  | some move =>
    rw [hmove] at hl
    cases move with
    | starting windowId delta =>
      dsimp only at hl
      split at hl
      · obtain ⟨lt, hlt, hl⟩ := of_bind hl
        have hkeeps := keeps_cancelMove h (movingIds_of_starting hmove) hlt
        have hremoved := changes_removeFromWorkspaces (hkeeps.sound_of_removed h) hl
        refine ⟨hremoved.parts, fun w => ?_⟩
        have hfirst := hkeeps.windowIds w
        have hthen := hremoved.windowIds w
        simp only [count_nil] at hfirst hthen ⊢
        omega
      · exact changes_removeFromWorkspaces h hl
    | moving d =>
      dsimp only at hl
      split at hl
      · obtain ⟨lt, hlt, hl⟩ := of_bind hl
        obtain ⟨rfl, rfl⟩ := pair_inj hl
        have hcut := changes_dropMoving h hmove
        exact hcut.trans (keeps_endDndScroll (hcut.sound_of_removed h) hlt)
      · exact changes_removeFromWorkspaces h hl

/-! The other operations of one window. -/

theorem keeps_moveToWorkspace (h : l.Intact) {window : Option ℕ} {activate : ActivateWindow}
    (hl : l.moveToWorkspace window idx activate = some l') : Keeps l l' := by
  have hmove (m m' : Monitor) (window : Option ℕ) (hm : m.Sound)
      (hm' : m.moveToWorkspace window idx activate = some m') : Monitor.Changes [] [] m m' :=
    (Monitor.effect_moveToWorkspace hm.inv hm').changes (hm.focused.moveToWorkspace hm.inv hm')
  unfold moveToWorkspace at hl
  split at hl
  · exact some.inj hl ▸ .refl h
  · split at hl
    · obtain ⟨monIdx, -, hl⟩ := of_bind hl
      exact h.onMonitor (fun m m' _ hm hm' => hmove m m' _ hm hm') hl
    · exact h.onActiveMonitor (fun m m' hm hm' => hmove m m' _ hm hm') hl

theorem Monitor.keeps_activateWorkspace (h : m.Sound) (hidx : idx < m.workspaces.length)
    (hm : m.activateWorkspace idx = some m') : Monitor.Changes [] [] m m' :=
  h.shown (shown_activateWorkspace h.inv.toCore hidx hm)

theorem Monitor.keeps_showWorkspace (h : m.Sound) (hm : showWorkspace m idx = some m') :
    Monitor.Changes [] [] m m' := by
  unfold showWorkspace at hm
  split at hm
  · split at hm
    · exact some.inj hm ▸ .refl h
    · exact h.shown (shown_switchWorkspace h.inv.toCore hm)
  · exact h.shown (shown_switchWorkspace h.inv.toCore hm)

theorem keeps_showWindow (h : l.Intact) {g : Workspace → Option Workspace}
    (hg : ∀ ws ws', ws.Focus → g ws = some ws' → Workspace.Keeps ws ws')
    (hl : l.showWindow window g = some l') : Keeps l l' := by
  unfold showWindow at hl
  split at hl
  · exact some.inj hl ▸ .refl h
  · split at hl
    · exact some.inj hl ▸ .refl h
    · rename_i monIdx hidx
      obtain ⟨lt, hlt, rfl⟩ := of_bind_some hl
      have hkeeps := h.onMonitor (fun m m' _ hm hm' => by
        obtain ⟨idx, -, hm'⟩ := of_bind hm'
        obtain ⟨mt, hmt, hm'⟩ := of_bind hm'
        have hshown := Monitor.keeps_onWorkspace hm hg hmt
        exact hshown.trans (Monitor.keeps_showWorkspace hshown.sound hm')) hlt
      exact hkeeps.trans (keeps_activateMonitor hkeeps.parts (lt_length_of_onMonitor hlt))

theorem keeps_applyUpdate (op : UpdateOp) (h : ws.Focus) (hws : ws.applyUpdate op = some ws') :
    Workspace.Keeps ws ws' := ⟨Workspace.kept_applyUpdate h.ok hws, h.applyUpdate hws⟩

theorem keeps_descendantsAdded (h : l.Intact) (hl : l.descendantsAdded window = some l') : Keeps l l' := by
  unfold descendantsAdded at hl
  split at hl
  · exact h.onFirstWorkspace (fun _ _ hws hws' => keeps_applyUpdate (.descendantsAdded window) hws hws') hl
  · exact some.inj hl ▸ .refl h

/-- The data of the move changes, and the window stays the same. -/
theorem keeps_onMoving (h : l.monitorSet.Sound) {f : InteractiveMoveData → InteractiveMoveData}
    (hf : ∀ d, (f d).tile.id = d.tile.id) : Keeps l (l.onMoving f) := by
  refine .of_eq h rfl ?_
  unfold movingIds movingTile moving onMoving
  cases l.interactiveMove with
  | none => rfl
  | some move =>
    cases move with
    | starting window delta => rfl
    | moving d => exact congrArg (fun id => [id]) (hf d)

theorem keeps_updateWindow (h : l.Intact) {commit : Commit} {ongoing : Bool}
    (hl : l.updateWindow window commit ongoing = some l') : Keeps l l' := by
  unfold updateWindow at hl
  split at hl
  · exact some.inj hl ▸ keeps_onMoving h.parts fun _ => rfl
  · exact h.onWorkspaceOf
      (fun _ _ hws hws' => keeps_applyUpdate (.updateWindow window commit ongoing) hws hws') hl

/-- A window changes, but neither its id nor how it is sized and placed. -/
theorem keeps_modifyWindow (h : l.Intact) {f : Window → Window} (hid : ∀ win, (f win).id = win.id)
    (hf : ∀ t : Tile, t.Alike { t with window := f t.window })
    (hl : l.modifyWindow window f = some l') : Keeps l l' := by
  have hmoving : Keeps l (l.onMoving fun d =>
      if d.tile.id = window then { d with tile := { d.tile with window := f d.tile.window } }
      else d) := keeps_onMoving h.parts fun d => by
    dsimp only
    split
    · exact hid d.tile.window
    · rfl
  refine hmoving.trans ((hmoving.sound_of_removed h).forWorkspaces (fun ws ws' hws hws' => ?_) hl)
  obtain rfl := some.inj hws'
  have hkept := Workspace.kept_modifyWindow hws.ok window hf
  refine ⟨hkept, hws.steady hkept (Workspace.steady_modifyWindow ws window hid)⟩

theorem keeps_toggleMovingFloating (h : l.Intact) {d : InteractiveMoveData} (hd : l.moving = some d)
    (hl : l.toggleMovingFloating d = some l') : Keeps l l' := by
  have hids : l.movingIds = [d.tile.id] := by
    unfold movingIds movingTile
    rw [hd]
    rfl
  have hmoving (d' : InteractiveMoveData) (hid : d'.tile.id = d.tile.id) :
      Keeps l { l with interactiveMove := some (.moving d') } :=
    .of_eq h.parts rfl ((movingIds_of_moving rfl).trans (by rw [hid, hids]))
  unfold toggleMovingFloating at hl
  dsimp only at hl
  split at hl
  · have hkeeps := hmoving (InteractiveMoveData.restoreFloatingSize { d with isFloating := !d.isFloating })
      rfl
    exact hkeeps.trans ((hkeeps.sound_of_removed h).forWorkspaces keeps_dndScrollGestureEnd hl)
  · exact some.inj hl ▸ hmoving _ rfl

theorem moving_of_filter {p : InteractiveMoveData → Bool} {d : InteractiveMoveData}
    (h : l.moving.filter p = some d) : l.moving = some d := (filter_eq_some_iff.mp h).1

theorem keeps_toggleWindowFloating (h : l.Intact) {window : Option ℕ} {renderPos : Point}
    (hl : l.toggleWindowFloating window renderPos = some l') : Keeps l l' := by
  unfold toggleWindowFloating at hl
  split at hl
  · rename_i hd
    exact keeps_toggleMovingFloating h (moving_of_filter hd) hl
  · exact h.onWindow (fun _ _ hws hws' =>
      ⟨Workspace.kept_toggleWindowFloating hws.ok hws', (hws.toggleWindowFloating hws').1⟩) hl

theorem keeps_setWindowFloating (h : l.Intact) {window : Option ℕ} {floating : Bool} {renderPos : Point}
    (hl : l.setWindowFloating window floating renderPos = some l') : Keeps l l' := by
  unfold setWindowFloating at hl
  split at hl
  · rename_i hd
    split at hl
    · exact some.inj hl ▸ .refl h
    · exact keeps_toggleMovingFloating h (moving_of_filter hd) hl
  · exact h.onWindow (fun _ _ hws hws' =>
      ⟨Workspace.kept_setWindowFloating hws.ok hws', (hws.setWindowFloating hws').1⟩) hl

theorem keeps_setFullscreen_workspace {isFullscreen : Bool} {renderPos : Point} (h : ws.Focus)
    (hws : ws.setFullscreen window isFullscreen renderPos = some ws') : Workspace.Keeps ws ws' :=
  ⟨Workspace.kept_setFullscreen h.ok hws, (h.setFullscreen hws).1⟩

theorem keeps_setMaximized_workspace {maximize : Bool} {renderPos : Point} (h : ws.Focus)
    (hws : ws.setMaximized window maximize renderPos = some ws') : Workspace.Keeps ws ws' :=
  ⟨Workspace.kept_setMaximized h.ok hws, (h.setMaximized hws).1⟩

theorem keeps_setFullscreen (h : l.Intact) {isFullscreen : Bool} {renderPos : Point}
    (hl : l.setFullscreen window isFullscreen renderPos = some l') : Keeps l l' := by
  unfold setFullscreen at hl
  split at hl
  · exact keeps_modifyWindow (f := (·.requestWindowedFullscreen false)) h (fun _ => rfl)
      (fun _ => ⟨rfl, rfl, rfl, rfl⟩) hl
  · exact h.onUnmoved (fun _ _ hws hws' => keeps_setFullscreen_workspace hws hws') hl

/-- A window toggles between the windowed fullscreen and none. -/
theorem keeps_toggleWindowed (h : l.Intact) (hl : l.modifyWindow window (fun w : Window =>
    w.requestWindowedFullscreen !w.isPendingWindowedFullscreen) = some l') : Keeps l l' := by
  have hid (w : Window) : (w.requestWindowedFullscreen !w.isPendingWindowedFullscreen).id = w.id := rfl
  have halike (t : Tile) : t.Alike { t with
      window := t.window.requestWindowedFullscreen !t.window.isPendingWindowedFullscreen } :=
    ⟨rfl, rfl, rfl, rfl⟩
  exact keeps_modifyWindow h hid halike hl

theorem keeps_toggleWindowedFullscreen (h : l.Intact) {renderPos : Point}
    (hl : l.toggleWindowedFullscreen window renderPos = some l') : Keeps l l' := by
  obtain ⟨win, -, hl⟩ := of_bind hl
  dsimp only at hl
  split at hl
  · obtain ⟨lt, hlt, hl⟩ := of_bind hl
    have hkeeps := h.onWorkspaceOf (fun _ _ hws hws' => keeps_setFullscreen_workspace hws hws') hlt
    exact hkeeps.trans (keeps_toggleWindowed (hkeeps.sound_of_removed h) hl)
  · exact keeps_toggleWindowed h hl

end Macniri.Layout
