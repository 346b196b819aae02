import Macniri.Layout.HomesSteps

/-! The operations of windows, names, config and time leave the workspaces at home. -/
namespace Macniri.Layout

open Option

open Workspace (Stays AtHome)
open Monitor (Houses)

variable {l l' lt : Layout} {m m' : Monitor} {ws ws' : Workspace} {idx window : ℕ} {output : Output}

/-- An operation of workspaces that never fails. -/
theorem stays_some {f : Workspace → Workspace} (hf : ∀ ws, Stays ws (f ws)) :
    ∀ ws ws', some (f ws) = some ws' → Stays ws ws' :=
  fun ws _ h => some.inj h ▸ hf ws

theorem houses_some {f : Monitor → Monitor} (hf : ∀ m, Houses m (f m)) :
    ∀ m m', some (f m) = some m' → Houses m m' :=
  fun m _ h => some.inj h ▸ hf m

/-! The active monitor. -/

theorem houses_applyActive {op : ActiveMonitorOp} (h : m.applyActive op = some m') : Houses m m' := by
  cases op with
  | moveDownOrToWorkspaceDown => exact Monitor.houses_moveDownOrToWorkspaceDown h
  | moveUpOrToWorkspaceUp => exact Monitor.houses_moveUpOrToWorkspaceUp h
  | focusWindowOrWorkspaceDown => exact Monitor.houses_focusWindowOrWorkspaceDown h
  | focusWindowOrWorkspaceUp => exact Monitor.houses_focusWindowOrWorkspaceUp h
  | moveToWorkspaceUp | moveToWorkspaceDown => exact Monitor.houses_moveActiveTileTo h
  | moveColumnToWorkspaceUp | moveColumnToWorkspaceDown =>
    exact Monitor.houses_moveColumnTo (fun _ h => Monitor.houses_moveActiveTileTo h) h
  | moveColumnToWorkspace =>
    exact Monitor.houses_moveColumnTo (fun _ h => Monitor.houses_moveToWorkspace h) h
  | switchWorkspaceUp | switchWorkspaceDown | switchWorkspace => exact Monitor.houses_activateWorkspace h
  | switchWorkspaceAutoBackAndForth => exact Monitor.houses_switchWorkspaceAutoBackAndForth h
  | switchWorkspacePrevious => exact Monitor.houses_switchWorkspacePrevious h
  | moveWorkspaceDown => exact Monitor.houses_moveWorkspaceDown h
  | moveWorkspaceUp => exact Monitor.houses_moveWorkspaceUp h

/-! Windows. -/

theorem Housed.ensureWorkspace (h : l.Housed) : l.ensureWorkspace.Housed := by
  unfold Layout.ensureWorkspace
  split
  · refine housed_of_noOutputs rfl fun ws hws => ?_
    obtain rfl := List.mem_singleton.mp hws
    rfl
  · exact h

theorem Housed.onWorkspaceNoOutputs (h : l.Housed) {f : Workspace → Option Workspace}
    (hf : ∀ ws ws', f ws = some ws' → Stays ws ws') (hl : l.onWorkspaceNoOutputs idx f = some l') :
    l'.Housed := by
  unfold Layout.onWorkspaceNoOutputs at hl
  split at hl
  · cases hl
  · rename_i hset
    obtain ⟨ws, hws, hl⟩ := of_bind hl
    obtain ⟨ws', hws', rfl⟩ := of_bind_some hl
    refine housed_of_noOutputs rfl fun w hw => ?_
    obtain rfl | hw := mem_of_mem_set hw
    · rw [(hf ws _ hws').output]
      exact h.noOutputs hset ws (List.mem_of_getElem? hws)
    · exact h.noOutputs hset w hw

theorem housed_resolveTargetNoOutputs (h : l.Housed) {target : AddWindowTarget}
    {wsTarget : WorkspaceAddWindowTarget}
    (hl : l.resolveTargetNoOutputs target = some (l', idx, wsTarget)) : l'.Housed := by
  cases target with
  | auto =>
    obtain ⟨rfl, -⟩ := pair_inj hl
    exact h.ensureWorkspace
  | output => cases hl
  | workspace =>
    obtain ⟨i, -, hi⟩ := of_map hl
    obtain ⟨rfl, -⟩ := Prod.mk.inj hi
    exact h
  | nextTo =>
    unfold resolveTargetNoOutputs at hl
    dsimp only at hl
    split at hl
    · obtain ⟨rfl, -⟩ := pair_inj hl
      exact h.ensureWorkspace
    · obtain ⟨i, -, hi⟩ := of_map hl
      obtain ⟨rfl, -⟩ := Prod.mk.inj hi
      exact h

theorem housed_addWindow (h : l.Housed) {window : Window} {target : AddWindowTarget}
    {opening : WindowOpening} (hl : l.addWindow window target opening = some l') : l'.Housed := by
  unfold addWindow at hl
  split at hl
  · obtain ⟨⟨idx, target'⟩, -, hl⟩ := of_bind hl
    obtain ⟨lt, hlt, hl⟩ := of_bind hl
    exact some.inj hl ▸
      (h.onMonitor (fun _ _ => Monitor.houses_openWindow) hlt).activateMonitorIf _ idx
  · obtain ⟨⟨lt, idx, target'⟩, hlt, hl⟩ := of_bind hl
    refine (housed_resolveTargetNoOutputs h hlt).onWorkspaceNoOutputs (fun ws ws' hws => ?_) hl
    obtain ⟨wt, hwt, hws⟩ := of_bind hws
    exact (Workspace.stays_addTile hwt).trans (Monitor.stays_setOpeningHeight hws)

theorem housed_endDndScroll (h : l.Housed) (hl : l.endDndScroll = some l') : l'.Housed := by
  obtain ⟨lt, hlt, hl⟩ := of_bind hl
  exact (h.forMonitors (fun _ _ => Monitor.houses_dndScrollGestureEnd) hlt).forWorkspaces
    (stays_some fun ws => Workspace.stays_spaces ws _ _ _) hl

theorem stays_unlockView (hws : unlockView ws window = some ws') : Stays ws ws' := by
  unfold unlockView at hws
  have hend : Stays ws ws.dndScrollGestureEnd := Workspace.stays_spaces ..
  dsimp only at hws
  split at hws
  · exact hend.trans (Workspace.stays_snd (fun _ _ => Workspace.stays_activateWindow) hws)
  · exact some.inj hws ▸ hend

theorem housed_cancelMove (h : l.Housed) (hl : l.cancelMove window = some l') : l'.Housed := by
  obtain ⟨lt, hlt, hl⟩ := of_bind hl
  have hnone : Housed { l with interactiveMove := none } := h.congr rfl
  exact (hnone.forMonitors (fun _ _ => Monitor.houses_dndScrollGestureEnd) hlt).forWorkspaces
    (fun _ _ => stays_unlockView) hl

theorem housed_removeFromWorkspaces (h : l.Housed) {r : Option RemovedTile}
    (hl : l.removeFromWorkspaces window = some (r, l')) : l'.Housed := by
  unfold removeFromWorkspaces at hl
  split at hl
  · split at hl
    · obtain ⟨-, rfl⟩ := pair_inj hl
      exact h
    · rename_i idx hidx
      obtain ⟨m, hm, hl⟩ := of_bind hl
      obtain ⟨⟨removed, m'⟩, hm', hl⟩ := of_bind hl
      obtain ⟨-, rfl⟩ := pair_inj hl
      exact h.setMonitor ((h.monitorAt hm).houses (Monitor.houses_removeWindow hm')) idx
  · rename_i workspaces hset
    split at hl
    · obtain ⟨-, rfl⟩ := pair_inj hl
      exact h
    · obtain ⟨ws, hws, hl⟩ := of_bind hl
      obtain ⟨⟨removed, ws'⟩, hws', hl⟩ := of_bind hl
      obtain ⟨-, rfl⟩ := pair_inj hl
      refine housed_of_noOutputs rfl fun w hw => ?_
      split at hw
      · obtain rfl | hw := mem_of_mem_set hw
        · rw [(Workspace.stays_removeTile hws').output]
          exact h.noOutputs hset ws (List.mem_of_getElem? hws)
        · exact h.noOutputs hset w hw
      · exact h.noOutputs hset w (List.mem_of_mem_eraseIdx hw)

theorem housed_removeWindow (h : l.Housed) {r : Option RemovedTile}
    (hl : l.removeWindow window = some (r, l')) : l'.Housed := by
  unfold removeWindow at hl
  split at hl
  · split at hl
    · obtain ⟨lt, hlt, hl⟩ := of_bind hl
      exact housed_removeFromWorkspaces (housed_cancelMove h hlt) hl
    · exact housed_removeFromWorkspaces h hl
  · split at hl
    · obtain ⟨lt, hlt, hl⟩ := of_bind hl
      obtain ⟨-, rfl⟩ := pair_inj hl
      have hnone : Housed { l with interactiveMove := none } := h.congr rfl
      exact housed_endDndScroll hnone hlt
    · exact housed_removeFromWorkspaces h hl
  · exact housed_removeFromWorkspaces h hl

theorem housed_moveToWorkspace (h : l.Housed) {window : Option ℕ} {activate : ActivateWindow}
    (hl : l.moveToWorkspace window idx activate = some l') : l'.Housed := by
  unfold moveToWorkspace at hl
  split at hl
  · exact some.inj hl ▸ h
  · split at hl
    · obtain ⟨monIdx, -, hl⟩ := of_bind hl
      exact h.onMonitor (fun _ _ => Monitor.houses_moveToWorkspace) hl
    · exact h.onActiveMonitor (fun _ _ => Monitor.houses_moveToWorkspace) hl

theorem houses_showWorkspace (hm : showWorkspace m idx = some m') : Houses m m' := by
  unfold showWorkspace at hm
  split at hm
  · split at hm
    · exact some.inj hm ▸ .refl m
    · exact Monitor.houses_activateWorkspace hm
  · exact Monitor.houses_activateWorkspace hm

theorem housed_showWindow (h : l.Housed) {f : Workspace → Option Workspace}
    (hf : ∀ ws ws', f ws = some ws' → Stays ws ws') (hl : l.showWindow window f = some l') :
    l'.Housed := by
  unfold showWindow at hl
  split at hl
  · exact some.inj hl ▸ h
  · split at hl
    · exact some.inj hl ▸ h
    · rename_i monIdx hidx
      obtain ⟨lt, hlt, hl⟩ := of_bind hl
      refine some.inj hl ▸ (h.onMonitor (fun m m' hm => ?_) hlt).activateMonitor monIdx
      obtain ⟨idx, -, hm⟩ := of_bind hm
      obtain ⟨mt, hmt, hm⟩ := of_bind hm
      exact (Monitor.houses_onWorkspace hf hmt).trans (houses_showWorkspace hm)

theorem housed_descendantsAdded (h : l.Housed) (hl : l.descendantsAdded window = some l') :
    l'.Housed := by
  unfold descendantsAdded at hl
  split at hl
  · exact h.onFirstWorkspace (fun _ _ => Workspace.stays_liftFloating) hl
  · exact some.inj hl ▸ h

theorem housed_updateWindow (h : l.Housed) {commit : Commit} {ongoing : Bool}
    (hl : l.updateWindow window commit ongoing = some l') : l'.Housed := by
  unfold updateWindow at hl
  split at hl
  · exact some.inj hl ▸ h.congr rfl
  · exact h.onWorkspaceOf (fun _ _ => Workspace.stays_onSpaceOf) hl

theorem housed_modifyWindow (h : l.Housed) {f : Window → Window}
    (hl : l.modifyWindow window f = some l') : l'.Housed := by
  have hmoving : (l.onMoving fun d =>
      if d.tile.id = window then { d with tile := { d.tile with window := f d.tile.window } }
      else d).Housed := h.congr rfl
  exact hmoving.forWorkspaces (stays_some fun ws => Workspace.stays_spaces ws _ _ _) hl

theorem housed_toggleMovingFloating (h : l.Housed) {d : InteractiveMoveData}
    (hl : l.toggleMovingFloating d = some l') : l'.Housed := by
  unfold toggleMovingFloating at hl
  dsimp only at hl
  split at hl
  · have hmoving (move : Option InteractiveMoveState) : Housed { l with interactiveMove := move } :=
      h.congr rfl
    exact (hmoving _).forWorkspaces (stays_some fun ws => Workspace.stays_spaces ws _ _ _) hl
  · exact some.inj hl ▸ h.congr rfl

theorem housed_toggleWindowFloating (h : l.Housed) {window : Option ℕ} {renderPos : Point}
    (hl : l.toggleWindowFloating window renderPos = some l') : l'.Housed := by
  unfold toggleWindowFloating at hl
  split at hl
  · exact housed_toggleMovingFloating h hl
  · exact h.onWindow (fun _ _ => Workspace.stays_toggleWindowFloating) hl

theorem housed_setWindowFloating (h : l.Housed) {window : Option ℕ} {floating : Bool}
    {renderPos : Point} (hl : l.setWindowFloating window floating renderPos = some l') : l'.Housed := by
  unfold setWindowFloating at hl
  split at hl
  · split at hl
    · exact some.inj hl ▸ h
    · exact housed_toggleMovingFloating h hl
  · exact h.onWindow (fun _ _ => Workspace.stays_setWindowFloating) hl

theorem housed_setFullscreen (h : l.Housed) {isFullscreen : Bool} {renderPos : Point}
    (hl : l.setFullscreen window isFullscreen renderPos = some l') : l'.Housed := by
  unfold setFullscreen at hl
  split at hl
  · exact housed_modifyWindow h hl
  · exact h.onUnmoved (fun _ _ => Workspace.stays_setFullscreen) hl

theorem housed_toggleWindowedFullscreen (h : l.Housed) {renderPos : Point}
    (hl : l.toggleWindowedFullscreen window renderPos = some l') : l'.Housed := by
  obtain ⟨w, -, hl⟩ := of_bind hl
  dsimp only at hl
  split at hl
  · obtain ⟨lt, hlt, hl⟩ := of_bind hl
    exact housed_modifyWindow (h.onWorkspaceOf (fun _ _ => Workspace.stays_setFullscreen) hlt) hl
  · exact housed_modifyWindow h hl

end Macniri.Layout
