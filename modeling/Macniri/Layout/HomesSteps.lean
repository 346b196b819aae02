import Macniri.Layout.Homes

/-! Every operation of the layout leaves the workspaces at home, or brings them home. -/
namespace Macniri.Layout

open Option List

open Workspace (Stays AtHome)
open Monitor (Houses)

variable {l l' lt : Layout} {m m' : Monitor} {ws ws' : Workspace} {idx : ℕ} {output : Output}

/-! Outputs. -/

theorem housed_newMonitor {workspaces : List Workspace} {layoutConfig : Option LayoutPart}
    (hother : ∀ ws ∈ workspaces, ws.output.map (·.handle) ≠ some output.handle)
    (hconnector : ' ' ∉ output.name.connector.toList)
    (h : l.newMonitor output workspaces layoutConfig = some m) : m.Housed := by
  obtain ⟨mt, hmt, rfl⟩ := of_bind_some h
  obtain ⟨hout, hhome⟩ := Monitor.atHome_new hother hmt
  exact ⟨hout ▸ hhome, hout ▸ hconnector⟩

/-- The output that is added is a new one. -/
theorem housed_addOutput (h : l.Housed) {layoutConfig : Option LayoutPart}
    (hnew : ∀ m ∈ l.monitors, m.output.handle ≠ output.handle)
    (hconnector : ' ' ∉ output.name.connector.toList) (hl : l.addOutput output layoutConfig = some l') :
    l'.Housed := by
  unfold addOutput at hl
  split at hl
  · rename_i ms primaryIdx activeMonitorIdx hset
    have hms : l.monitors = ms := by simp [monitors, hset]
    obtain ⟨primary, hprimary, hl⟩ := of_bind hl
    obtain ⟨⟨rest, taken⟩, hrelease, hl⟩ := of_bind hl
    obtain ⟨monitor, hmonitor, rfl⟩ := of_bind_some hl
    have hmem := mem_of_getElem? hprimary
    have hhoused := h.normal hset primary hmem
    obtain ⟨hrest, htaken⟩ := Monitor.houses_releaseFor hrelease
    have hother : ∀ ws ∈ taken, ws.output.map (·.handle) ≠ some output.handle := by
      intro ws hws heq
      rw [(hhoused.atHome ws (htaken hws)).handle] at heq
      exact hnew primary (hms ▸ hmem) (some.inj heq)
    refine housed_of_normal rfl fun m hm => ?_
    obtain hm | hm := mem_append.mp hm
    · obtain rfl | hm := mem_of_mem_set hm
      · exact hhoused.houses hrest
      · exact h.normal hset m hm
    · obtain rfl := mem_singleton.mp hm
      exact housed_newMonitor hother hconnector hmonitor
  · rename_i workspaces hset
    obtain ⟨monitor, hmonitor, rfl⟩ := of_bind_some hl
    refine housed_of_normal rfl fun m hm => ?_
    obtain rfl := mem_singleton.mp hm
    refine housed_newMonitor (fun ws hws => ?_) hconnector hmonitor
    simp [h.noOutputs hset ws hws]

theorem intoWorkspaces_output (m : Monitor) : ∀ ws ∈ m.intoWorkspaces, ws.output = none := by
  intro ws hws
  obtain ⟨ws', -, rfl⟩ := List.mem_map.mp hws
  exact Workspace.setOutput_none_output ws'

theorem housed_removeOutput (h : l.Housed) (hl : l.removeOutput output = some l') : l'.Housed := by
  unfold removeOutput at hl
  split at hl
  · rename_i ms primaryIdx activeMonitorIdx hset
    obtain ⟨idx, -, hl⟩ := of_bind hl
    obtain ⟨monitor, -, hl⟩ := of_bind hl
    obtain ⟨active, -, hl⟩ := of_bind hl
    dsimp only at hl
    split at hl
    · obtain rfl := some.inj hl
      refine housed_of_noOutputs rfl fun ws hws => ?_
      obtain ⟨ws', hws', rfl⟩ := List.mem_map.mp hws
      exact intoWorkspaces_output monitor ws' hws'
    · refine Housed.onMonitor (housed_of_normal rfl fun m hm => ?_) (fun m m' hm => ?_) hl
      · exact h.normal hset m (mem_of_mem_eraseIdx hm)
      · refine Monitor.houses_appendWorkspaces (fun ws hws => ?_) hm
        simp [intoWorkspaces_output monitor ws hws]
  · cases hl

theorem housed_updateOutputSize (h : l.Housed)
    (hname : ∀ m ∈ l.monitors, m.output.same output = true → output.name = m.output.name)
    (hl : l.updateOutputSize output = some l') : l'.Housed := by
  unfold updateOutputSize at hl
  split at hl
  · rename_i idx hidx
    obtain ⟨m, hm, rfl⟩ := of_bind_some hl
    have hhoused := (h.congr rfl).monitorAt hm
    have hname : output.name = m.output.name := by
      obtain ⟨w, hw, rfl⟩ := of_map hm
      have hw : l.monitors[idx]? = some w := hw
      obtain ⟨hlt, hsame, -⟩ := findIdx?_eq_some_iff_getElem.mp hidx
      rw [getElem?_eq_getElem hlt, some.injEq] at hw
      exact hname w (hw ▸ getElem_mem hlt) (hw ▸ hsame)
    have hconnector : ' ' ∉ output.name.connector.toList := by
      rw [hname]
      exact hhoused.connector
    have hm : (m.updateOutputSize output).Housed :=
      ⟨Monitor.atHome_updateOutputSize hname hhoused.atHome, hconnector⟩
    have hmoved : Housed { l with interactiveMove := l.interactiveMove.map (·.updateOutput output) } :=
      h.congr rfl
    exact hmoved.setMonitor hm idx
  · exact some.inj hl ▸ h

theorem housed_updateLayoutConfig (h : l.Housed) {layoutConfig : Option LayoutPart}
    (hl : l.updateLayoutConfig output layoutConfig = some l') : l'.Housed := by
  unfold updateLayoutConfig at hl
  split at hl
  · exact some.inj hl ▸ h
  · exact h.onMonitor (fun m _ hm => some.inj hm ▸ Monitor.houses_updateLayoutConfig m _) hl

/-! Between outputs. -/

theorem housed_takeTile (h : l.Housed) {monIdx wsIdx : ℕ} {window : Option ℕ} {r : RemovedTile}
    (hl : l.takeTile monIdx wsIdx window = some (some (r, l'))) : l'.Housed := by
  obtain ⟨m, hm, hl⟩ := of_bind hl
  obtain ⟨ws, hws, hl⟩ := of_bind hl
  obtain ⟨removed, hremoved, hl⟩ := of_bind hl
  cases removed with
  | none => cases some.inj hl
  | some p =>
    obtain ⟨-, rfl⟩ := pair_inj (some.inj hl)
    exact h.setMonitor ((h.monitorAt hm).houses
      (Monitor.houses_setWorkspace hws (Monitor.stays_removeWindowOrActive hremoved))) monIdx

theorem housed_moveToOutput (h : l.Housed) {window targetWsIdx : Option ℕ} {activate : ActivateWindow}
    (hl : l.moveToOutput window output targetWsIdx activate = some l') : l'.Housed := by
  unfold moveToOutput at hl
  split at hl
  · exact some.inj hl ▸ h
  · obtain ⟨newIdx, -, hl⟩ := of_bind hl
    obtain ⟨⟨monIdx, wsIdx⟩, -, hl⟩ := of_bind hl
    obtain ⟨target, -, hl⟩ := of_bind hl
    dsimp only at hl
    split at hl
    · exact some.inj hl ▸ h
    · split at hl
      · exact some.inj hl ▸ h
      · obtain ⟨taken, htaken, hl⟩ := of_bind hl
        cases taken with
        | none => exact some.inj hl ▸ h
        | some p =>
          obtain ⟨lt, hlt, hl⟩ := of_bind hl
          have hadded := (housed_takeTile h htaken).onMonitor (fun _ _ => Monitor.houses_addTile) hlt
          exact (hadded.activateMonitorIf _ newIdx).onMonitor
            (fun _ _ => Monitor.houses_cleanUpUnlessSwitching) hl

theorem housed_addColumnByIdx (h : l.Housed) {workspaceIdx : ℕ} {column : Column} {activate : Bool}
    (hl : l.addColumnByIdx idx workspaceIdx column activate = some l') : l'.Housed := by
  obtain ⟨lt, hlt, hl⟩ := of_bind hl
  exact some.inj hl ▸
    (h.onMonitor (fun _ _ => Monitor.houses_addColumn) hlt).activateMonitorIf activate idx

theorem housed_moveColumnToOutput (h : l.Housed) {targetWsIdx : Option ℕ} {activate : Bool}
    (hl : l.moveColumnToOutput output targetWsIdx activate = some l') : l'.Housed := by
  unfold moveColumnToOutput at hl
  split at hl
  · exact some.inj hl ▸ h
  · rename_i monIdx hidx
    obtain ⟨newIdx, -, hl⟩ := of_bind hl
    obtain ⟨m, hm, hl⟩ := of_bind hl
    obtain ⟨ws, hws, hl⟩ := of_bind hl
    split at hl
    · exact housed_moveToOutput h hl
    · obtain ⟨removed, hremoved, hl⟩ := of_bind hl
      cases removed with
      | none => exact some.inj hl ▸ h
      | some p =>
        obtain ⟨target, -, hl⟩ := of_bind hl
        refine housed_addColumnByIdx (h.setMonitor ((h.monitorAt hm).houses ?_) monIdx) hl
        exact Monitor.houses_setWorkspace hws (Workspace.stays_removeActiveColumn hremoved)

theorem housed_moveWorkspaceToOutputById (h : l.Housed) {oldIdx : ℕ} {oldOutput : Option Output}
    (hl : l.moveWorkspaceToOutputById oldIdx oldOutput output = some l') : l'.Housed := by
  unfold moveWorkspaceToOutputById at hl
  split at hl
  · exact some.inj hl ▸ h
  · obtain ⟨currentIdx, -, hl⟩ := of_bind hl
    obtain ⟨targetIdx, -, hl⟩ := of_bind hl
    obtain ⟨current, hcurrent, hl⟩ := of_bind hl
    have hhoused := h.monitorAt hcurrent
    split at hl
    · exact some.inj hl ▸ h
    · split at hl
      · obtain rfl := some.inj hl
        refine h.setMonitor (m := { current with workspaces := current.workspaces.modify oldIdx _ })
          ⟨fun w hw => ?_, hhoused.connector⟩ currentIdx
        obtain ⟨j, hj⟩ := getElem?_of_mem hw
        change (current.workspaces.modify oldIdx _)[j]? = some w at hj
        rw [getElem?_modify] at hj
        obtain ⟨ws, hget, rfl⟩ := of_map hj
        have hhome := hhoused.atHome ws (mem_of_getElem? hget)
        split
        · exact ⟨hhome.handle, fun _ => rfl⟩
        · exact hhome
      · obtain ⟨⟨ws, mt⟩, hremoved, hl⟩ := of_bind hl
        obtain ⟨lt, hlt, rfl⟩ := of_bind_some hl
        have hnone := Monitor.removeWorkspaceByIdx_output hremoved
        have hset := h.setMonitor (hhoused.houses (Monitor.houses_removeWorkspaceByIdx hremoved)) currentIdx
        refine (hset.onMonitor (fun m m' hm => ?_) hlt).activateMonitorIf _ targetIdx
        refine Monitor.houses_insertWorkspace ?_ hm
        exact Workspace.atHome_setOutput (by simp [hnone])

theorem housed_moveWorkspaceToOutput (h : l.Housed) (hl : l.moveWorkspaceToOutput output = some l') :
    l'.Housed := by
  unfold moveWorkspaceToOutput at hl
  split at hl
  · exact some.inj hl ▸ h
  · exact housed_moveWorkspaceToOutputById h hl

theorem Housed.onActiveOr (h : l.Housed) (f : Workspace → Option (Bool × Workspace))
    (other : Layout → Option Layout) (hf : ∀ ws b ws', f ws = some (b, ws') → Stays ws ws')
    (hother : ∀ l l', Housed l → other l = some l' → l'.Housed) (hl : l.onActiveOr f other = some l') :
    l'.Housed := by
  unfold Layout.onActiveOr at hl
  split at hl
  · exact hother l l' h hl
  · rename_i idx hidx
    obtain ⟨m, hm, hl⟩ := of_bind hl
    obtain ⟨ws, hws, hl⟩ := of_bind hl
    obtain ⟨⟨b, ws'⟩, hf', hl⟩ := of_bind hl
    have hset := h.setMonitor
      ((h.monitorAt hm).houses (Monitor.houses_setWorkspace hws (hf ws b ws' hf'))) idx
    dsimp only at hl
    split at hl
    · exact some.inj hl ▸ hset
    · exact hother _ l' hset hl

theorem Housed.onActiveOrFocus (h : l.Housed) (f : Workspace → Option (Bool × Workspace))
    (hf : ∀ ws b ws', f ws = some (b, ws') → Stays ws ws')
    (hl : l.onActiveOr f (some <| ·.focusOutput output) = some l') : l'.Housed :=
  h.onActiveOr f _ hf (fun _ _ hl' hl'' => some.inj hl'' ▸ hl'.focusOutput output) hl

theorem housed_applyTransfer (h : l.Housed) {op : TransferOp} (hl : l.applyTransfer op = some l') :
    l'.Housed := by
  cases op with
  | moveToOutput => exact housed_moveToOutput h hl
  | moveColumnToOutput => exact housed_moveColumnToOutput h hl
  | moveWorkspaceToOutput => exact housed_moveWorkspaceToOutput h hl
  | moveWorkspaceToOutputById => exact housed_moveWorkspaceToOutputById h hl
  | moveColumnLeftOrToOutput output =>
    exact h.onActiveOr (·.moveLeft) (·.moveColumnToOutput output none true)
      (fun _ _ _ => Workspace.stays_moveOnActiveSpace)
      (fun _ _ hl' hl'' => housed_moveColumnToOutput hl' hl'') hl
  | moveColumnRightOrToOutput output =>
    exact h.onActiveOr (·.moveRight) (·.moveColumnToOutput output none true)
      (fun _ _ _ => Workspace.stays_moveOnActiveSpace)
      (fun _ _ hl' hl'' => housed_moveColumnToOutput hl' hl'') hl
  | focusWindowUpOrOutput =>
    exact h.onActiveOrFocus (·.focusUp) (fun _ _ _ => Workspace.stays_focusOnActiveSpace) hl
  | focusWindowDownOrOutput =>
    exact h.onActiveOrFocus (·.focusDown) (fun _ _ _ => Workspace.stays_focusOnActiveSpace) hl
  | focusColumnLeftOrOutput =>
    exact h.onActiveOrFocus (·.focusLeft) (fun _ _ _ => Workspace.stays_focusOnActiveSpace) hl
  | focusColumnRightOrOutput =>
    exact h.onActiveOrFocus (·.focusRight) (fun _ _ _ => Workspace.stays_focusOnActiveSpace) hl

end Macniri.Layout
