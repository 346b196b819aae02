import Macniri.Layout.Sound

/-! Outputs come and go, and windows, columns and workspaces move between them, without a loss. -/
namespace Macniri.Layout

open Option List

variable {l l' lt : Layout} {m m' mt : Monitor} {ws ws' : Workspace} {idx w : ℕ} {output : Output}
variable {added removed : List ℕ}

/-! Outputs. -/

/-- Workspaces that go to another monitor. -/
structure Transferable (workspaces : List Workspace) : Prop where
  focus : ∀ ws ∈ workspaces, ws.Focus
  nodup : (Monitor.windowsOf workspaces).Nodup

theorem focused_new {workspaces : List Workspace} {wsIdToActivate : Option ℕ} {clock : ℚ}
    {baseOptions : Options} {layoutConfig : Option LayoutPart} {nextId : ℕ}
    (hfocus : ∀ ws ∈ workspaces, ws.Focus)
    (h : Monitor.new output workspaces wsIdToActivate clock baseOptions layoutConfig nextId = some m) :
    m.Focused := by
  unfold Monitor.new at h
  split at h
  · cases h
  · obtain rfl := some.inj h
    intro w hw
    obtain hw | hw := mem_append.mp hw
    · obtain hw | hw := mem_append.mp hw
      · split at hw
        · obtain rfl := mem_singleton.mp hw
          exact Workspace.focus_new ..
        · exact absurd hw not_mem_nil
      · obtain ⟨ws, hws, rfl⟩ := List.mem_map.mp hw
        exact (hfocus ws hws).attached output _
    · obtain rfl := mem_singleton.mp hw
      exact Workspace.focus_new ..

theorem windowIds_new {workspaces : List Workspace} {wsIdToActivate : Option ℕ} {clock : ℚ}
    {baseOptions : Options} {layoutConfig : Option LayoutPart} {nextId : ℕ}
    (hok : ∀ ws ∈ workspaces, ws.Ok)
    (h : Monitor.new output workspaces wsIdToActivate clock baseOptions layoutConfig nextId = some m) :
    m.windowIds.Perm (Monitor.windowsOf workspaces) := by
  unfold Monitor.new at h
  split at h
  · cases h
  · obtain rfl := some.inj h
    have hattached := Monitor.windowsOf_attached hok output (baseOptions.withMergedLayout layoutConfig)
    refine Perm.trans (.of_eq ?_) hattached
    have hfirst (b : Bool) : ((if b then [Workspace.new nextId output clock
        (baseOptions.withMergedLayout layoutConfig)] else []).map Workspace.windowIds).flatten = [] := by
      cases b <;> rfl
    show (List.map Workspace.windowIds (_ ++ _ ++ [_])).flatten = _
    rw [map_append, map_append, flatten_append, flatten_append, hfirst,
      nil_append]
    exact append_nil _

theorem newMonitor_spec {workspaces : List Workspace} {layoutConfig : Option LayoutPart}
    (hws : Transferable workspaces) (h : l.newMonitor output workspaces layoutConfig = some m) :
    m.Sound ∧ m.windowIds.Perm (Monitor.windowsOf workspaces) := by
  obtain ⟨mt, hmt, rfl⟩ := of_bind_some h
  have hok : ∀ ws ∈ workspaces, ws.Ok := fun ws hmem => (hws.focus ws hmem).ok
  have hsound : mt.Sound := ⟨Monitor.inv_new hok hws.nodup hmt, focused_new hws.focus hmt⟩
  have hchanges := hsound.shown (Monitor.shown_setOverviewProgress hsound.inv.toCore l.overviewOpen
    (l.overviewProgress.map OverviewProgress.value))
  exact ⟨hchanges.sound, hchanges.windowIds.trans (windowIds_new hok hmt)⟩

theorem count_windowsOf (workspaces : List Workspace) (w : ℕ) :
    (Monitor.windowsOf workspaces).count w = (workspaces.map fun ws => ws.windowIds.count w).sum := by
  rw [Monitor.windowsOf, count_flatten, List.map_map]
  rfl

theorem changes_releaseFor (h : m.Sound) {taken : List Workspace}
    (hother : (OutputId.new m.output).matches output = false)
    (hm : m.releaseFor output = some (m', taken)) :
    Monitor.Changes [] (Monitor.windowsOf taken) m m' ∧ Transferable taken := by
  have heffect := Monitor.effect_releaseFor h.inv hother hm
  obtain ⟨hrest, htaken⟩ := h.focused.releaseFor hm
  have hnodup := heffect.windowIds.nodup_iff.mpr h.inv.windows
  exact ⟨heffect.changes hrest, htaken, (nodup_append'.mp hnodup).1⟩

/-- The output that is added goes by another name than the others. -/
theorem keeps_addOutput (h : l.Intact) {layoutConfig : Option LayoutPart}
    (hother : ∀ m ∈ l.monitors, (OutputId.new m.output).matches output = false)
    (hl : l.addOutput output layoutConfig = some l') : Keeps l l' := by
  unfold addOutput at hl
  cases hset : l.monitorSet with
  | normal ms primaryIdx activeMonitorIdx =>
    rw [hset] at hl
    have hms : l.monitors = ms := by simp [monitors, hset]
    obtain ⟨primary, hprimary, hl⟩ := of_bind hl
    obtain ⟨⟨rest, taken⟩, hrelease, hl⟩ := of_bind hl
    obtain ⟨monitor, hmonitor, rfl⟩ := of_bind_some hl
    have hmem := mem_of_getElem? hprimary
    obtain ⟨hsound, hactive⟩ := h.normal hset
    obtain ⟨hrest, htaken⟩ := changes_releaseFor (hsound primary hmem) (hother primary (hms ▸ hmem)) hrelease
    obtain ⟨hnew, hids⟩ := newMonitor_spec htaken hmonitor
    refine .of_count ⟨fun m hm => ?_, ?_⟩ rfl fun w => ?_
    · obtain hm | hm := mem_append.mp hm
      · obtain rfl | hm := mem_of_mem_set hm
        · exact hrest.sound
        · exact hsound m hm
      · exact mem_singleton.mp hm ▸ hnew
    · rw [length_append, length_set]
      omega
    · rw [hset]
      have hsum := sum_map_set (f := fun m : Monitor => m.windowIds.count w) hprimary rest
      have hreleased := hrest.windowIds.count_eq w
      have hadded := hids.count_eq w
      simp only [MonitorSet.count, map_append, sum_append, map_singleton,
        sum_singleton, count_append, count_nil] at hreleased ⊢
      omega
  | noOutputs workspaces =>
    rw [hset] at hl
    obtain ⟨monitor, hmonitor, rfl⟩ := of_bind_some hl
    have hnodup : (Monitor.windowsOf workspaces).Nodup := by
      have hall := h.windows
      rw [windowIds, Layout.workspaces, hset] at hall
      exact (nodup_append'.mp hall).2.1
    obtain ⟨hnew, hids⟩ := newMonitor_spec ⟨h.noOutputs hset, hnodup⟩ hmonitor
    refine .of_count ⟨fun m hm => mem_singleton.mp hm ▸ hnew, Nat.one_pos⟩ rfl fun w => ?_
    have hcount := hids.count_eq w
    rw [count_windowsOf] at hcount
    rw [hset]
    simp only [MonitorSet.count, map_singleton, sum_singleton, count_nil]
    omega

theorem windowsOf_used (workspaces : List Workspace) :
    Monitor.windowsOf (workspaces.filter (·.hasWindowsOrName)) = Monitor.windowsOf workspaces := by
  induction workspaces with
  | nil => rfl
  | cons ws workspaces ih =>
    unfold Monitor.windowsOf at ih ⊢
    rw [filter_cons, map_cons, flatten_cons, ← ih]
    cases hused : ws.hasWindowsOrName with
    | true => rfl
    | false =>
      have hnil : ws.windowIds = [] := by
        by_contra hne
        have hused' := Workspace.hasWindows_iff.mpr hne
        simp [Workspace.hasWindowsOrName, hused'] at hused
      rw [hnil, nil_append]
      rfl

/-- The workspaces that are left of a removed monitor. -/
theorem intoWorkspaces_spec (h : m.Sound) : Transferable m.intoWorkspaces ∧
    (∀ ws ∈ m.intoWorkspaces, ws.hasWindowsOrName = true) ∧
    (Monitor.windowsOf m.intoWorkspaces).Perm m.windowIds := by
  have hused : ∀ ws ∈ m.workspaces.filter (·.hasWindowsOrName),
      ws.Focus ∧ ws.hasWindowsOrName = true := fun ws hws =>
    ⟨h.focused ws (mem_of_mem_filter hws), (mem_filter.mp hws).2⟩
  have hids : (Monitor.windowsOf m.intoWorkspaces).Perm m.windowIds := by
    have hall : Forall₂ (fun a b : Workspace => b.windowIds.Perm a.windowIds)
        (m.workspaces.filter (·.hasWindowsOrName)) m.intoWorkspaces :=
      forall₂_map fun ws hws => (Workspace.setOutput_spec (hused ws hws).1.ok none).2.2
    refine Perm.trans ?_ (Perm.of_eq (windowsOf_used m.workspaces))
    refine (Forall₂.flatten_perm ?_).symm
    rw [forall₂_map_left_iff, forall₂_map_right_iff]
    exact hall.imp fun _ _ hperm => hperm.symm
  refine ⟨⟨fun w hw => ?_, hids.nodup_iff.mpr h.inv.windows⟩, fun w hw => ?_, hids⟩
  · obtain ⟨ws, hws, rfl⟩ := List.mem_map.mp hw
    exact (hused ws hws).1.setOutput none
  · obtain ⟨ws, hws, rfl⟩ := List.mem_map.mp hw
    obtain ⟨hfocus, huse⟩ := hused ws hws
    obtain ⟨-, hname, hperm⟩ := Workspace.setOutput_spec hfocus.ok none
    rw [Workspace.hasWindowsOrName, Workspace.hasWindows_congr hperm, hname]
    exact huse

theorem keeps_removeOutput (h : l.Intact) (hl : l.removeOutput output = some l') : Keeps l l' := by
  unfold removeOutput at hl
  cases hset : l.monitorSet with
  | normal ms primaryIdx activeMonitorIdx =>
    rw [hset] at hl
    obtain ⟨idx, -, hl⟩ := of_bind hl
    obtain ⟨monitor, hmonitor, hl⟩ := of_bind hl
    obtain ⟨active, -, hl⟩ := of_bind hl
    obtain ⟨hsound, hactive⟩ := h.normal hset
    obtain ⟨hmovable, hused, hids⟩ := intoWorkspaces_spec (hsound monitor (mem_of_getElem? hmonitor))
    dsimp only at hl
    split at hl
    · rename_i hempty
      obtain rfl := some.inj hl
      refine .of_count (fun w hw => ?_) rfl fun w => ?_
      · obtain ⟨ws, hws, rfl⟩ := List.mem_map.mp hw
        exact (hmovable.focus ws hws).applyConfig (.updateConfig l.options)
      · have herase := sum_map_eraseIdx (f := fun m : Monitor => m.windowIds.count w) hmonitor
        rw [List.isEmpty_iff.mp hempty] at herase
        have hkept : Forall₂ (fun a b : Workspace => a.windowIds.count w = b.windowIds.count w)
            monitor.intoWorkspaces (monitor.intoWorkspaces.map (·.updateConfig l.options)) :=
          forall₂_map fun ws hws =>
            ((Workspace.kept_updateConfig (hmovable.focus ws hws).ok l.options).windowIds.count_eq w).symm
        have hsum := sum_map_forall₂ (f := fun ws : Workspace => ws.windowIds.count w) hkept
        have hcount := hids.count_eq w
        rw [count_windowsOf] at hcount
        rw [hset]
        simp only [MonitorSet.count, count_nil, map_nil, sum_nil] at herase ⊢
        omega
    · rename_i hmany
      have hcut : Changes [] (Monitor.windowsOf monitor.intoWorkspaces) l { l with
          lastActiveWorkspaceId :=
            l.lastActiveWorkspaceId.insert monitor.output.name.connector active.id
          monitorSet := .normal (ms.eraseIdx idx) (idxAfterRemoval primaryIdx idx)
            (idxAfterRemoval activeMonitorIdx idx) } := by
        refine .of_count ⟨fun m hm => hsound m (mem_of_mem_eraseIdx hm), ?_⟩ rfl fun w => ?_
        · have hidx := lt_length_of_getElem? hmonitor
          have hne : ms.length ≠ 1 := fun hone => hmany (by
            rw [List.isEmpty_iff_length_eq_zero, length_eraseIdx_of_lt hidx, hone])
          rw [length_eraseIdx_of_lt hidx]
          unfold idxAfterRemoval
          split <;> omega
        have herase := sum_map_eraseIdx (f := fun m : Monitor => m.windowIds.count w) hmonitor
        have hcount := hids.count_eq w
        rw [hset]
        simp only [MonitorSet.count, count_nil]
        omega
      refine hcut.restored ((hcut.sound_of_removed h).onMonitor (fun m m' hat hm hm' => ?_) hl)
      have hown : m.Movable monitor.intoWorkspaces := ⟨fun ws hws => (hmovable.focus ws hws).ok, hused,
        hmovable.nodup, fun w hw hmem => hcut.fresh h w hw (mem_windowIds_of_monitorAt hat hmem)⟩
      exact (Monitor.effect_appendWorkspaces hm.inv hown hm').1.changes
        (hm.focused.appendWorkspaces hmovable.focus hm')
  | noOutputs workspaces =>
    rw [hset] at hl
    cases hl

/-- The name of an output never changes. -/
theorem keeps_updateOutputSize (h : l.Intact)
    (hname : ∀ m ∈ l.monitors, m.output.same output = true → output.name = m.output.name)
    (hl : l.updateOutputSize output = some l') : Keeps l l' := by
  unfold updateOutputSize at hl
  split at hl
  · rename_i idx hidx
    have hmoved : Keeps l { l with interactiveMove := l.interactiveMove.map (·.updateOutput output) } := by
      refine .of_eq h.parts rfl ?_
      unfold movingIds movingTile moving
      cases l.interactiveMove with
      | none => rfl
      | some move =>
        cases move with
        | starting window delta => rfl
        | moving d =>
          dsimp only [map_some, bind_some, InteractiveMoveState.updateOutput]
          split
          · rfl
          · rfl
    refine hmoved.trans ((hmoved.sound_of_removed h).onMonitor (fun m m' hm hsound hm' => ?_) hl)
    obtain rfl := some.inj hm'
    have hid : OutputId.new output = OutputId.new m.output := by
      obtain ⟨m₀, hm₀, rfl⟩ := of_map hm
      have hm₀ : l.monitors[idx]? = some m₀ := hm₀
      obtain ⟨hlt, hsame, -⟩ := findIdx?_eq_some_iff_getElem.mp hidx
      rw [getElem?_eq_getElem hlt, some.injEq] at hm₀
      have heq := hname m₀ (hm₀ ▸ getElem_mem hlt) (hm₀ ▸ hsame)
      unfold OutputId.new
      rw [heq]
    exact (Monitor.effect_updateOutputSize hsound.inv hid).changes (hsound.focused.updateOutputSize output)
  · exact some.inj hl ▸ .refl h

theorem keeps_updateLayoutConfig (h : l.Intact) {layoutConfig : Option LayoutPart}
    (hl : l.updateLayoutConfig output layoutConfig = some l') : Keeps l l' := by
  unfold updateLayoutConfig at hl
  split at hl
  · exact some.inj hl ▸ .refl h
  · refine h.onMonitor (fun m m' _ hm hm' => ?_) hl
    exact some.inj hm' ▸ (Monitor.effect_updateLayoutConfig hm.inv layoutConfig).changes
      (hm.focused.updateLayoutConfig layoutConfig)

/-! Between outputs. -/

theorem changes_takeTile (h : l.Intact) {monIdx wsIdx : ℕ} {window : Option ℕ} {r : RemovedTile}
    (hl : l.takeTile monIdx wsIdx window = some (some (r, l'))) : Changes [] [r.tile.id] l l' := by
  obtain ⟨m, hm, hl⟩ := of_bind hl
  obtain ⟨ws, hws, hl⟩ := of_bind hl
  obtain ⟨removed, hremoved, hl⟩ := of_bind hl
  cases removed with
  | none => cases some.inj hl
  | some p =>
    obtain ⟨rfl, rfl⟩ := pair_inj (some.inj hl)
    have hsound := h.monitorAt hm
    have hfocus := hsound.focused ws (mem_of_getElem? hws)
    refine changes_setMonitor h.parts hm (Monitor.changes_setWorkspace hsound hws ?_ ?_)
    · exact Monitor.cut_removeWindowOrActive hfocus.ok hremoved
    · exact hfocus.removeWindowOrActive hremoved

theorem changes_addRemoved (h : l.Intact) {r : RemovedTile} (hfresh : r.tile.id ∉ l.windowIds) {id : ℕ}
    {activate : ActivateWindow} (hl : l.onMonitor idx (·.addRemoved r id activate) = some l') :
    Changes [r.tile.id] [] l l' := by
  refine h.onMonitor (fun m m' hm hsound hm' => ?_) hl
  have hnew : r.tile.id ∉ m.windowIds := fun hmem => hfresh (mem_windowIds_of_monitorAt hm hmem)
  exact (Monitor.effect_addRemoved hsound.inv hnew hm').changes (hsound.focused.addTile hnew hm')

theorem keeps_cleanUp (h : l.Intact) (hl : l.onMonitor idx (·.cleanUpUnlessSwitching) = some l') :
    Keeps l l' :=
  h.onMonitor (fun _ _ _ hm hm' => ((Monitor.Effect.refl hm.inv).cleanUp hm').changes
    (hm.focused.cleanUpUnlessSwitching hm')) hl

theorem keeps_moveToOutput (h : l.Intact) {window targetWsIdx : Option ℕ} {activate : ActivateWindow}
    (hl : l.moveToOutput window output targetWsIdx activate = some l') : Keeps l l' := by
  unfold moveToOutput at hl
  split at hl
  · exact some.inj hl ▸ .refl h
  · obtain ⟨newIdx, -, hl⟩ := of_bind hl
    obtain ⟨⟨monIdx, wsIdx⟩, -, hl⟩ := of_bind hl
    obtain ⟨target, -, hl⟩ := of_bind hl
    dsimp only at hl
    split at hl
    · exact some.inj hl ▸ .refl h
    · split at hl
      · exact some.inj hl ▸ .refl h
      · obtain ⟨taken, htaken, hl⟩ := of_bind hl
        cases taken with
        | none => exact some.inj hl ▸ .refl h
        | some p =>
          obtain ⟨lt, hlt, hl⟩ := of_bind hl
          have hcut := changes_takeTile h htaken
          have hadded := hcut.restored
            (changes_addRemoved (hcut.sound_of_removed h) (hcut.fresh h _ mem_cons_self) hlt)
          have hactivated := hadded.trans (keeps_activateMonitorIf hadded.parts
            (l.activatesMoved window monIdx activate) (lt_length_of_onMonitor hlt))
          exact hactivated.trans (keeps_cleanUp (hactivated.sound_of_removed h) hl)

theorem keeps_moveColumnToOutput (h : l.Intact) {targetWsIdx : Option ℕ} {activate : Bool}
    (hl : l.moveColumnToOutput output targetWsIdx activate = some l') : Keeps l l' := by
  unfold moveColumnToOutput at hl
  split at hl
  · exact some.inj hl ▸ .refl h
  · rename_i monIdx hidx
    obtain ⟨newIdx, -, hl⟩ := of_bind hl
    obtain ⟨m, hm, hl⟩ := of_bind hl
    obtain ⟨ws, hws, hl⟩ := of_bind hl
    split at hl
    · exact keeps_moveToOutput h hl
    · obtain ⟨removed, hremoved, hl⟩ := of_bind hl
      cases removed with
      | none => exact some.inj hl ▸ .refl h
      | some p =>
        obtain ⟨target, -, hl⟩ := of_bind hl
        obtain ⟨lt, hlt, rfl⟩ := of_bind_some hl
        have hsound := h.monitorAt hm
        have hfocus := hsound.focused ws (mem_of_getElem? hws)
        have hcut := changes_setMonitor h.parts hm (Monitor.changes_setWorkspace hsound hws
          (Workspace.cut_removeActiveColumn hfocus.ok hremoved) (hfocus.removeActiveColumn hremoved))
        obtain ⟨s, hs, -⟩ := Workspace.removeActiveColumn_cases hremoved
        have hwf : p.1.Wf := ScrollingSpace.wf_removed hfocus.ok.scrolling hs
        have hadded := hcut.restored ((hcut.sound_of_removed h).onMonitor
          (fun mt m' hat hmt hm' => by
            have hnew : ∀ v ∈ p.1.windowIds, v ∉ mt.windowIds := fun v hv hmem =>
              hcut.fresh h v hv (mem_windowIds_of_monitorAt hat hmem)
            exact (Monitor.grown_addColumn hmt.inv hwf hnew hm').effect.changes
              (hmt.focused.addColumn hwf hnew hm')) hlt)
        exact hadded.trans (keeps_activateMonitorIf hadded.parts activate (lt_length_of_onMonitor hlt))

theorem keeps_moveWorkspaceToOutputById (h : l.Intact) {oldIdx : ℕ} {oldOutput : Option Output}
    (hl : l.moveWorkspaceToOutputById oldIdx oldOutput output = some l') : Keeps l l' := by
  unfold moveWorkspaceToOutputById at hl
  split at hl
  · exact some.inj hl ▸ .refl h
  · obtain ⟨currentIdx, -, hl⟩ := of_bind hl
    obtain ⟨targetIdx, -, hl⟩ := of_bind hl
    obtain ⟨current, hcurrent, hl⟩ := of_bind hl
    have hsound := h.monitorAt hcurrent
    split at hl
    · exact some.inj hl ▸ .refl h
    · rename_i hlt
      split at hl
      · obtain rfl := some.inj hl
        obtain ⟨ws, hws⟩ : ∃ ws, current.workspaces[oldIdx]? = some ws :=
          ⟨_, getElem?_eq_getElem (not_le.mp hlt)⟩
        have hmonitor : { current with
            workspaces := current.workspaces.modify oldIdx
              ({ · with originalOutput := OutputId.new current.output }) } =
            current.setWorkspace oldIdx { ws with originalOutput := OutputId.new current.output } := by
          rw [modify_eq_set_of_getElem? hws]
          rfl
        have hfocus : Workspace.Focus { ws with originalOutput := OutputId.new current.output } :=
          (hsound.focused ws (mem_of_getElem? hws)).congr rfl rfl rfl
        rw [hmonitor]
        exact changes_setMonitor h.parts hcurrent
          ((Monitor.effect_setOriginalOutput hsound.inv hws).changes
            (hsound.focused.setWorkspace hfocus oldIdx))
      · obtain ⟨⟨ws, mt⟩, hremoved, hl⟩ := of_bind hl
        obtain ⟨lt, hlt, rfl⟩ := of_bind_some hl
        obtain ⟨hrest, hfocus⟩ := hsound.focused.removeWorkspaceByIdx hremoved
        have hcut := changes_setMonitor h.parts hcurrent
          ((Monitor.effect_removeWorkspaceByIdx hsound.inv hremoved).1.changes hrest)
        have hmoved : Workspace.Focus { ws with originalOutput := OutputId.new output } :=
          hfocus.congr rfl rfl rfl
        have hadded := hcut.restored ((hcut.sound_of_removed h).onMonitor
          (fun target m' hat htarget hm' => by
            have hnew : ∀ v ∈ ws.windowIds, v ∉ target.windowIds := fun v hv hmem =>
              hcut.fresh h v hv (mem_windowIds_of_monitorAt hat hmem)
            exact (Monitor.effect_insertWorkspace htarget.inv hmoved.ok hnew htarget.inv.active hm').1.changes
              (htarget.focused.insertWorkspace hmoved hm')) hlt)
        exact hadded.trans (keeps_activateMonitorIf hadded.parts _ (lt_length_of_onMonitor hlt))

theorem keeps_moveWorkspaceToOutput (h : l.Intact) (hl : l.moveWorkspaceToOutput output = some l') :
    Keeps l l' := by
  unfold moveWorkspaceToOutput at hl
  split at hl
  · exact some.inj hl ▸ .refl h
  · exact keeps_moveWorkspaceToOutputById h hl

theorem keeps_applyActive (h : ws.Focus) {op : ActiveOp} (hws : ws.applyActive op = some ws') :
    Workspace.Keeps ws ws' := ⟨Workspace.kept_applyActive h.ok hws, h.applyActive hws⟩

/-- An operation of the active workspace or, if it does nothing, another one. -/
theorem Intact.onActiveOr (h : l.Intact) (op : ActiveOp) (f : Workspace → Option (Bool × Workspace))
    (other : Layout → Option Layout) (hf : ∀ ws, (f ws).map (·.2) = ws.applyActive op)
    (hother : ∀ l l', l.Intact → other l = some l' → Keeps l l') (hl : l.onActiveOr f other = some l') :
    Keeps l l' := by
  unfold Layout.onActiveOr at hl
  split at hl
  · exact hother l l' h hl
  · rename_i idx hidx
    obtain ⟨m, hm, hl⟩ := of_bind hl
    obtain ⟨ws, hws, hl⟩ := of_bind hl
    obtain ⟨⟨b, ws'⟩, hf', hl⟩ := of_bind hl
    have hsound := h.monitorAt hm
    have hactive : ws.applyActive op = some ws' := by rw [← hf, hf', map_some]
    have hkeeps := keeps_applyActive (hsound.focused ws (mem_of_getElem? hws)) hactive
    have hset := changes_setMonitor h.parts hm
      (Monitor.changes_setWorkspace hsound hws (Workspace.Kept.cut hkeeps.toEdit) hkeeps.focus)
    dsimp only at hl
    split at hl
    · exact some.inj hl ▸ hset
    · exact hset.trans (hother _ l' (hset.sound_of_removed h) hl)

theorem Intact.onActiveOrFocus (h : l.Intact) (op : ActiveOp) (f : Workspace → Option (Bool × Workspace))
    (hf : ∀ ws, (f ws).map (·.2) = ws.applyActive op)
    (hl : l.onActiveOr f (some <| ·.focusOutput output) = some l') : Keeps l l' :=
  h.onActiveOr op f _ hf (fun _ _ hl' hl'' => some.inj hl'' ▸ keeps_focusOutput hl'.parts output) hl

theorem keeps_applyTransfer (h : l.Intact) {op : TransferOp} (hl : l.applyTransfer op = some l') :
    Keeps l l' := by
  cases op with
  | moveToOutput => exact keeps_moveToOutput h hl
  | moveColumnToOutput => exact keeps_moveColumnToOutput h hl
  | moveWorkspaceToOutput => exact keeps_moveWorkspaceToOutput h hl
  | moveWorkspaceToOutputById => exact keeps_moveWorkspaceToOutputById h hl
  | moveColumnLeftOrToOutput output =>
    exact h.onActiveOr .moveLeft (·.moveLeft) (·.moveColumnToOutput output none true)
      (fun _ => rfl) (fun _ _ hl' hl'' => keeps_moveColumnToOutput hl' hl'') hl
  | moveColumnRightOrToOutput output =>
    exact h.onActiveOr .moveRight (·.moveRight) (·.moveColumnToOutput output none true)
      (fun _ => rfl) (fun _ _ hl' hl'' => keeps_moveColumnToOutput hl' hl'') hl
  | focusWindowUpOrOutput => exact h.onActiveOrFocus .focusUp (·.focusUp) (fun _ => rfl) hl
  | focusWindowDownOrOutput => exact h.onActiveOrFocus .focusDown (·.focusDown) (fun _ => rfl) hl
  | focusColumnLeftOrOutput => exact h.onActiveOrFocus .focusLeft (·.focusLeft) (fun _ => rfl) hl
  | focusColumnRightOrOutput =>
    exact h.onActiveOrFocus .focusRight (·.focusRight) (fun _ => rfl) hl

end Macniri.Layout
