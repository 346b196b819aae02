import Macniri.Layout.KeyboardFocus
import Macniri.Layout.Reconnect

/-! Moving a column to another output: which workspace it goes to, and what is activated. -/
namespace Macniri.Layout

open Option List

/-! On a monitor. -/

namespace Workspace

variable {ws ws' : Workspace}

/-- A workspace that got windows is the same one. -/
structure Receives (added : List ℕ) (ws ws' : Workspace) : Prop where
  id : ws'.id = ws.id
  windows : ∀ w ∈ added, w ∈ ws'.windowIds

theorem Edit.receives {added : List ℕ} (h : Edit added ws ws') : Receives added ws ws' :=
  ⟨h.id, fun _ hw => h.windowIds.mem_iff.mpr (mem_append_left _ hw)⟩

theorem Focus.mem_activeColumn (h : ws.Focus) (hscrolling : ws.floatingIsActive ≠ .yes) {w : ℕ}
    (hw : ws.activeId = some w) {column : Column}
    (hr : ws.removeActiveColumn = some (some (column, ws'))) : w ∈ column.windowIds := by
  obtain ⟨s, hs, -⟩ := removeActiveColumn_cases hr
  obtain ⟨hcolumn, -⟩ := ScrollingSpace.removeColumnByIdx_spec hs
  rw [h.activeId_eq, if_neg hscrolling, ScrollingSpace.activeId_of_getElem? hcolumn] at hw
  exact mem_of_getElem? hw

/-- The floating space is active, so its active window is taken. -/
theorem Focus.removeActiveTile_floating (h : ws.Focus) (hfloating : ws.floatingIsActive = .yes) {w : ℕ}
    (hw : ws.activeId = some w) {r : Option (RemovedTile × Workspace)}
    (hr : ws.removeActiveTile = some r) :
    ∃ removed ws', r = some (removed, ws') ∧ removed.tile.id = w := by
  rw [h.activeId_eq, if_pos hfloating] at hw
  unfold Workspace.removeActiveTile at hr
  rw [if_pos (get_eq_true.mpr hfloating)] at hr
  obtain ⟨taken, htaken, hr⟩ := of_bind hr
  unfold FloatingSpace.removeActiveTile at htaken
  rw [hw] at htaken
  obtain ⟨⟨removed, f⟩, hremoved, rfl⟩ := of_map htaken
  exact ⟨removed, _, (some.inj hr).symm, (FloatingSpace.removeTile_perm hremoved).1⟩

theorem mem_activeId {w : ℕ} (hw : ws.activeId = some w) : w ∈ ws.windowIds := by
  obtain ⟨window, hwindow, rfl⟩ := of_map hw
  unfold Workspace.activeWindow at hwindow
  split at hwindow
  · obtain ⟨id, -, hwindow⟩ := of_bind hwindow
    obtain ⟨tile, htile, rfl⟩ := of_bind_some hwindow
    exact mem_append_right _ (List.mem_map_of_mem (mem_of_find?_eq_some htile))
  · obtain ⟨column, hcolumn, hwindow⟩ := of_bind hwindow
    obtain ⟨tile, htile, rfl⟩ := of_bind_some hwindow
    refine mem_append_left _ (mem_flatten.mpr ⟨column.windowIds, ?_, ?_⟩)
    · exact List.mem_map_of_mem (mem_of_getElem? hcolumn)
    · exact List.mem_map_of_mem (mem_of_getElem? htile)

end Workspace

namespace Monitor

variable {m m' mt : Monitor} {ws ws' : Workspace} {i : ℕ} {activate : Bool} {added : List ℕ}

theorem activeId_eq (m : Monitor) : m.activeId = m.activeWorkspace.map (·.id) := by
  unfold activeId ids activeWorkspace
  exact getElem?_map

/-- Windows were added to the workspace with an id, which was maybe activated. -/
structure Placed (added : List ℕ) (id : ℕ) (activate : Bool) (m m' : Monitor) : Prop where
  there : ∃ ws ∈ m'.workspaces, ws.id = id ∧ ∀ w ∈ added, w ∈ ws.windowIds
  active : m'.activeId = if activate then some id else m.activeId

theorem placed_filled (hws : m.workspaces[i]? = some ws) (hreceives : Workspace.Receives added ws ws')
    (hmt : mt = m.setWorkspace i ws')
    (h : ((mt.adoptWorkspace i).padEnds i).1.activateIf activate
      ((mt.adoptWorkspace i).padEnds i).2 = some m') : Placed added ws.id activate m m' := by
  obtain ⟨hmem, hactive⟩ := filled_active hws hmt h
  have hid : (adopted m.output ws').id = ws.id := (adopted_id m.output ws').trans hreceives.id
  refine ⟨⟨_, hmem, hid, fun w hw => ?_⟩, ?_⟩
  · rw [adopted_windowIds]
    exact hreceives.windows w hw
  · rw [activeId_eq, hactive]
    cases activate with
    | true => exact congrArg some hid
    | false =>
      rw [Bool.false_or, activeId_eq]
      split
      · rename_i hidx
        have hhere : m.activeWorkspace = some ws := by rw [activeWorkspace, ← beq_iff_eq.mp hidx, hws]
        rw [hhere]
        exact congrArg some hid
      · rfl

theorem placed_addColumn (h : m.Inv) {column : Column} (hwf : column.Wf)
    (hfresh : ∀ w ∈ column.windowIds, w ∉ m.windowIds) (hm : m.addColumn i column activate = some m') :
    ∃ id, m.ids[i]? = some id ∧ Placed column.windowIds id activate m m' := by
  obtain ⟨mt, hmt, hm⟩ := of_bind hm
  obtain ⟨ws, ws', hws, hadd, hmt⟩ := onWorkspace_spec hmt
  have hnew (w : ℕ) (hw : w ∈ column.windowIds) : w ∉ ws.windowIds :=
    fun hmem => hfresh w hw (mem_windowIds_of_workspace hws hmem)
  have hedit : Workspace.Edit column.windowIds ws ws' :=
    Workspace.edit_addColumn (h.ok_getElem? hws) (show ∀ w ∈ (⟨column, hwf⟩ : WfColumn).1.windowIds, _
      from hnew) hadd
  refine ⟨ws.id, ?_, placed_filled hws hedit.receives hmt hm⟩
  rw [ids, getElem?_map, hws]
  rfl

theorem placed_addRemoved (h : m.Inv) {r : RemovedTile} (hfresh : r.tile.id ∉ m.windowIds) {id : ℕ}
    (hm : m.addRemoved r id .yes = some m') : Placed [r.tile.id] id true m m' := by
  obtain ⟨⟨idx, target'⟩, htarget, hm⟩ := of_bind hm
  obtain ⟨mt, hmt, hm⟩ := of_bind hm
  obtain ⟨ws, ws', hws, hadd, hmt⟩ := onWorkspace_spec hmt
  obtain ⟨idx', hidx, htarget⟩ := of_bind htarget
  obtain ⟨rfl, -⟩ := pair_inj htarget
  have hid : ws.id = id := by
    obtain ⟨hlt, hthere, -⟩ := findIdx?_eq_some_iff_getElem.mp hidx
    have hws : m.workspaces[idx']? = some ws := hws
    rw [getElem?_eq_getElem hlt, some.injEq] at hws
    exact hws ▸ beq_iff_eq.mp hthere
  have hedit := Workspace.edit_addTile (h.ok_getElem? hws) (not_mem_windowIds hfresh hws) hadd
  exact hid ▸ placed_filled hws hedit.receives hmt hm

end Monitor

/-- The active workspace, by id, of the monitor at an index. -/
def activeIdAt (l : Layout) (idx : ℕ) : Option ℕ := Option.bind l.monitors[idx]? Monitor.activeId

/-- The workspace, by id, that an index of the monitor `newIdx` refers to, the active one by
default. -/
def targetId (l : Layout) (newIdx : ℕ) (targetWsIdx : Option ℕ) : Option ℕ :=
  Option.bind l.monitors[newIdx]? fun m =>
    match targetWsIdx with
    | some idx => m.ids[min idx (m.ids.length - 1)]?
    | none => m.activeId

/-- Whether the floating space of the active workspace is active. -/
def floatingHasFocus (l : Layout) : Bool := l.activeWorkspace.any (·.floatingIsActive.get)

/-- The window is on the workspace of the monitor `newIdx` that was asked for; the focus follows if
that was asked for, and stays otherwise. -/
structure Honored (l l' : Layout) (w newIdx : ℕ) (targetWsIdx : Option ℕ) (activate : Bool) : Prop where
  there : ∃ m', l'.monitors[newIdx]? = some m' ∧ ∃ ws ∈ m'.workspaces,
    l.targetId newIdx targetWsIdx = some ws.id ∧ w ∈ ws.windowIds
  activated : activate = true → l'.activeMonitorIdx = some newIdx ∧
    l'.activeIdAt newIdx = l.targetId newIdx targetWsIdx
  unchanged : activate = false → l'.activeMonitorIdx = l.activeMonitorIdx ∧
    ∀ i, l'.activeIdAt i = l.activeIdAt i

/-- A window was sent to the workspace with an id, which was maybe activated. -/
structure Sent (w newIdx id : ℕ) (activate : Bool) (l l' : Layout) : Prop where
  there : ∃ m', l'.monitors[newIdx]? = some m' ∧ ∃ ws ∈ m'.workspaces, ws.id = id ∧ w ∈ ws.windowIds
  monitor : l'.activeMonitorIdx = if activate then some newIdx else l.activeMonitorIdx
  active : ∀ i, l'.activeIdAt i = if activate ∧ i = newIdx then some id else l.activeIdAt i

variable {l l' lt : Layout} {m m' : Monitor} {i j w monIdx newIdx id : ℕ} {output : Output}
variable {targetWsIdx : Option ℕ} {activate : Bool} {added : List ℕ}

theorem activeIdAt_monitorAt (hm : l.monitorAt i = some m) : l.activeIdAt i = m.activeId := by
  obtain ⟨w, hw, rfl⟩ := of_map hm
  unfold activeIdAt
  rw [hw]
  rfl

theorem activeIdAt_setMonitor (hm : l.monitorAt j = some m) (m' : Monitor) (i : ℕ) :
    (l.setMonitor j m').activeIdAt i = if i = j then m'.activeId else l.activeIdAt i := by
  obtain ⟨w, hw, rfl⟩ := of_map hm
  unfold activeIdAt
  rw [monitors_setMonitor]
  split
  · rename_i hi
    rw [hi, getElem?_set_self (lt_length_of_getElem? hw)]
    rfl
  · rename_i hi
    rw [getElem?_set_ne (Ne.symm hi)]

theorem activeIdAt_activateMonitorIf (l : Layout) (activate : Bool) (idx i : ℕ) :
    (l.activateMonitorIf activate idx).activeIdAt i = l.activeIdAt i := by
  unfold activateMonitorIf activeIdAt
  split
  · rw [monitors_activateMonitor]
  · rfl

theorem sent_of_placed (hactive : l.activeMonitorIdx.isSome) {f : Monitor → Option Monitor}
    (hf : ∀ m m', l.monitorAt newIdx = some m → f m = some m' → Monitor.Placed added id activate m m')
    (hw : w ∈ added) (hl : l.onMonitor newIdx f = some l') :
    Sent w newIdx id activate l (l'.activateMonitorIf activate newIdx) := by
  obtain ⟨m, hm, hl⟩ := of_bind hl
  obtain ⟨m', hm', rfl⟩ := of_bind_some hl
  obtain ⟨⟨ws, hws, hid, hall⟩, hplaced⟩ := hf m m' hm hm'
  have hmonitors : ((l.setMonitor newIdx m').activateMonitorIf activate newIdx).monitors =
      l.monitors.set newIdx m' := by
    rw [← monitors_setMonitor]
    unfold activateMonitorIf
    split
    · exact monitors_activateMonitor ..
    · rfl
  refine ⟨⟨m', ?_, ws, hws, hid, hall w hw⟩, ?_, fun i => ?_⟩
  · obtain ⟨m₀, hm₀, -⟩ := of_map hm
    rw [hmonitors]
    exact getElem?_set_self (lt_length_of_getElem? hm₀)
  · unfold activateMonitorIf
    split
    · exact activeMonitorIdx_activateMonitor ((activeMonitorIdx_setMonitor l newIdx m').symm ▸ hactive) newIdx
    · exact activeMonitorIdx_setMonitor l newIdx m'
  · rw [activeIdAt_activateMonitorIf, activeIdAt_setMonitor hm, hplaced]
    by_cases hi : i = newIdx
    · rw [if_pos hi, hi, activeIdAt_monitorAt hm]
      simp
    · rw [if_neg hi, if_neg fun hboth => hi hboth.2]

theorem Sent.honored (h : Sent w newIdx id activate l l') (hid : l.targetId newIdx targetWsIdx = some id) :
    Honored l l' w newIdx targetWsIdx activate := by
  obtain ⟨⟨m', hm', ws, hws, rfl, hw⟩, hmonitor, hactive⟩ := h
  refine ⟨⟨m', hm', ws, hws, hid, hw⟩, ?_, ?_⟩
  · rintro rfl
    refine ⟨hmonitor, ?_⟩
    rw [hactive, hid]
    exact if_pos ⟨rfl, rfl⟩
  · rintro rfl
    exact ⟨hmonitor, fun i => (hactive i).trans (if_neg fun hboth => Bool.false_ne_true hboth.1)⟩

/-! From the scrolling space. -/

theorem monitor_of_active (hw : (l.activeMonitor.bind (·.activeWindow)).map Window.id = some w) :
    ∃ monIdx m ws, l.activeMonitorIdx = some monIdx ∧ l.monitors[monIdx]? = some m ∧
      m.activeWorkspace = some ws ∧ ws.activeId = some w ∧ l.activeWorkspace = some ws := by
  obtain ⟨window, hwindow, rfl⟩ := of_map hw
  obtain ⟨m, hm, hwindow⟩ := of_bind hwindow
  obtain ⟨monIdx, hidx, hat⟩ := of_bind hm
  obtain ⟨ws, hws, hwindow⟩ := of_bind hwindow
  refine ⟨monIdx, m, ws, hidx, hat, hws, congrArg (Option.map Window.id) hwindow, ?_⟩
  unfold activeWorkspace
  rw [hm]
  exact hws

theorem targetId_setMonitor (hm : l.monitorAt j = some m) (hids : m'.ids = m.ids)
    (hactive : m'.activeWorkspaceIdx = m.activeWorkspaceIdx) (newIdx : ℕ) (targetWsIdx : Option ℕ) :
    (l.setMonitor j m').targetId newIdx targetWsIdx = l.targetId newIdx targetWsIdx := by
  obtain ⟨m₀, hm₀, rfl⟩ := of_map hm
  have hsame : m'.ids = m₀.ids := hids
  have hactive : m'.activeWorkspaceIdx = m₀.activeWorkspaceIdx := hactive
  unfold targetId
  rw [monitors_setMonitor]
  by_cases hj : newIdx = j
  · subst hj
    rw [getElem?_set_self (lt_length_of_getElem? hm₀), hm₀]
    simp only [bind_some, Monitor.activeId, hsame, hactive]
  · rw [getElem?_set_ne (Ne.symm hj)]

/-- The index that is used is in bounds. -/
theorem targetId_of_getElem? (h : l.Intact) (hm : l.monitors[newIdx]? = some m)
    (hid : m.ids[min (targetWsIdx.getD m.activeWorkspaceIdx) (m.workspaces.length - 1)]? = some id) :
    l.targetId newIdx targetWsIdx = some id := by
  have hlen : m.ids.length = m.workspaces.length := length_map _
  unfold targetId
  rw [hm]
  cases targetWsIdx with
  | some idx =>
    dsimp only [bind_some]
    rw [hlen]
    exact hid
  | none =>
    have hactive := (h.monitors m (mem_of_getElem? hm)).inv.active
    have hmin : min m.activeWorkspaceIdx (m.workspaces.length - 1) = m.activeWorkspaceIdx := by omega
    rw [getD_none, hmin] at hid
    exact hid

/-- A workspace of the monitor changed in place before. -/
theorem Sent.of_setMonitor (hm : l.monitorAt j = some m) (hids : m'.ids = m.ids)
    (hactive : m'.activeWorkspaceIdx = m.activeWorkspaceIdx)
    (h : Sent w newIdx id activate (l.setMonitor j m') l') : Sent w newIdx id activate l l' := by
  refine ⟨h.there, ?_, fun i => ?_⟩
  · rw [h.monitor, activeMonitorIdx_setMonitor]
  · have hsame : m'.activeId = m.activeId := by
      unfold Monitor.activeId
      rw [hids, hactive]
    rw [h.active, activeIdAt_setMonitor hm]
    by_cases hij : i = j
    · rw [if_pos hij, hsame, hij, activeIdAt_monitorAt hm]
    · rw [if_neg hij]

theorem honored_scrolling (h : l.Intact)
    (hw : (l.activeMonitor.bind (·.activeWindow)).map Window.id = some w)
    (hscrolling : l.floatingHasFocus = false) (hout : l.monitorIdxForOutput output = some newIdx)
    (hl : l.moveColumnToOutput output targetWsIdx activate = some l') :
    Honored l l' w newIdx targetWsIdx activate := by
  obtain ⟨monIdx, m₀, ws, hidx, hm₀, hws, hactive, hspace⟩ := monitor_of_active hw
  have hflag : ws.floatingIsActive.get = false := by
    unfold floatingHasFocus at hscrolling
    rw [hspace] at hscrolling
    exact hscrolling
  unfold moveColumnToOutput at hl
  rw [hidx] at hl
  obtain ⟨_, hout', hl⟩ := of_bind hl
  obtain rfl := some.inj (hout.symm.trans hout')
  obtain ⟨m, hm, hl⟩ := of_bind hl
  obtain ⟨ws', hws', hl⟩ := of_bind hl
  obtain rfl : ws' = ws := by
    obtain ⟨m₁, hm₁, rfl⟩ := of_map hm
    obtain rfl := some.inj (hm₀.symm.trans hm₁)
    exact some.inj (hws'.symm.trans hws)
  rw [hflag, if_neg Bool.false_ne_true] at hl
  have hsound := h.monitorAt hm
  have hfocus := hsound.focused ws' (mem_of_getElem? hws')
  have hspace' : ws'.floatingIsActive ≠ .yes := fun hyes => by
    rw [Workspace.get_eq_true.mpr hyes] at hflag
    cases hflag
  obtain ⟨removed, hremoved, hl⟩ := of_bind hl
  cases removed with
  | none =>
    have hempty : ws'.scrolling.columns.isEmpty = true := by
      unfold Workspace.removeActiveColumn at hremoved
      rw [hflag, Bool.false_or] at hremoved
      split at hremoved
      · assumption
      · obtain ⟨p, -, hp⟩ := of_bind hremoved
        cases hp
    rw [hfocus.activeId_eq, if_neg hspace'] at hactive
    have hsome := (ScrollingSpace.activeId_isSome_iff hfocus.ok.scrolling).mp
      (isSome_iff_exists.mpr ⟨w, hactive⟩)
    exact absurd (List.isEmpty_iff.mp hempty) hsome
  | some p =>
    obtain ⟨target, htarget, hl⟩ := of_bind hl
    obtain ⟨lt, hlt, rfl⟩ := of_bind_some hl
    have hcuts := Workspace.cut_removeActiveColumn hfocus.ok hremoved
    have hcut := changes_setMonitor h.parts hm (Monitor.changes_setWorkspace hsound hws' hcuts
      (hfocus.removeActiveColumn hremoved))
    have hleft := hcut.sound_of_removed h
    obtain ⟨s, hs, -⟩ := Workspace.removeActiveColumn_cases hremoved
    have hwf : p.1.Wf := ScrollingSpace.wf_removed hfocus.ok.scrolling hs
    have hids := Monitor.ids_setWorkspace hws' hcuts.id
    obtain ⟨mt, hmt, hadd⟩ := of_bind hlt
    obtain ⟨m', hm', -⟩ := of_bind hadd
    have hnew : ∀ v ∈ p.1.windowIds, v ∉ mt.windowIds := fun v hv hmem =>
      hcut.fresh h v hv (mem_windowIds_of_monitorAt hmt hmem)
    obtain ⟨id, hid, hplaced⟩ := Monitor.placed_addColumn (hleft.monitorAt hmt).inv hwf hnew hm'
    have hsent := sent_of_placed
      (by rw [activeMonitorIdx_setMonitor, hidx]; rfl)
      (fun mu mu' hmu hmu' => by
        obtain rfl := some.inj (hmt.symm.trans hmu)
        obtain rfl := some.inj (hm'.symm.trans hmu')
        exact hplaced)
      (hfocus.mem_activeColumn hspace' hactive hremoved) hlt
    refine (hsent.of_setMonitor hm hids rfl).honored ?_
    rw [← targetId_setMonitor hm hids rfl newIdx targetWsIdx]
    refine targetId_of_getElem? hleft htarget ?_
    obtain ⟨m₁, hm₁, rfl⟩ := of_map hmt
    obtain rfl := some.inj (htarget.symm.trans hm₁)
    exact hid

/-! From the floating space: the active window goes to the active workspace, which is activated. -/

theorem moveToOutput_stays (hout : l.monitorIdxForOutput output = some newIdx)
    (hstays : l.moving ≠ none ∨ l.activeMonitorIdx = some newIdx)
    (hl : l.moveToOutput none output none .smart = some l') : l' = l := by
  unfold moveToOutput at hl
  split at hl
  · exact (some.inj hl).symm
  · rename_i hnone
    obtain ⟨_, hout', hl⟩ := of_bind hl
    obtain rfl := some.inj (hout.symm.trans hout')
    obtain ⟨⟨monIdx, wsIdx⟩, hplace, hl⟩ := of_bind hl
    obtain ⟨target, htarget, hl⟩ := of_bind hl
    obtain ⟨_, hidx, hplace⟩ := of_bind hplace
    obtain ⟨m, hm, hplace⟩ := of_bind hplace
    obtain ⟨rfl, rfl⟩ := pair_inj hplace
    rcases hstays with hmoving | hsame
    · refine absurd (.inl ?_) hnone
      obtain ⟨d, hd⟩ := ne_none_iff_exists'.mp hmoving
      unfold targetsMoving movingTile
      rw [hd]
      rfl
    · obtain rfl := some.inj (hidx.symm.trans hsame)
      obtain rfl := some.inj (hm.symm.trans htarget)
      dsimp only at hl
      rw [if_pos ⟨rfl, rfl⟩] at hl
      exact (some.inj hl).symm

theorem moveToOutput_goes (h : l.Intact)
    (hw : (l.activeMonitor.bind (·.activeWindow)).map Window.id = some w)
    (hfloating : l.floatingHasFocus = true) (hidle : l.moving = none)
    (hout : l.monitorIdxForOutput output = some newIdx) (hne : l.activeMonitorIdx ≠ some newIdx)
    (hl : l.moveToOutput none output none .smart = some l') :
    l'.activeMonitorIdx = some newIdx ∧ l'.activeIdAt newIdx = l.activeIdAt newIdx ∧
      ∃ m', l'.monitors[newIdx]? = some m' ∧ ∃ ws ∈ m'.workspaces,
        l.activeIdAt newIdx = some ws.id ∧ w ∈ ws.windowIds := by
  obtain ⟨monIdx, m₀, ws, hidx, hm₀, hws, hactive, hspace⟩ := monitor_of_active hw
  have hflag : ws.floatingIsActive = .yes := by
    unfold floatingHasFocus at hfloating
    rw [hspace] at hfloating
    exact Workspace.get_eq_true.mp hfloating
  have hmon : monIdx ≠ newIdx := fun heq => hne (heq ▸ hidx)
  have hnone : ¬ (l.targetsMoving none = true ∨ l.monitors = []) := by
    rintro (hmoving | hempty)
    · unfold targetsMoving movingTile at hmoving
      rw [hidle] at hmoving
      cases hmoving
    · rw [hempty] at hm₀
      cases hm₀
  unfold moveToOutput at hl
  rw [if_neg hnone] at hl
  obtain ⟨_, hout', hl⟩ := of_bind hl
  obtain rfl := some.inj (hout.symm.trans hout')
  obtain ⟨⟨monIdx', wsIdx⟩, hplace, hl⟩ := of_bind hl
  obtain ⟨target, htarget, hl⟩ := of_bind hl
  obtain ⟨_, hidx', hplace⟩ := of_bind hplace
  obtain rfl := some.inj (hidx.symm.trans hidx')
  obtain ⟨_, hm', hplace⟩ := of_bind hplace
  obtain rfl := some.inj (hm₀.symm.trans hm')
  obtain ⟨rfl, rfl⟩ := pair_inj hplace
  dsimp only at hl
  rw [if_neg fun hboth => hmon hboth.1, getD_none] at hl
  have hinv := (h.monitors target (mem_of_getElem? htarget)).inv
  obtain ⟨tws, htws⟩ : ∃ tws, target.workspaces[target.activeWorkspaceIdx]? = some tws :=
    ⟨_, getElem?_eq_getElem hinv.active⟩
  have hid : l.activeIdAt newIdx = some tws.id := by
    unfold activeIdAt
    rw [htarget, bind_some, target.activeId_eq, Monitor.activeWorkspace, htws]
    rfl
  rw [htws] at hl
  obtain ⟨taken, htaken, hl⟩ := of_bind hl
  have htaken' := htaken
  obtain ⟨m, hm, htaken⟩ := of_bind htaken
  obtain ⟨ws', hws', htaken⟩ := of_bind htaken
  obtain ⟨r, hr, htaken⟩ := of_bind htaken
  obtain rfl : ws' = ws := by
    obtain ⟨m₁, hm₁, rfl⟩ := of_map hm
    obtain rfl := some.inj (hm₀.symm.trans hm₁)
    exact some.inj (hws'.symm.trans hws)
  have hfocus := (h.monitorAt hm).focused ws' (mem_of_getElem? hws')
  obtain ⟨removed, ws₁, rfl, rfl⟩ := hfocus.removeActiveTile_floating hflag hactive hr
  obtain rfl := some.inj htaken
  obtain ⟨lt, hlt, hl⟩ := of_bind hl
  have hcut := changes_takeTile h htaken'
  have hsent := sent_of_placed (by rw [activeMonitorIdx_setMonitor, hidx]; rfl)
    (fun mt mt' hmt hmt' => Monitor.placed_addRemoved ((hcut.sound_of_removed h).monitorAt hmt).inv
      (fun hmem => hcut.fresh h _ mem_cons_self (mem_windowIds_of_monitorAt hmt hmem)) hmt')
    mem_cons_self hlt
  obtain ⟨mc, hmc, hl⟩ := of_bind hl
  obtain ⟨mc', -, rfl⟩ := of_bind_some hl
  obtain ⟨m', hm', ws₂, hws₂, hsame, hmem⟩ := hsent.there
  refine ⟨(activeMonitorIdx_setMonitor ..).trans hsent.monitor, ?_, m', ?_, ws₂, hws₂, ?_, hmem⟩
  · rw [activeIdAt_setMonitor hmc, if_neg (Ne.symm hmon), hid]
    exact (hsent.active newIdx).trans (if_pos ⟨rfl, rfl⟩)
  · rw [monitors_setMonitor, getElem?_set_ne hmon]
    exact hm'
  · rw [hid, hsame]

/-! Where windows are. -/

/-- A window is on one workspace of a monitor only. -/
theorem Monitor.workspace_unique (h : m.windowIds.Nodup) {ws ws' : Workspace} (hws : ws ∈ m.workspaces)
    (hws' : ws' ∈ m.workspaces) (hw : w ∈ ws.windowIds) (hw' : w ∈ ws'.windowIds) : ws = ws' := by
  obtain ⟨i, hi⟩ := mem_iff_getElem?.mp hws
  obtain ⟨j, hj⟩ := mem_iff_getElem?.mp hws'
  obtain rfl := eq_of_mem_of_nodup_flatten h (Monitor.windowIds_getElem? hi)
    (Monitor.windowIds_getElem? hj) hw hw'
  exact some.inj (hi.symm.trans hj)

/-! Both spaces. -/

theorem moveColumnToOutput_floating (hfloating : l.floatingHasFocus = true)
    (hl : l.moveColumnToOutput output targetWsIdx activate = some l') :
    l.moveToOutput none output none .smart = some l' := by
  unfold moveColumnToOutput at hl
  unfold floatingHasFocus activeWorkspace activeMonitor at hfloating
  cases hidx : l.activeMonitorIdx with
  | none =>
    rw [hidx] at hfloating
    cases hfloating
  | some monIdx =>
    rw [hidx] at hl hfloating
    obtain ⟨newIdx, -, hl⟩ := of_bind hl
    obtain ⟨m, hm, hl⟩ := of_bind hl
    obtain ⟨ws, hws, hl⟩ := of_bind hl
    obtain ⟨m₀, hm₀, rfl⟩ := of_map hm
    rw [bind_some, hm₀, bind_some] at hfloating
    have hws : m₀.activeWorkspace = some ws := hws
    rw [hws, any_some] at hfloating
    rwa [if_pos hfloating] at hl

/-- With the floating space active only its window moves, to the active workspace, which is
activated. -/
theorem honored_floating_iff (h : l.Intact)
    (hw : (l.activeMonitor.bind (·.activeWindow)).map Window.id = some w)
    (hfloating : l.floatingHasFocus = true) (hout : l.monitorIdxForOutput output = some newIdx)
    (hl : l.moveColumnToOutput output targetWsIdx activate = some l') :
    Honored l l' w newIdx targetWsIdx activate ↔ l.activeIdAt newIdx = l.targetId newIdx targetWsIdx ∧
      (l.activeMonitorIdx = some newIdx ∨ l.moving = none ∧ activate = true) := by
  have hl := moveColumnToOutput_floating hfloating hl
  obtain ⟨monIdx, m, ws, hidx, hm, hws, hactive, -⟩ := monitor_of_active hw
  have hmem := Workspace.mem_activeId hactive
  have hown : w ∈ m.windowIds := Monitor.mem_windowIds_of_workspace hws hmem
  by_cases hsame : l.activeMonitorIdx = some newIdx
  · obtain rfl := some.inj (hidx.symm.trans hsame)
    obtain rfl := moveToOutput_stays hout (.inr hsame) hl
    have hid : l'.activeIdAt monIdx = some ws.id := by
      unfold activeIdAt
      rw [hm, bind_some, m.activeId_eq, hws]
      rfl
    constructor
    · rintro ⟨⟨m', hm', ws', hws', hid', hw'⟩, -, -⟩
      obtain rfl := some.inj (hm.symm.trans hm')
      have hnodup := (h.monitors m (mem_of_getElem? hm)).inv.windows
      obtain rfl := Monitor.workspace_unique hnodup (mem_of_getElem? hws) hws' hmem hw'
      exact ⟨hid.trans hid'.symm, .inl hsame⟩
    · rintro ⟨htarget, -⟩
      exact ⟨⟨m, hm, ws, mem_of_getElem? hws, htarget.symm.trans hid, hmem⟩,
        fun _ => ⟨hsame, htarget⟩, fun _ => ⟨rfl, fun _ => rfl⟩⟩
  · by_cases hidle : l.moving = none
    · obtain ⟨hmonitor, hgone, m', hm', ws', hws', hid, hw'⟩ :=
        moveToOutput_goes h hw hfloating hidle hout hsame hl
      constructor
      · rintro ⟨⟨m₁, hm₁, ws₁, hws₁, hid₁, hw₁⟩, -, hunchanged⟩
        obtain rfl := some.inj (hm'.symm.trans hm₁)
        have hsound := (keeps_moveToOutput h hl).sound_of_removed h
        have hnodup := (hsound.monitors m' (mem_of_getElem? hm')).inv.windows
        obtain rfl := Monitor.workspace_unique hnodup hws' hws₁ hw' hw₁
        refine ⟨hid.trans hid₁.symm, .inr ⟨hidle, ?_⟩⟩
        cases activate with
        | true => rfl
        | false => exact absurd ((hunchanged rfl).1.symm.trans hmonitor) hsame
      · rintro ⟨htarget, hcond⟩
        refine ⟨⟨m', hm', ws', hws', htarget.symm.trans hid, hw'⟩,
          fun _ => ⟨hmonitor, hgone.trans htarget⟩, fun hno => ?_⟩
        rcases hcond with hcond | ⟨-, hyes⟩
        · exact absurd hcond hsame
        · exact absurd (hyes.symm.trans hno) (by decide)
    · obtain rfl := moveToOutput_stays hout (.inl hidle) hl
      constructor
      · rintro ⟨⟨m', hm', ws', hws', -, hw'⟩, -, -⟩
        obtain ⟨i, hi⟩ := mem_iff_getElem?.mp hws'
        have hthere : w ∈ m'.windowIds := Monitor.mem_windowIds_of_workspace hi hw'
        exact absurd (monitor_unique h hm hm' hown hthere ▸ hidx) hsame
      · rintro ⟨-, hcond | ⟨hnone, -⟩⟩
        · exact absurd hcond hsame
        · exact absurd hnone hidle

/-- Moving a column does what it was asked for if the scrolling space is active. A floating window
always goes to the active workspace and always takes the focus along, unless one is being moved. -/
theorem moveColumnToOutput_honored_iff {clock : ℚ} {config : Config} {ops : List LayoutOp}
    (hfair : AllAlong apply (fun l op => op.Fair l) (new clock config) ops)
    (hrun : run apply (new clock config) ops = some l)
    (hw : (l.activeMonitor.bind (·.activeWindow)).map Window.id = some w)
    (hout : l.monitorIdxForOutput output = some newIdx)
    (hl : l.moveColumnToOutput output targetWsIdx activate = some l') :
    Honored l l' w newIdx targetWsIdx activate ↔ (l.floatingHasFocus = true →
      l.activeIdAt newIdx = l.targetId newIdx targetWsIdx ∧
        (l.activeMonitorIdx = some newIdx ∨ l.moving = none ∧ activate = true)) := by
  have h := sound_run hfair hrun
  cases hfloating : l.floatingHasFocus with
  | true =>
    rw [honored_floating_iff h hw hfloating hout hl]
    exact ⟨fun hcond _ => hcond, fun hcond => hcond rfl⟩
  | false =>
    exact ⟨fun _ hno => (Bool.false_ne_true hno).elim,
      fun _ => honored_scrolling h hw hfloating hout hl⟩

/-- A window is opened on one of two outputs, floating or not. -/
def openedOnLaptop (isFloating : Bool) : List LayoutOp :=
  [.output (.addOutput laptop none), .output (.addOutput (screen 1 "DP-1") none),
    opensWindow 1 .auto isFloating]

theorem moveColumnToOutput_honored_to_screen : ∃ l l',
    run apply (new 0 ⟨[], .default⟩) (openedOnLaptop false) = some l ∧
    l.moveColumnToOutput (screen 1 "DP-1") (some 3) false = some l' ∧
    Honored l l' 1 1 (some 3) false := by
  have hrun : (run apply (new 0 ⟨[], .default⟩) (openedOnLaptop false)).any (fun l =>
      (l.activeMonitor.bind (·.activeWindow)).map Window.id == some 1 &&
      l.monitorIdxForOutput (screen 1 "DP-1") == some 1 && !l.floatingHasFocus &&
      (l.moveColumnToOutput (screen 1 "DP-1") (some 3) false).isSome) = true := by decide +kernel
  obtain ⟨l, hl, hall⟩ := (Option.any_eq_true _ _).mp hrun
  obtain ⟨hall, hmoved⟩ := Bool.and_eq_true_iff.mp hall
  obtain ⟨hall, hscrolling⟩ := Bool.and_eq_true_iff.mp hall
  obtain ⟨hw, hout⟩ := Bool.and_eq_true_iff.mp hall
  obtain ⟨l', hl'⟩ := isSome_iff_exists.mp hmoved
  refine ⟨l, l', hl, hl', (moveColumnToOutput_honored_iff
    (allAlong_of_decide (by decide +kernel)) hl (beq_iff_eq.mp hw) (beq_iff_eq.mp hout) hl').mpr
      fun hfloating => ?_⟩
  rw [hfloating] at hscrolling
  cases hscrolling

/-- A floating window is sent away without activating it, and the other output is activated. -/
theorem moveColumnToOutput_activates_anyway : ∃ l l',
    run apply (new 0 ⟨[], .default⟩) (openedOnLaptop true) = some l ∧
    AllAlong apply (fun l op => op.Fair l) (new 0 ⟨[], .default⟩) (openedOnLaptop true) ∧
    (l.activeMonitor.bind (·.activeWindow)).map Window.id = some 1 ∧
    l.monitorIdxForOutput (screen 1 "DP-1") = some 1 ∧
    l.moveColumnToOutput (screen 1 "DP-1") none false = some l' ∧
    ¬ Honored l l' 1 1 none false := by
  have hrun : (run apply (new 0 ⟨[], .default⟩) (openedOnLaptop true)).any (fun l =>
      (l.activeMonitor.bind (·.activeWindow)).map Window.id == some 1 &&
      l.monitorIdxForOutput (screen 1 "DP-1") == some 1 &&
      (l.moveColumnToOutput (screen 1 "DP-1") none false).any (fun l' =>
        l'.activeMonitorIdx != l.activeMonitorIdx)) = true := by decide +kernel
  obtain ⟨l, hl, hall⟩ := (Option.any_eq_true _ _).mp hrun
  obtain ⟨hall, hmoved⟩ := Bool.and_eq_true_iff.mp hall
  obtain ⟨hw, hout⟩ := Bool.and_eq_true_iff.mp hall
  obtain ⟨l', hl', hactivated⟩ := (Option.any_eq_true _ _).mp hmoved
  refine ⟨l, l', hl, allAlong_of_decide (by decide +kernel), beq_iff_eq.mp hw, beq_iff_eq.mp hout, hl',
    fun hhonored => ?_⟩
  rw [(hhonored.unchanged rfl).1] at hactivated
  simp at hactivated

end Macniri.Layout
