import Macniri.Layout.MonitorFocus
import Macniri.Layout.Step
import Macniri.Lib.Counting

/-! What holds of a layout between its operations, and which windows come and go. -/
namespace Macniri.Layout

open Option List

/-- What holds of a monitor of the layout. -/
structure Monitor.Sound (m : Monitor) : Prop where
  inv : m.Inv
  focused : m.Focused

/-- `m'` is sound, and has windows of `m` with some added and removed. -/
structure Monitor.Changes (added removed : List ℕ) (m m' : Monitor) : Prop where
  sound : m'.Sound
  windowIds : (removed ++ m'.windowIds).Perm (added ++ m.windowIds)

/-- `ws'` is the same workspace with the same windows, and its focus is consistent. -/
structure Workspace.Keeps (ws ws' : Workspace) : Prop extends Workspace.Kept ws ws' where
  focus : ws'.Focus

def MonitorSet.Sound : MonitorSet → Prop
  | .normal monitors _ activeMonitorIdx =>
    (∀ m ∈ monitors, m.Sound) ∧ activeMonitorIdx < monitors.length
  | .noOutputs workspaces => ∀ ws ∈ workspaces, ws.Focus

/-- What holds of a layout: no window is in it twice. -/
structure Intact (l : Layout) : Prop where
  parts : l.monitorSet.Sound
  windows : l.windowIds.Nodup

/-- The parts of `l'` are sound, and its windows are those of `l` with some added and removed. -/
structure Changes (added removed : List ℕ) (l l' : Layout) : Prop where
  parts : l'.monitorSet.Sound
  windowIds : ∀ w, l'.windowIds.count w + removed.count w = l.windowIds.count w + added.count w

/-- The same windows are there. -/
abbrev Keeps : Layout → Layout → Prop := Changes [] []

variable {l l' lt : Layout} {m m' mt : Monitor} {ws ws' : Workspace} {idx w : ℕ}
variable {added removed : List ℕ} {f : Monitor → Option Monitor} {g : Workspace → Option Workspace}

/-! Monitors. -/

theorem Monitor.Effect.changes (h : Monitor.Effect added removed m m') (hfocused : m'.Focused) :
    Monitor.Changes added removed m m' := ⟨⟨h.inv, hfocused⟩, h.windowIds⟩

theorem Monitor.Changes.refl (h : m.Sound) : Monitor.Changes [] [] m m := ⟨h, .refl _⟩

theorem Monitor.Changes.trans (h : Monitor.Changes added removed m mt)
    (h' : Monitor.Changes [] [] mt m') : Monitor.Changes added removed m m' :=
  ⟨h'.sound, (h'.windowIds.append_left removed).trans h.windowIds⟩

theorem Monitor.Sound.shown (h : m.Sound) (hm : Monitor.Shown m m') : Monitor.Changes [] [] m m' :=
  (hm.effect h.inv).changes (h.focused.shown hm)

/-- The monitors share one counter of ids. -/
theorem Monitor.Sound.withNextId (h : m.Sound) (nextId : ℕ) :
    Monitor.Sound { m with nextId := nextId } :=
  ⟨⟨h.inv.toCore.congr rfl rfl (.inl rfl), h.inv.ends.congr rfl rfl rfl⟩, h.focused⟩

theorem Monitor.changes_setWorkspace (h : m.Sound) (hws : m.workspaces[idx]? = some ws)
    (hcut : Workspace.Cut removed ws ws') (hfocus : ws'.Focus) :
    Monitor.Changes [] removed m (m.setWorkspace idx ws') :=
  have hmon := h.inv.cutWorkspace hws hcut
  (hmon.1.effect hmon.2).changes (h.focused.setWorkspace hfocus idx)

theorem Monitor.keeps_onWorkspace (h : m.Sound)
    (hg : ∀ ws ws', ws.Focus → g ws = some ws' → Workspace.Keeps ws ws')
    (hm : m.onWorkspace idx g = some m') : Monitor.Changes [] [] m m' := by
  obtain ⟨ws, ws', hws, hws', rfl⟩ := Monitor.onWorkspace_spec hm
  have hkeeps := hg ws ws' (h.focused ws (mem_of_getElem? hws)) hws'
  exact Monitor.changes_setWorkspace h hws (Workspace.Kept.cut hkeeps.toEdit) hkeeps.focus

theorem Monitor.keeps_forall₂ (h : m.Sound)
    (hws : Forall₂ Workspace.Keeps m.workspaces m'.workspaces) (hcore : m'.Core)
    (hout : m'.output = m.output) (hopt : m'.emptyAboveFirst = m.emptyAboveFirst) :
    Monitor.Changes [] [] m m' := by
  have hkept := hws.imp fun _ _ hkeeps => hkeeps.toEdit
  refine (Monitor.effect_of_forall₂ h.inv hkept hcore (by rw [hout]) hopt).changes ?_
  exact Forall₂.forall_mem hws (fun _ _ hkeeps _ => hkeeps.focus) h.focused

/-! The windows of a layout. -/

/-- The window that is being moved. -/
def movingIds (l : Layout) : List ℕ := (l.movingTile.map Tile.id).toList

/-- How often a window is in a part of the layout. -/
def MonitorSet.count (w : ℕ) : MonitorSet → ℕ
  | .normal monitors _ _ => (monitors.map fun m => m.windowIds.count w).sum
  | .noOutputs workspaces => (workspaces.map fun ws => ws.windowIds.count w).sum

theorem count_windowIds (l : Layout) (w : ℕ) :
    l.windowIds.count w = l.movingIds.count w + l.monitorSet.count w := by
  rw [windowIds, count_append]
  refine congrArg₂ _ rfl ?_
  unfold workspaces MonitorSet.count
  cases l.monitorSet with
  | normal monitors primaryIdx activeMonitorIdx =>
    dsimp only
    rw [flatMap_assoc, count_flatMap]
    rfl
  | noOutputs workspaces => exact count_flatMap

theorem Changes.of_count (hparts : l'.monitorSet.Sound) (hmoving : l'.movingIds = l.movingIds)
    (h : ∀ w, l'.monitorSet.count w + removed.count w = l.monitorSet.count w + added.count w) :
    Changes added removed l l' := by
  refine ⟨hparts, fun w => ?_⟩
  have hset := h w
  rw [count_windowIds, count_windowIds, hmoving]
  omega

theorem Keeps.refl (h : l.Intact) : Keeps l l := ⟨h.parts, fun _ => rfl⟩

theorem Changes.trans (h : Changes added removed l lt) (h' : Keeps lt l') : Changes added removed l l' := by
  refine ⟨h'.parts, fun w => ?_⟩
  have hfirst := h.windowIds w
  have hthen := h'.windowIds w
  simp only [count_nil] at hthen
  omega

/-- Windows that were taken out are put back. -/
theorem Changes.restored (h : Changes [] removed l lt) (h' : Changes removed [] lt l') : Keeps l l' := by
  refine ⟨h'.parts, fun w => ?_⟩
  have hfirst := h.windowIds w
  have hthen := h'.windowIds w
  simp only [count_nil] at hfirst hthen ⊢
  omega

theorem Changes.sound (h : Changes added removed l l') (hl : l.Intact) (hadded : added.Nodup)
    (hfresh : ∀ w ∈ added, w ∉ l.windowIds) : l'.Intact := by
  refine ⟨h.parts, ?_⟩
  have hnodup : (added ++ l.windowIds).Nodup := nodup_append'.mpr ⟨hadded, hl.windows, hfresh⟩
  refine nodup_of_count_le (fun w => ?_) hnodup
  have hcount := h.windowIds w
  rw [count_append]
  omega

theorem Changes.sound_of_removed (h : Changes [] removed l l') (hl : l.Intact) : l'.Intact :=
  h.sound hl nodup_nil (fun _ hw => absurd hw not_mem_nil)

/-- What was taken out is not there any more. -/
theorem Changes.fresh (h : Changes [] removed l l') (hl : l.Intact) :
    ∀ w ∈ removed, w ∉ l'.windowIds := by
  intro w hw hmem
  have hcount := h.windowIds w
  have hone := nodup_iff_count_le_one.mp hl.windows w
  have hremoved := count_pos_iff.mpr hw
  have hthere := count_pos_iff.mpr hmem
  simp only [count_nil] at hcount
  omega

/-- Neither the monitors nor the moved window change. -/
theorem Keeps.of_eq (h : l.monitorSet.Sound) (hset : l'.monitorSet = l.monitorSet)
    (hmoving : l'.movingIds = l.movingIds) : Keeps l l' := by
  refine .of_count (hset ▸ h) hmoving fun w => ?_
  rw [hset]

/-! The operations that others are made of. -/

theorem Intact.normal (h : l.Intact) {ms : List Monitor} {primaryIdx activeMonitorIdx : ℕ}
    (hset : l.monitorSet = .normal ms primaryIdx activeMonitorIdx) :
    (∀ m ∈ ms, m.Sound) ∧ activeMonitorIdx < ms.length := by
  have hparts := h.parts
  rwa [hset] at hparts

theorem Intact.noOutputs (h : l.Intact) {workspaces : List Workspace}
    (hset : l.monitorSet = .noOutputs workspaces) : ∀ ws ∈ workspaces, ws.Focus := by
  have hparts := h.parts
  rwa [hset] at hparts

theorem Intact.monitors (h : l.Intact) : ∀ m ∈ l.monitors, m.Sound := by
  unfold Layout.monitors
  split
  · rename_i hset
    exact (h.normal hset).1
  · exact fun m hm => absurd hm not_mem_nil

theorem Intact.monitorAt (h : l.Intact) (hm : l.monitorAt idx = some m) : m.Sound := by
  obtain ⟨w, hw, rfl⟩ := of_map hm
  exact (h.monitors w (mem_of_getElem? hw)).withNextId l.nextId

theorem mem_windowIds_of_monitorAt (hm : l.monitorAt idx = some m) (hw : w ∈ m.windowIds) :
    w ∈ l.windowIds := by
  obtain ⟨m₀, hm₀, rfl⟩ := of_map hm
  obtain ⟨ids, hids, hw⟩ := mem_flatten.mp hw
  obtain ⟨ws, hws, rfl⟩ := List.mem_map.mp hids
  refine mem_append_right _ (mem_flatMap.mpr ⟨ws, ?_, hw⟩)
  unfold Layout.monitors at hm₀
  unfold workspaces
  cases hset : l.monitorSet with
  | normal monitors primaryIdx activeMonitorIdx =>
    rw [hset] at hm₀
    exact mem_flatMap.mpr ⟨m₀, mem_of_getElem? hm₀, hws⟩
  | noOutputs workspaces =>
    rw [hset] at hm₀
    cases hm₀

theorem nodup_monitors (h : l.Intact) : (l.monitors.map Monitor.windowIds).flatten.Nodup := by
  have hall := h.windows
  unfold windowIds workspaces at hall
  unfold monitors
  cases hset : l.monitorSet with
  | normal ms primaryIdx activeMonitorIdx =>
    rw [hset] at hall
    have hspaces := (nodup_append'.mp hall).2.1
    rw [flatMap_assoc] at hspaces
    exact hspaces
  | noOutputs workspaces => exact nodup_nil

/-- A window is on one monitor only. -/
theorem monitor_unique (h : l.Intact) {i j : ℕ} (hi : l.monitors[i]? = some m)
    (hj : l.monitors[j]? = some m') (hw : w ∈ m.windowIds) (hw' : w ∈ m'.windowIds) : i = j :=
  eq_of_mem_of_nodup_flatten (nodup_monitors h) (by rw [getElem?_map, hi]; rfl)
    (by rw [getElem?_map, hj]; rfl) hw hw'

theorem changes_setMonitor (h : l.monitorSet.Sound) (hm : l.monitorAt idx = some m)
    (hc : Monitor.Changes added removed m m') : Changes added removed l (l.setMonitor idx m') := by
  obtain ⟨m₀, hm₀, rfl⟩ := of_map hm
  unfold setMonitor
  cases hset : l.monitorSet with
  | normal ms primaryIdx activeMonitorIdx =>
    rw [hset] at h
    have hget : ms[idx]? = some m₀ := by simpa [monitors, hset] using hm₀
    refine .of_count ⟨fun w hw => ?_, ?_⟩ rfl fun w => ?_
    · obtain rfl | hw := mem_of_mem_set hw
      · exact hc.sound
      · exact h.1 w hw
    · rw [length_set]
      exact h.2
    · rw [hset]
      have hsum := sum_map_set (f := fun m : Monitor => m.windowIds.count w) hget m'
      have hcount := hc.windowIds.count_eq w
      rw [count_append, count_append] at hcount
      simp only [MonitorSet.count]
      have hids : ({ m₀ with nextId := l.nextId } : Monitor).windowIds = m₀.windowIds := rfl
      rw [hids] at hcount
      omega
  | noOutputs workspaces => simp [monitors, hset] at hm₀

theorem Intact.onMonitor (h : l.Intact)
    (hf : ∀ m m', l.monitorAt idx = some m → m.Sound → f m = some m' →
      Monitor.Changes added removed m m') (hl : l.onMonitor idx f = some l') :
    Changes added removed l l' := by
  obtain ⟨m, hm, hl⟩ := of_bind hl
  obtain ⟨m', hm', hl⟩ := of_bind hl
  exact some.inj hl ▸ changes_setMonitor h.parts hm (hf m m' hm (h.monitorAt hm) hm')

theorem Intact.onActiveMonitor (h : l.Intact)
    (hf : ∀ m m', m.Sound → f m = some m' → Monitor.Changes [] [] m m')
    (hl : l.onActiveMonitor f = some l') : Keeps l l' := by
  unfold Layout.onActiveMonitor at hl
  split at hl
  · exact h.onMonitor (fun m m' _ => hf m m') hl
  · exact some.inj hl ▸ .refl h

theorem Intact.onActiveWorkspace (h : l.Intact)
    (hg : ∀ ws ws', ws.Focus → g ws = some ws' → Workspace.Keeps ws ws')
    (hl : l.onActiveWorkspace g = some l') : Keeps l l' :=
  h.onActiveMonitor (fun _ _ hm => Monitor.keeps_onWorkspace hm hg) hl

/-- Every monitor goes through the operation, with some value of the counter. -/
theorem threadMonitors_forall₂ {ms ms' : List Monitor} {n n' : ℕ}
    (h : threadMonitors f n ms = some (n', ms')) :
    Forall₂ (fun m m' => ∃ k, f { m with nextId := k } = some m') ms ms' := by
  induction ms generalizing n ms' with
  | nil =>
    obtain ⟨-, rfl⟩ := pair_inj h
    exact .nil
  | cons m ms ih =>
    obtain ⟨m', hm', h⟩ := of_bind h
    obtain ⟨⟨k, rest⟩, hrest, h⟩ := of_bind h
    obtain ⟨rfl, rfl⟩ := pair_inj h
    exact .cons ⟨n, hm'⟩ (ih hrest)

theorem Intact.forMonitors (h : l.Intact)
    (hf : ∀ m m', m.Sound → f m = some m' → Monitor.Changes [] [] m m')
    (hl : l.forMonitors f = some l') : Keeps l l' := by
  unfold Layout.forMonitors at hl
  cases hset : l.monitorSet with
  | normal ms primaryIdx activeMonitorIdx =>
    rw [hset] at hl
    obtain ⟨⟨n', ms'⟩, hms, hl⟩ := of_bind hl
    obtain rfl := some.inj hl
    have hall : Forall₂ (fun m m' => m.Sound → Monitor.Changes [] [] m m') ms ms' :=
      (threadMonitors_forall₂ hms).imp fun m m' ⟨k, hm'⟩ hm =>
        have hchanges := hf _ m' (hm.withNextId k) hm'
        ⟨hchanges.sound, hchanges.windowIds⟩
    obtain ⟨hsound, hactive⟩ := h.normal hset
    refine .of_count ⟨Forall₂.forall_mem hall (fun _ _ hc hm => (hc hm).sound) hsound, ?_⟩ rfl
      fun w => ?_
    · rwa [← hall.length_eq]
    rw [hset]
    have hcounts : Forall₂ (fun m m' : Monitor => m.windowIds.count w = m'.windowIds.count w)
        ms ms' := by
      refine ((forall₂_and_left _ _).mpr ⟨hsound, hall⟩).imp fun m m' hm => ?_
      exact ((hm.2 hm.1).windowIds.count_eq w).symm
    have hsum := sum_map_forall₂ (f := fun m : Monitor => m.windowIds.count w) hcounts
    simp only [MonitorSet.count, count_nil]
    omega
  | noOutputs workspaces =>
    rw [hset] at hl
    exact some.inj hl ▸ .refl h

theorem Monitor.keeps_forWorkspaces (h : m.Sound)
    (hg : ∀ ws ws', ws.Focus → g ws = some ws' → Workspace.Keeps ws ws')
    (hm : m.forWorkspaces g = some m') : Monitor.Changes [] [] m m' := by
  obtain ⟨workspaces, hws, rfl⟩ := of_map hm
  have hall : Forall₂ Workspace.Keeps m.workspaces workspaces :=
    ((forall₂_and_left _ _).mpr ⟨h.focused, mapM_forall₂ hws⟩).imp fun ws ws' hws =>
      hg ws ws' hws.1 hws.2
  refine Monitor.keeps_forall₂ h hall ?_ rfl rfl
  exact Monitor.core_of_forall₂ h.inv.toCore (hall.imp fun _ _ hkeeps => hkeeps.toEdit) rfl
    h.inv.animation h.inv.gesture

/-- Without outputs, the windows are on the remaining workspaces. -/
theorem Keeps.noOutputs (h : l.Intact) {workspaces workspaces' : List Workspace}
    (hset : l.monitorSet = .noOutputs workspaces)
    (hall : Forall₂ Workspace.Keeps workspaces workspaces') :
    Keeps l { l with monitorSet := .noOutputs workspaces' } := by
  refine .of_count (Forall₂.forall_mem hall (fun _ _ hk _ => hk.focus) (h.noOutputs hset)) rfl
    fun w => ?_
  rw [hset]
  have hcounts : Forall₂ (fun ws ws' : Workspace => ws.windowIds.count w = ws'.windowIds.count w)
      workspaces workspaces' := hall.imp fun _ _ hk => (hk.windowIds.count_eq w).symm
  have hsum := sum_map_forall₂ (f := fun ws : Workspace => ws.windowIds.count w) hcounts
  simp only [MonitorSet.count, count_nil]
  omega

theorem Intact.forWorkspaces (h : l.Intact)
    (hg : ∀ ws ws', ws.Focus → g ws = some ws' → Workspace.Keeps ws ws')
    (hl : l.forWorkspaces g = some l') : Keeps l l' := by
  unfold Layout.forWorkspaces at hl
  cases hset : l.monitorSet with
  | normal ms primaryIdx activeMonitorIdx =>
    rw [hset] at hl
    exact h.forMonitors (fun _ _ hm => Monitor.keeps_forWorkspaces hm hg) hl
  | noOutputs workspaces =>
    rw [hset] at hl
    obtain ⟨workspaces', hws, rfl⟩ := of_map hl
    refine Keeps.noOutputs h hset ?_
    exact ((forall₂_and_left _ _).mpr ⟨h.noOutputs hset, mapM_forall₂ hws⟩).imp fun ws ws' hws =>
      hg ws ws' hws.1 hws.2

theorem Intact.forWorkspacesIf (h : l.Intact)
    (hg : ∀ ws ws', ws.Focus → g ws = some ws' → Workspace.Keeps ws ws') {b : Bool}
    (hl : l.forWorkspacesIf b g = some l') : Keeps l l' := by
  unfold Layout.forWorkspacesIf at hl
  split at hl
  · exact h.forWorkspaces hg hl
  · exact some.inj hl ▸ .refl h

theorem Monitor.keeps_onFirst (h : m.Sound) {p : Workspace → Bool}
    (hg : ∀ ws ws', ws.Focus → g ws = some ws' → Workspace.Keeps ws ws')
    (hm : m.onFirst p g = some m') : Monitor.Changes [] [] m m' := by
  obtain ⟨idx, -, hm⟩ := of_bind hm
  exact Monitor.keeps_onWorkspace h hg hm

theorem Workspace.Keeps.refl (h : ws.Focus) : Workspace.Keeps ws ws := ⟨Workspace.Kept.refl h.ok, h⟩

/-- An operation of the first workspace of a kind. -/
theorem Intact.onFirstOf (h : l.Intact) {p : Workspace → Bool}
    (hf : ∀ m m', m.Sound → m.onFirst p g = some m' → Monitor.Changes [] [] m m')
    (hg : ∀ ws ws', ws.Focus → g ws = some ws' → ws'.Focus ∧ ws'.windowIds.Perm ws.windowIds)
    (hl : l.onFirstWorkspace p g = some l') : Keeps l l' := by
  unfold Layout.onFirstWorkspace at hl
  cases hset : l.monitorSet with
  | normal ms primaryIdx activeMonitorIdx =>
    rw [hset] at hl
    obtain ⟨idx, -, hl⟩ := of_bind hl
    exact h.onMonitor (fun m m' _ => hf m m') hl
  | noOutputs workspaces =>
    rw [hset] at hl
    obtain ⟨idx, -, hl⟩ := of_bind hl
    obtain ⟨ws, hws, hl⟩ := of_bind hl
    obtain ⟨ws', hws', rfl⟩ := of_bind_some hl
    have hfocus := h.noOutputs hset
    obtain ⟨hnew, hperm⟩ := hg ws ws' (hfocus ws (mem_of_getElem? hws)) hws'
    refine .of_count (fun w hw => ?_) rfl fun w => ?_
    · obtain rfl | hw := mem_of_mem_set hw
      · exact hnew
      · exact hfocus w hw
    · rw [hset]
      have hkept := hperm.count_eq w
      have hsum := sum_map_set (f := fun ws : Workspace => ws.windowIds.count w) hws ws'
      simp only [MonitorSet.count, count_nil]
      omega

theorem Intact.onFirstWorkspace (h : l.Intact) {p : Workspace → Bool}
    (hg : ∀ ws ws', ws.Focus → g ws = some ws' → Workspace.Keeps ws ws')
    (hl : l.onFirstWorkspace p g = some l') : Keeps l l' :=
  h.onFirstOf (fun _ _ hm => Monitor.keeps_onFirst hm hg)
    (fun ws ws' hws hws' => ⟨(hg ws ws' hws hws').focus, (hg ws ws' hws hws').windowIds⟩) hl

theorem Intact.onWindow (h : l.Intact) {window : Option ℕ}
    (hg : ∀ ws ws', ws.Focus → g ws = some ws' → Workspace.Keeps ws ws')
    (hl : l.onWindow window g = some l') : Keeps l l' := by
  unfold Layout.onWindow at hl
  split at hl
  · exact some.inj hl ▸ .refl h
  · split at hl
    · exact h.onFirstWorkspace hg hl
    · exact h.onActiveWorkspace hg hl

theorem Intact.onWorkspaceOf (h : l.Intact) {window : ℕ}
    (hg : ∀ ws ws', ws.Focus → g ws = some ws' → Workspace.Keeps ws ws')
    (hl : l.onWorkspaceOf window g = some l') : Keeps l l' := by
  unfold Layout.onWorkspaceOf at hl
  split at hl
  · exact h.onFirstWorkspace hg hl
  · exact some.inj hl ▸ .refl h

theorem Intact.onUnmoved (h : l.Intact) {window : ℕ}
    (hg : ∀ ws ws', ws.Focus → g ws = some ws' → Workspace.Keeps ws ws')
    (hl : l.onUnmoved window g = some l') : Keeps l l' := by
  unfold Layout.onUnmoved at hl
  split at hl
  · exact some.inj hl ▸ .refl h
  · exact h.onWorkspaceOf hg hl

theorem monitors_setMonitor (l : Layout) (idx : ℕ) (m : Monitor) :
    (l.setMonitor idx m).monitors = l.monitors.set idx m := by
  unfold setMonitor monitors
  cases h : l.monitorSet with
  | normal ms primaryIdx activeMonitorIdx => rfl
  | noOutputs workspaces =>
    dsimp only
    rw [h]
    rfl

theorem onMonitor_eq (hm : l.monitorAt idx = some m) (hm' : f m = some m') :
    l.onMonitor idx f = some (l.setMonitor idx m') := by
  unfold onMonitor
  rw [hm, some_bind, hm']
  rfl

theorem lt_length_of_onMonitor (hl : l.onMonitor idx f = some l') : idx < l'.monitors.length := by
  obtain ⟨m, hm, hl⟩ := of_bind hl
  obtain ⟨m', -, rfl⟩ := of_bind_some hl
  obtain ⟨m₀, hm₀, -⟩ := of_map hm
  rw [monitors_setMonitor, length_set]
  exact lt_length_of_getElem? hm₀

theorem keeps_activateMonitor (h : l.monitorSet.Sound) (hidx : idx < l.monitors.length) :
    Keeps l (l.activateMonitor idx) := by
  unfold activateMonitor
  unfold monitors at hidx
  cases hset : l.monitorSet with
  | normal ms primaryIdx activeMonitorIdx =>
    rw [hset] at h hidx
    exact .of_count ⟨h.1, hidx⟩ rfl fun w => by rw [hset]; rfl
  | noOutputs workspaces => exact .of_eq h rfl rfl

theorem keeps_activateMonitorIf (h : l.monitorSet.Sound) (b : Bool) (hidx : idx < l.monitors.length) :
    Keeps l (l.activateMonitorIf b idx) := by
  unfold activateMonitorIf
  split
  · exact keeps_activateMonitor h hidx
  · exact .of_eq h rfl rfl

theorem keeps_focusOutput (h : l.monitorSet.Sound) (output : Output) : Keeps l (l.focusOutput output) := by
  unfold focusOutput
  split
  · rename_i hfind
    exact keeps_activateMonitor h (findIdx?_eq_some_iff_getElem.mp hfind).1
  · exact .of_eq h rfl rfl

theorem Intact.onFirstMonitor (h : l.Intact) {p : Monitor → Bool}
    (hf : ∀ m m', m.Sound → f m = some m' → Monitor.Changes [] [] m m')
    (hl : l.onFirstMonitor p f = some l') : Keeps l l' := by
  unfold Layout.onFirstMonitor at hl
  split at hl
  · exact some.inj hl ▸ .refl h
  · exact h.onMonitor (fun m m' _ => hf m m') hl

/-! None of these touches the interactive move. -/

theorem interactiveMove_setMonitor (l : Layout) (idx : ℕ) (m : Monitor) :
    (l.setMonitor idx m).interactiveMove = l.interactiveMove := by
  unfold setMonitor
  split
  · rfl
  · rfl

theorem interactiveMove_onMonitor (hl : l.onMonitor idx f = some l') :
    l'.interactiveMove = l.interactiveMove := by
  obtain ⟨m, -, hl⟩ := of_bind hl
  obtain ⟨m', -, hl⟩ := of_bind hl
  exact some.inj hl ▸ interactiveMove_setMonitor l idx m'

theorem interactiveMove_forMonitors (hl : l.forMonitors f = some l') :
    l'.interactiveMove = l.interactiveMove := by
  unfold forMonitors at hl
  split at hl
  · obtain ⟨⟨n', ms'⟩, -, hl⟩ := of_bind hl
    exact some.inj hl ▸ rfl
  · exact some.inj hl ▸ rfl

theorem interactiveMove_forWorkspaces (hl : l.forWorkspaces g = some l') :
    l'.interactiveMove = l.interactiveMove := by
  unfold forWorkspaces at hl
  split at hl
  · exact interactiveMove_forMonitors hl
  · obtain ⟨workspaces, -, rfl⟩ := of_map hl
    rfl

theorem interactiveMove_forWorkspacesIf {b : Bool} (hl : l.forWorkspacesIf b g = some l') :
    l'.interactiveMove = l.interactiveMove := by
  unfold forWorkspacesIf at hl
  split at hl
  · exact interactiveMove_forWorkspaces hl
  · exact some.inj hl ▸ rfl

theorem interactiveMove_onFirstWorkspace {p : Workspace → Bool} (hl : l.onFirstWorkspace p g = some l') :
    l'.interactiveMove = l.interactiveMove := by
  unfold onFirstWorkspace at hl
  split at hl
  · obtain ⟨idx, -, hl⟩ := of_bind hl
    exact interactiveMove_onMonitor hl
  · obtain ⟨idx, -, hl⟩ := of_bind hl
    obtain ⟨ws, -, hl⟩ := of_bind hl
    obtain ⟨ws', -, hl⟩ := of_bind hl
    exact some.inj hl ▸ rfl

/-- Without a moved window, none is counted. -/
theorem movingIds_of_none (h : l.interactiveMove = none) : l.movingIds = [] := by
  unfold movingIds movingTile moving
  rw [h]
  rfl

end Macniri.Layout
