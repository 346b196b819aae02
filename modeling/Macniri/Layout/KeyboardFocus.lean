import Macniri.Layout.MonitorActive
import Macniri.Layout.SoundRun

/-! Keyboard focus: which window has it, and what opening, closing and activating windows does to
it. -/
namespace Macniri.Layout

open Option List

variable {l l' lt : Layout} {m m' : Monitor} {idx w : ℕ} {f : Monitor → Option Monitor}
variable {g : Workspace → Option Workspace}

/-- The window with keyboard focus: the one that is being moved or the active one. -/
def focus (l : Layout) : Option Window :=
  match l.movingTile with
  | some tile => some tile.window
  | none => l.activeMonitor.bind (·.activeWindow)

/-- The active window of the monitor at an index. -/
def activeWindowAt (l : Layout) (idx : ℕ) : Option ℕ := Option.bind l.monitors[idx]? Monitor.activeWindowId

theorem focus_id (hidle : l.moving = none) :
    l.focus.map Window.id = l.activeMonitorIdx.bind l.activeWindowAt := by
  unfold focus movingTile activeMonitor activeWindowAt
  rw [hidle]
  dsimp only [map_none]
  cases l.activeMonitorIdx with
  | none => rfl
  | some idx =>
    simp only [bind_some]
    cases l.monitors[idx]? with
    | none => rfl
    | some m => exact m.activeWindow_id

theorem activeWindowAt_monitorAt (hm : l.monitorAt idx = some m) :
    l.activeWindowAt idx = m.activeWindowId := by
  obtain ⟨w, hw, rfl⟩ := of_map hm
  unfold activeWindowAt
  rw [hw]
  rfl

theorem activeMonitorIdx_setMonitor (l : Layout) (idx : ℕ) (m : Monitor) :
    (l.setMonitor idx m).activeMonitorIdx = l.activeMonitorIdx := by
  unfold setMonitor activeMonitorIdx
  cases h : l.monitorSet with
  | normal ms primaryIdx activeMonitorIdx => rfl
  | noOutputs workspaces =>
    dsimp only
    rw [h]

theorem activeWindowAt_setMonitor (hm : l.monitorAt idx = some m) (m' : Monitor) (i : ℕ) :
    (l.setMonitor idx m').activeWindowAt i =
      if i = idx then m'.activeWindowId else l.activeWindowAt i := by
  obtain ⟨w, hw, rfl⟩ := of_map hm
  unfold activeWindowAt
  rw [monitors_setMonitor]
  split
  · rename_i hi
    rw [hi, getElem?_set_self (lt_length_of_getElem? hw)]
    rfl
  · rename_i hi
    rw [getElem?_set_ne (Ne.symm hi)]

/-- Only the monitor that has the focus matters. -/
theorem focus_setMonitor (hidle : l.moving = none) (hm : l.monitorAt idx = some m)
    (hsame : l.activeMonitorIdx = some idx → m'.activeWindowId = m.activeWindowId) :
    (l.setMonitor idx m').focus.map Window.id = l.focus.map Window.id := by
  have hidle' : (l.setMonitor idx m').moving = none := by
    rw [moving, interactiveMove_setMonitor]
    exact hidle
  rw [focus_id hidle', focus_id hidle, activeMonitorIdx_setMonitor]
  cases hactive : l.activeMonitorIdx with
  | none => rfl
  | some i =>
    simp only [bind_some]
    rw [activeWindowAt_setMonitor hm]
    split
    · rename_i hi
      rw [hi, activeWindowAt_monitorAt hm]
      exact hsame (hactive.trans (congrArg some hi))
    · rfl

theorem focus_onMonitor (hidle : l.moving = none)
    (hf : ∀ m m', l.monitorAt idx = some m → l.activeMonitorIdx = some idx → f m = some m' →
      m'.activeWindowId = m.activeWindowId) (hl : l.onMonitor idx f = some l') :
    l'.focus.map Window.id = l.focus.map Window.id := by
  obtain ⟨m, hm, hl⟩ := of_bind hl
  obtain ⟨m', hm', hl⟩ := of_bind hl
  exact some.inj hl ▸ focus_setMonitor hidle hm fun hactive => hf m m' hm hactive hm'

theorem focus_eq_of_active (hidle : l.moving = none) (hm : l.monitorAt idx = some m)
    (hactive : l.activeMonitorIdx = some idx) : l.focus.map Window.id = m.activeWindowId := by
  rw [focus_id hidle, hactive]
  exact activeWindowAt_monitorAt hm

/-! Closing. -/

theorem focus_removeFromWorkspaces (h : l.Intact) (hidle : l.moving = none)
    (houtputs : l.monitors ≠ []) (hw : l.focus.map Window.id ≠ some w) {r : Option RemovedTile}
    (hl : l.removeFromWorkspaces w = some (r, l')) :
    l'.focus.map Window.id = l.focus.map Window.id := by
  unfold removeFromWorkspaces at hl
  cases hset : l.monitorSet with
  | normal ms primaryIdx activeMonitorIdx =>
    rw [hset] at hl
    dsimp only at hl
    split at hl
    · obtain ⟨-, rfl⟩ := pair_inj hl
      rfl
    · obtain ⟨m, hm, hl⟩ := of_bind hl
      obtain ⟨⟨removed, m'⟩, hm', hl⟩ := of_bind hl
      obtain ⟨-, rfl⟩ := pair_inj hl
      refine focus_setMonitor hidle hm fun hactive => ?_
      rw [focus_eq_of_active hidle hm hactive] at hw
      exact Monitor.activeWindowId_removeWindow (h.monitorAt hm).focused hw hm'
  | noOutputs workspaces => exact absurd (by rw [monitors, hset]) houtputs

theorem focus_activeMonitor (hidle : l.moving = none) :
    l.focus.map Window.id = l.activeMonitor.bind (·.activeWindowId) := by
  rw [focus_id hidle, activeMonitor, bind_assoc]
  rfl

theorem monitors_forMonitors (hl : l.forMonitors f = some l') :
    Forall₂ (fun m m' => ∃ k, f { m with nextId := k } = some m') l.monitors l'.monitors ∧
      l'.activeMonitorIdx = l.activeMonitorIdx := by
  unfold forMonitors at hl
  unfold monitors activeMonitorIdx
  cases hset : l.monitorSet with
  | normal ms primaryIdx activeMonitorIdx =>
    rw [hset] at hl
    obtain ⟨⟨n, ms'⟩, hms, hl⟩ := of_bind hl
    obtain rfl := some.inj hl
    exact ⟨threadMonitors_forall₂ hms, rfl⟩
  | noOutputs workspaces =>
    rw [hset] at hl
    obtain rfl := some.inj hl
    rw [hset]
    exact ⟨.nil, rfl⟩

theorem activeMonitor_forMonitors (hl : l.forMonitors f = some l') (hm : l.activeMonitor = some m) :
    ∃ k m', f { m with nextId := k } = some m' ∧ l'.activeMonitor = some m' := by
  obtain ⟨hall, hidx⟩ := monitors_forMonitors hl
  obtain ⟨i, hi, hm⟩ := of_bind hm
  obtain ⟨m', hm', k, hf⟩ := Forall₂.getElem? hall hm
  exact ⟨k, m', hf, bind_eq_some_iff.mpr ⟨i, hidx.trans hi, hm'⟩⟩

theorem activeMonitor_forMonitors_none (hl : l.forMonitors f = some l') (hm : l.activeMonitor = none) :
    l'.activeMonitor = none := by
  obtain ⟨hall, hidx⟩ := monitors_forMonitors hl
  unfold activeMonitor at hm ⊢
  rw [hidx]
  cases hactive : l.activeMonitorIdx with
  | none => rfl
  | some i =>
    rw [hactive] at hm
    have hlen : l.monitors.length ≤ i := List.getElem?_eq_none_iff.mp hm
    exact getElem?_eq_none (hall.length_eq ▸ hlen)

theorem monitors_forMonitors_ne_nil (hl : l.forMonitors f = some l') (houtputs : l.monitors ≠ []) :
    l'.monitors ≠ [] := by
  intro hnil
  have hall := (monitors_forMonitors hl).1
  rw [hnil] at hall
  exact houtputs (forall₂_nil_right_iff.mp hall)

/-- With outputs, an operation of all workspaces is one of all monitors. -/
theorem forWorkspaces_eq (houtputs : l.monitors ≠ []) (g : Workspace → Option Workspace) :
    l.forWorkspaces g = l.forMonitors (·.forWorkspaces g) := by
  unfold forWorkspaces
  cases hset : l.monitorSet with
  | normal ms primaryIdx activeMonitorIdx => rfl
  | noOutputs workspaces => exact absurd (by rw [monitors, hset]) houtputs

/-- Ending the grab of a window ends a gesture where the focus is. -/
def gestureAtFocus (l : Layout) : Bool :=
  l.activeMonitor.any fun m => (m.workspaceSwitch.bind (·.dndGesture?)).isSome ||
    m.activeWorkspace.any fun ws => ws.scrolling.hasGesture none

theorem unlockView_of_no_gesture {ws ws' : Workspace} (h : ws.scrolling.hasGesture none = false)
    (hw : ws.activeId ≠ some w) (hws : unlockView ws w = some ws') : ws' = ws := by
  have hstays : ws.dndScrollGestureEnd = ws := by
    unfold Workspace.dndScrollGestureEnd ScrollingSpace.dndScrollGestureEnd
    cases hoffset : ws.scrolling.viewOffset with
    | gesture g => simp [ScrollingSpace.hasGesture, hoffset] at h
    | _ => rfl
  have hactive : ws.activeWindow.any (·.id == w) = false := by
    unfold Workspace.activeId at hw
    cases hwindow : ws.activeWindow with
    | none => rfl
    | some window =>
      rw [hwindow] at hw
      exact beq_eq_false_iff_ne.mpr fun heq => hw (congrArg some heq)
  unfold unlockView at hws
  rw [hactive, if_neg Bool.false_ne_true, hstays] at hws
  exact (some.inj hws).symm

theorem cancelMove_spec (houtputs : l.monitors ≠ []) (hl : l.cancelMove w = some l') :
    l'.moving = none ∧ l'.monitors ≠ [] := by
  obtain ⟨lt, hlt, hl⟩ := of_bind hl
  have hmoves := (interactiveMove_forWorkspaces hl).trans (interactiveMove_forMonitors hlt)
  have houtputs' := monitors_forMonitors_ne_nil hlt houtputs
  rw [forWorkspaces_eq houtputs'] at hl
  refine ⟨?_, monitors_forMonitors_ne_nil hl houtputs'⟩
  rw [moving, hmoves]
  rfl

/-- Without such a gesture, ending the grab of another window leaves the focus alone. -/
theorem focus_cancelMove (hidle : l.moving = none) (houtputs : l.monitors ≠ [])
    (hgesture : l.gestureAtFocus = false) (hw : l.focus.map Window.id ≠ some w)
    (hl : l.cancelMove w = some l') : l'.focus.map Window.id = l.focus.map Window.id := by
  have hidle' := (cancelMove_spec houtputs hl).1
  obtain ⟨lt, hlt, hl⟩ := of_bind hl
  rw [forWorkspaces_eq (monitors_forMonitors_ne_nil hlt houtputs)] at hl
  cases hm : l.activeMonitor with
  | none =>
    have hnone := activeMonitor_forMonitors_none hl (activeMonitor_forMonitors_none hlt hm)
    rw [focus_activeMonitor hidle', focus_activeMonitor hidle, hnone, hm]
  | some m =>
    unfold gestureAtFocus at hgesture
    rw [hm] at hgesture
    obtain ⟨hswitch, hview⟩ := Bool.or_eq_false_iff.mp hgesture
    rw [focus_activeMonitor hidle, hm] at hw
    rw [focus_activeMonitor hidle', focus_activeMonitor hidle, hm]
    obtain ⟨k, mt, hmt, hactive⟩ := activeMonitor_forMonitors hlt hm
    have hmt : mt = { m with nextId := k } := by
      unfold Monitor.dndScrollGestureEnd at hmt
      rw [if_neg (by rw [hswitch]; exact Bool.false_ne_true)] at hmt
      exact (some.inj hmt).symm
    obtain ⟨k', m', hm', hactive'⟩ := activeMonitor_forMonitors hl hactive
    obtain ⟨workspaces, hws, rfl⟩ := of_map hm'
    have hall := mapM_forall₂ hws
    rw [hactive', hmt]
    simp only [bind_some]
    simp only [bind_some, Monitor.activeWindowId, Monitor.activeWorkspace] at hw
    rw [hmt] at hall
    unfold Monitor.activeWindowId Monitor.activeWorkspace
    dsimp only
    cases hold : m.workspaces[m.activeWorkspaceIdx]? with
    | none =>
      have hlen := hall.length_eq
      rw [List.getElem?_eq_none_iff] at hold
      rw [getElem?_eq_none (hlen ▸ hold)]
    | some ws =>
      obtain ⟨ws', hws', hunlock⟩ := Forall₂.getElem? hall hold
      unfold Monitor.activeWorkspace at hview
      rw [hold] at hview hw
      rw [hws', unlockView_of_no_gesture hview hw hunlock]

/-- Closing a window that does not have the focus leaves the focus alone, unless the window is
grabbed while a gesture goes on. -/
theorem focus_removeWindow (h : l.Intact) (hidle : l.moving = none) (houtputs : l.monitors ≠ [])
    (hw : l.focus.map Window.id ≠ some w)
    (hgrab : (∃ delta, l.interactiveMove = some (.starting w delta)) → l.gestureAtFocus = false)
    {r : Option RemovedTile} (hl : l.removeWindow w = some (r, l')) :
    l'.focus.map Window.id = l.focus.map Window.id := by
  unfold removeWindow at hl
  cases hmove : l.interactiveMove with
  | none =>
    rw [hmove] at hl
    exact focus_removeFromWorkspaces h hidle houtputs hw hl
  | some move =>
    rw [hmove] at hl
    cases move with
    | starting windowId delta =>
      dsimp only at hl
      split at hl
      · rename_i hsame
        subst hsame
        obtain ⟨lt, hlt, hl⟩ := of_bind hl
        have hsound := (keeps_cancelMove h (movingIds_of_starting hmove) hlt).sound_of_removed h
        obtain ⟨hidle', houtputs'⟩ := cancelMove_spec houtputs hlt
        have hended := focus_cancelMove hidle houtputs (hgrab ⟨delta, hmove⟩) hw hlt
        exact (focus_removeFromWorkspaces hsound hidle' houtputs' (hended ▸ hw) hl).trans hended
      · exact focus_removeFromWorkspaces h hidle houtputs hw hl
    | moving d =>
      rw [moving, hmove] at hidle
      cases hidle

/-! Opening. -/

theorem focus_addWindow_no (h : l.Intact) (hidle : l.moving = none) (houtputs : l.monitors ≠ [])
    (hsome : l.focus ≠ none) {window : Window} (hfresh : window.id ∉ l.windowIds)
    {target : AddWindowTarget} {opening : WindowOpening} (hno : opening.activate = .no)
    (hl : l.addWindow window target opening = some l') :
    l'.focus.map Window.id = l.focus.map Window.id := by
  unfold addWindow at hl
  cases hset : l.monitorSet with
  | normal ms primaryIdx activeMonitorIdx =>
    rw [hset] at hl
    obtain ⟨⟨idx, target'⟩, -, hl⟩ := of_bind hl
    obtain ⟨lt, hlt, rfl⟩ := of_bind_some hl
    have hstays : lt.activateMonitorIf (opening.activate.mapSmart false) idx = lt := by
      rw [hno]
      rfl
    rw [hstays]
    refine focus_onMonitor hidle (fun m m' hm hactive hm' => ?_) hlt
    have hwindow : m.activeWindowId ≠ none := by
      rw [← focus_eq_of_active hidle hm hactive, Ne, map_eq_none_iff]
      exact hsome
    exact Monitor.activeWindowId_openWindow_no (h.monitorAt hm).focused hwindow
      (fun hmem => hfresh (mem_windowIds_of_monitorAt hm hmem)) hno hm'
  | noOutputs workspaces => exact absurd (by rw [monitors, hset]) houtputs

/-! Activating. -/

theorem activeMonitorIdx_activateMonitor (h : l.activeMonitorIdx.isSome) (idx : ℕ) :
    (l.activateMonitor idx).activeMonitorIdx = some idx := by
  unfold activeMonitorIdx at h
  unfold activateMonitor activeMonitorIdx
  cases hset : l.monitorSet with
  | normal ms primaryIdx activeMonitorIdx => rfl
  | noOutputs workspaces =>
    rw [hset] at h
    cases h

theorem monitors_activateMonitor (l : Layout) (idx : ℕ) : (l.activateMonitor idx).monitors = l.monitors := by
  unfold activateMonitor monitors
  cases hset : l.monitorSet with
  | normal ms primaryIdx activeMonitorIdx => rfl
  | noOutputs workspaces =>
    dsimp only
    rw [hset]

theorem activeMonitorIdx_isSome (houtputs : l.monitors ≠ []) : l.activeMonitorIdx.isSome := by
  unfold activeMonitorIdx
  cases hset : l.monitorSet with
  | normal ms primaryIdx activeMonitorIdx => rfl
  | noOutputs workspaces => exact absurd (by rw [monitors, hset]) houtputs

/-- After an operation of a monitor that is activated, its active window has the focus. -/
theorem focus_activated (hidle : l.moving = none) (houtputs : l.monitors ≠ [])
    (hf : ∀ m m', l.monitorAt idx = some m → f m = some m' → m'.activeWindowId = some w)
    (hl : l.onMonitor idx f = some l') :
    (l'.activateMonitor idx).focus.map Window.id = some w := by
  have hmoves : (l'.activateMonitor idx).interactiveMove = l.interactiveMove := by
    refine Eq.trans ?_ (interactiveMove_onMonitor hl)
    unfold activateMonitor
    split <;> rfl
  have hidle' : (l'.activateMonitor idx).moving = none := by rwa [moving, hmoves]
  obtain ⟨m, hm, hl⟩ := of_bind hl
  obtain ⟨m', hm', rfl⟩ := of_bind_some hl
  have hsome : (l.setMonitor idx m').activeMonitorIdx.isSome := by
    rw [activeMonitorIdx_setMonitor]
    exact activeMonitorIdx_isSome houtputs
  rw [focus_id hidle', activeMonitorIdx_activateMonitor hsome, bind_some]
  unfold activeWindowAt
  rw [monitors_activateMonitor]
  have hat := activeWindowAt_setMonitor hm m' idx
  rw [if_pos rfl] at hat
  exact hat.trans (hf m m' hm hm')

theorem focus_addWindow_yes (h : l.Intact) (hidle : l.moving = none) (houtputs : l.monitors ≠ [])
    {window : Window} (hfresh : window.id ∉ l.windowIds) {target : AddWindowTarget}
    {opening : WindowOpening} (hyes : opening.activate = .yes)
    (hl : l.addWindow window target opening = some l') :
    l'.focus.map Window.id = some window.id := by
  unfold addWindow at hl
  cases hset : l.monitorSet with
  | normal ms primaryIdx activeMonitorIdx =>
    rw [hset] at hl
    obtain ⟨⟨idx, target'⟩, -, hl⟩ := of_bind hl
    obtain ⟨lt, hlt, rfl⟩ := of_bind_some hl
    have hactivates : lt.activateMonitorIf (opening.activate.mapSmart false) idx =
        lt.activateMonitor idx := by
      rw [hyes]
      rfl
    rw [hactivates]
    refine focus_activated hidle houtputs (fun m m' hm hm' => ?_) hlt
    exact Monitor.activeWindowId_openWindow_yes (h.monitorAt hm).focused
      (fun hmem => hfresh (mem_windowIds_of_monitorAt hm hmem)) hyes hm'
  | noOutputs workspaces => exact absurd (by rw [monitors, hset]) houtputs

theorem focus_activateWindow (h : l.Intact) (hidle : l.moving = none)
    (hswitch : ∀ m ∈ l.monitors, ∀ g, m.workspaceSwitch ≠ some (.gesture g))
    (hw : ∃ m ∈ l.monitors, m.hasWindow w = true) (hl : l.activateWindow w = some l') :
    l'.focus.map Window.id = some w := by
  obtain ⟨m₀, hm₀, hthere⟩ := hw
  unfold activateWindow showWindow at hl
  have hother : l.isMoving w = false := by
    unfold isMoving movingTile
    rw [hidle]
    rfl
  rw [hother, if_neg Bool.false_ne_true] at hl
  split at hl
  · rename_i hnone
    exact absurd hthere (by simpa using findIdx?_eq_none_iff.mp hnone m₀ hm₀)
  · obtain ⟨lt, hlt, rfl⟩ := of_bind_some hl
    refine focus_activated hidle (ne_nil_of_mem hm₀) (fun m m' hm hm' => ?_) hlt
    obtain ⟨i, hi, hm'⟩ := of_bind hm'
    obtain ⟨mt, hmt, hm'⟩ := of_bind hm'
    refine Monitor.activeWindowId_activate (h.monitorAt hm).focused ?_ hi hmt hm'
    obtain ⟨m₁, hm₁, rfl⟩ := of_map hm
    exact hswitch m₁ (mem_of_getElem? hm₁)

/-- A window that is present while none is moved is on a monitor. -/
theorem exists_monitor_of_mem (hidle : l.moving = none) (houtputs : l.monitors ≠ [])
    (hw : w ∈ l.windowIds) : ∃ m ∈ l.monitors, m.hasWindow w = true := by
  have hnone : l.movingIds = [] := by
    unfold movingIds movingTile
    rw [hidle]
    rfl
  have hmem : w ∈ l.workspaces.flatMap (·.windowIds) := by
    rcases mem_append.mp hw with hmem | hmem
    · rw [movingIds] at hnone
      rw [hnone] at hmem
      cases hmem
    · exact hmem
  cases hset : l.monitorSet with
  | normal ms primaryIdx activeMonitorIdx =>
    have hms : l.monitors = ms := by rw [monitors, hset]
    rw [hms]
    exact (mem_workspaces_iff hset).mp hmem
  | noOutputs workspaces => exact absurd (by rw [monitors, hset]) houtputs

/-- A window that is opened and activated, or activated later, has the focus. -/
theorem focus_given {clock : ℚ} {config : Config} {ops : List LayoutOp}
    (hfair : AllAlong apply (fun l op => op.Fair l) (new clock config) ops)
    (hl : run apply (new clock config) ops = some l) (houtputs : l.monitors ≠ [])
    (hidle : l.moving = none)
    (hswitch : ∀ m ∈ l.monitors, ∀ g, m.workspaceSwitch ≠ some (.gesture g)) :
    (∀ window target opening l', opening.activate = .yes → window.id ∉ l.windowIds →
      l.addWindow window target opening = some l' → l'.focus.map Window.id = some window.id) ∧
    (∀ w l', w ∈ l.windowIds → l.activateWindow w = some l' → l'.focus.map Window.id = some w) := by
  have hsound := sound_run hfair hl
  exact ⟨fun window target opening l' hyes hfresh hl' =>
      focus_addWindow_yes hsound hidle houtputs hfresh hyes hl',
    fun w l' hw hl' => focus_activateWindow hsound hidle hswitch
      (exists_monitor_of_mem hidle houtputs hw) hl'⟩

/-- A window is opened on a workspace of its own each. -/
def apart : List LayoutOp :=
  [.output (.addOutput Monitor.testOutput none), opensWindow 1 .auto false,
    .activeMonitor .switchWorkspaceDown, opensWindow 2 .auto false]

theorem focus_given_apart : ∃ l l', run apply (new 0 ⟨[], .default⟩) apart = some l ∧
    l.activateWindow 1 = some l' ∧ l'.focus.map Window.id = some 1 := by
  have hrun : (run apply (new 0 ⟨[], .default⟩) apart).any (fun l => l.monitors.all (!·.hasGesture none) &&
      !l.monitors.isEmpty && l.moving.isNone && l.windowIds.contains 1 &&
      (l.activateWindow 1).isSome) = true := by decide +kernel
  obtain ⟨l, hl, hall⟩ := (Option.any_eq_true _ _).mp hrun
  obtain ⟨hall, hactivate⟩ := Bool.and_eq_true_iff.mp hall
  obtain ⟨hall, hthere⟩ := Bool.and_eq_true_iff.mp hall
  obtain ⟨hall, hidle⟩ := Bool.and_eq_true_iff.mp hall
  obtain ⟨hswitch, houtputs⟩ := Bool.and_eq_true_iff.mp hall
  obtain ⟨l', hl'⟩ := isSome_iff_exists.mp hactivate
  have hgiven := (focus_given
    (allAlong_of_decide (by decide +kernel)) hl (fun hnil => by simp [hnil] at houtputs)
    (isNone_iff_eq_none.mp hidle) (fun m hm g hg => by
      have hnone := List.all_eq_true.mp hswitch m hm
      simp [Monitor.hasGesture, hg] at hnone)).2
  exact ⟨l, l', hl, hl', hgiven 1 l' (by simpa using hthere) hl'⟩

/-- What opening and closing other windows does to the focus, in every state that is reached. The
grab of a window that is closed ends first, and with it a gesture. -/
theorem focus_stays {clock : ℚ} {config : Config} {ops : List LayoutOp}
    (hfair : AllAlong apply (fun l op => op.Fair l) (new clock config) ops)
    (hl : run apply (new clock config) ops = some l) (houtputs : l.monitors ≠ [])
    (hidle : l.moving = none) :
    (∀ w r l', l.focus.map Window.id ≠ some w →
      ((∃ delta, l.interactiveMove = some (.starting w delta)) → l.gestureAtFocus = false) →
      l.removeWindow w = some (r, l') → l'.focus.map Window.id = l.focus.map Window.id) ∧
    (∀ w delta drop r l', l.interactiveMove = some (.starting w delta) →
      l.removeWindow w = some (r, l') → ∃ lt, l.interactiveMoveEnd w drop = some lt ∧
        (lt.focus.map Window.id ≠ some w → l'.focus.map Window.id = lt.focus.map Window.id)) ∧
    (∀ window target opening l', opening.activate = .no → window.id ∉ l.windowIds → l.focus ≠ none →
      l.addWindow window target opening = some l' →
      l'.focus.map Window.id = l.focus.map Window.id) := by
  have hsound := sound_run hfair hl
  refine ⟨fun w r l' hw hgrab hl' => focus_removeWindow hsound hidle houtputs hw hgrab hl',
    fun w delta drop r l' hmove hl' => ?_, fun window target opening l' hno hfresh hsome hl' =>
      focus_addWindow_no hsound hidle houtputs hsome hfresh hno hl'⟩
  unfold removeWindow at hl'
  rw [hmove] at hl'
  dsimp only at hl'
  rw [if_pos rfl] at hl'
  obtain ⟨lt, hlt, hl'⟩ := of_bind hl'
  refine ⟨lt, ?_, fun hw => ?_⟩
  · unfold interactiveMoveEnd
    rw [hmove]
    exact (if_pos rfl).trans hlt
  · obtain ⟨hidle', houtputs'⟩ := cancelMove_spec houtputs hlt
    exact focus_removeFromWorkspaces
      ((keeps_cancelMove hsound (movingIds_of_starting hmove) hlt).sound_of_removed hsound)
      hidle' houtputs' hw hl'

theorem focus_stays_apart : ∃ l r l', run apply (new 0 ⟨[], .default⟩) apart = some l ∧
    l.focus.map Window.id = some 2 ∧ l.removeWindow 1 = some (r, l') ∧
    l'.focus.map Window.id = some 2 := by
  have hrun : (run apply (new 0 ⟨[], .default⟩) apart).any (fun l => l.focus.map Window.id == some 2 &&
      !l.monitors.isEmpty && l.interactiveMove.isNone && (l.removeWindow 1).isSome) = true := by
    decide +kernel
  obtain ⟨l, hl, hall⟩ := (Option.any_eq_true _ _).mp hrun
  obtain ⟨hall, hremove⟩ := Bool.and_eq_true_iff.mp hall
  obtain ⟨hall, hmove⟩ := Bool.and_eq_true_iff.mp hall
  obtain ⟨hfocus, houtputs⟩ := Bool.and_eq_true_iff.mp hall
  have hfocus := beq_iff_eq.mp hfocus
  have hmove := isNone_iff_eq_none.mp hmove
  obtain ⟨⟨r, l'⟩, hl'⟩ := isSome_iff_exists.mp hremove
  have hstays := (focus_stays (allAlong_of_decide (by decide +kernel)) hl
    (fun hnil => by simp [hnil] at houtputs) (by rw [moving, hmove]; rfl)).1
  refine ⟨l, r, l', hl, hfocus, hl', ?_⟩
  rw [← hfocus]
  refine hstays 1 r l' (by rw [hfocus]; decide) (fun ⟨delta, hstart⟩ => ?_) hl'
  rw [hmove] at hstart
  cases hstart

/-- The overview is opened while the workspace switches, and a window is grabbed there. -/
def grabbed : List LayoutOp :=
  apart ++ [.progress .openOverview,
    .layoutWindow (.interactiveMoveBegin 1 Monitor.testOutput true)]

/-- The grabbed window is closed: the workspace switches back, and the focus goes away. -/
theorem focus_lost_by_grab : ∃ l r l', run apply (new 0 ⟨[], .default⟩) grabbed = some l ∧
    AllAlong apply (fun l op => op.Fair l) (new 0 ⟨[], .default⟩) grabbed ∧ l.monitors ≠ [] ∧
    l.moving = none ∧ l.focus.map Window.id = some 2 ∧ l.removeWindow 1 = some (r, l') ∧
    l'.focus = none := by
  have hrun : (run apply (new 0 ⟨[], .default⟩) grabbed).any (fun l => l.focus.map Window.id == some 2 &&
      !l.monitors.isEmpty && l.moving.isNone &&
      (l.removeWindow 1).any fun r => r.2.focus.isNone) = true := by decide +kernel
  obtain ⟨l, hl, hall⟩ := (Option.any_eq_true _ _).mp hrun
  obtain ⟨hall, hremove⟩ := Bool.and_eq_true_iff.mp hall
  obtain ⟨hall, hidle⟩ := Bool.and_eq_true_iff.mp hall
  obtain ⟨hfocus, houtputs⟩ := Bool.and_eq_true_iff.mp hall
  obtain ⟨⟨r, l'⟩, hr, hnone⟩ := (Option.any_eq_true _ _).mp hremove
  exact ⟨l, r, l', hl,
    allAlong_of_decide (by decide +kernel),
    fun hnil => by simp [hnil] at houtputs, isNone_iff_eq_none.mp hidle, beq_iff_eq.mp hfocus, hr,
    isNone_iff_eq_none.mp hnone⟩

end Macniri.Layout
