import Macniri.Ipc.Windows
import Macniri.Ipc.Workspaces
import Macniri.Lib.SwapRemove

/-! The IPC server and its event stream clients, under any interleaving. -/
namespace Macniri.Ipc

open Option List HashMap

def eventStreamBufferSize : ℕ := 64

/-- A registered client: its bounded channel, and what its task has taken from it.
`burst` and `joined` only observe: the initial events, and how many events had
been broadcast when the client was registered. -/
structure EventStreamSender where
  queue : List Event
  received : List Event
  closed : Bool
  burst : List Event
  joined : ℕ

/-- Everything queued for this client so far. -/
def EventStreamSender.queued (c : EventStreamSender) : List Event := c.received ++ c.queue

/-- `log` only observes: every event broadcast so far. -/
structure IpcServer where
  eventStreams : List EventStreamSender
  eventStreamState : EventStreamState
  log : List Event

/-- `Sender::try_send`; the flag is `false` for `Closed` and for `Full`. -/
def EventStreamSender.trySend (c : EventStreamSender) (event : Event) :
    EventStreamSender × Bool :=
  if c.closed then (c, false)
  else if c.queue.length ≥ eventStreamBufferSize then (c, false)
  else ({ c with queue := c.queue ++ [event] }, true)

def IpcServer.sendEvent (server : IpcServer) (event : Event) : IpcServer :=
  let streams := server.eventStreams.map fun stream => (stream.trySend event).1
  let toRemove := indicesOf (fun stream => !(stream.trySend event).2) server.eventStreams
  { server with
    eventStreams := toRemove.reverse.foldl swapRemove streams
    log := server.log ++ [event] }

/-- The initial burst into a fresh channel; `none` if it does not fit. -/
def sendBurst (c : EventStreamSender) : List Event → Option EventStreamSender
  | [] => some c
  | event :: events =>
    match c.trySend event with
    | (c, true) => sendBurst c events
    | (_, false) => none

/-- The event stream branch of `handle_client`: no other task runs in between. -/
def IpcServer.connect (ord : IterOrder) (server : IpcServer) : Option IpcServer := do
  let burst := server.eventStreamState.replicate ord
  let sender ← sendBurst ⟨[], [], false, burst, server.log.length⟩ burst
  some { server with eventStreams := server.eventStreams ++ [sender] }

/-- Apply one event to a part of the state, then send it to everyone. -/
def IpcServer.emit (apply : EventStreamState → Event → Option EventStreamState)
    (server : IpcServer) (event : Event) : Option IpcServer := do
  let st ← apply server.eventStreamState event
  some ({ server with eventStreamState := st }.sendEvent event)

def applyWorkspaces (st : EventStreamState) (event : Event) : Option EventStreamState :=
  (st.workspaces.apply event).map fun r => { st with workspaces := r.1 }

def applyWindows (ord : IterOrder) (st : EventStreamState) (event : Event) :
    Option EventStreamState :=
  (st.windows.apply ord event).map fun r => { st with windows := r.1 }

def applyKeyboardLayouts (st : EventStreamState) (event : Event) : Option EventStreamState :=
  (st.keyboardLayouts.apply event).map fun r => { st with keyboardLayouts := r.1 }

def applyOverview (st : EventStreamState) (event : Event) : Option EventStreamState :=
  some { st with overview := (st.overview.apply event).1 }

/-- The whole state, as `ipc_config_loaded` and `ipc_screenshot_taken` use it. -/
def applyState (ord : IterOrder) (st : EventStreamState) (event : Event) :
    Option EventStreamState :=
  (st.apply ord event).map Prod.fst

inductive Action where
  | connect (ord : IterOrder)
  | recv (idx : ℕ)
  | close (idx : ℕ)
  | refreshWorkspaces (layout : LayoutView)
  | refreshWindows (ord : IterOrder) (views : List WindowView)
  | refreshOverview (isOpen : Bool)
  | keyboardLayoutsChanged (keyboardLayouts : KeyboardLayouts)
  | refreshKeyboardLayoutIndex (idx : ℕ)
  | configLoaded (ord : IterOrder) (failed : Bool)
  | screenshotTaken (ord : IterOrder) (path : Option String)

/-- A client task takes the next event from its channel, if there is one. -/
def EventStreamSender.recv (c : EventStreamSender) : EventStreamSender :=
  match c.queue with
  | event :: queue =>
    if c.closed then c else { c with queue := queue, received := c.received ++ [event] }
  | [] => c

/-- One turn of the event loop; `none` is a panic of the server. -/
def IpcServer.step (server : IpcServer) : Action → Option IpcServer
  | .connect ord => server.connect ord
  | .recv idx =>
    some { server with eventStreams := server.eventStreams.modify idx EventStreamSender.recv }
  | .close idx =>
    some { server with
      eventStreams := server.eventStreams.modify idx fun c => { c with closed := true } }
  | .refreshWorkspaces layout =>
    run (IpcServer.emit applyWorkspaces) server
      (refreshWorkspacesEvents server.eventStreamState.workspaces layout)
  | .refreshWindows ord views =>
    run (IpcServer.emit (applyWindows ord)) server
      (refreshWindowsEvents ord server.eventStreamState.windows views)
  | .refreshOverview isOpen =>
    if server.eventStreamState.overview.isOpen = isOpen then some server
    else server.emit applyOverview (.overviewOpenedOrClosed isOpen)
  | .keyboardLayoutsChanged keyboardLayouts =>
    server.emit applyKeyboardLayouts (.keyboardLayoutsChanged keyboardLayouts)
  | .refreshKeyboardLayoutIndex idx => do
    let kb ← server.eventStreamState.keyboardLayouts.keyboardLayouts
    if kb.currentIdx = idx then some server
    else server.emit applyKeyboardLayouts (.keyboardLayoutSwitched idx)
  | .configLoaded ord failed => server.emit (applyState ord) (.configLoaded failed)
  | .screenshotTaken ord path => server.emit (applyState ord) (.screenshotCaptured path)

/-- The server once `State::new` has reported the keyboard layouts. -/
def IpcServer.initial (keyboardLayouts : KeyboardLayouts) : IpcServer where
  eventStreams := []
  eventStreamState := { EventStreamState.default with keyboardLayouts := ⟨some keyboardLayouts⟩ }
  log := []

/-- Keys are ids in both maps. -/
structure EventStreamState.WellFormed (st : EventStreamState) : Prop where
  workspaces : HashMap.KeyedBy Workspace.id st.workspaces.workspaces
  windows : HashMap.KeyedBy Window.id st.windows.windows

section Apply

variable {st st' : EventStreamState} {event : Event} {ord ord' : IterOrder}

def Event.isWorkspace : Event → Bool
  | .workspacesChanged _ | .workspaceUrgencyChanged _ _ | .workspaceActivated _ _
  | .workspaceActiveWindowChanged _ _ => true
  | _ => false

def Event.isWindow : Event → Bool
  | .windowsChanged _ | .windowOpenedOrChanged _ | .windowClosed _ | .windowFocusChanged _
  | .windowFocusTimestampChanged _ _ | .windowUrgencyChanged _ _ | .windowLayoutsChanged _ => true
  | _ => false

/-- A client taking `event` ends in the same well-formed state as the server. -/
def Replays (st : EventStreamState) (event : Event) (st' : EventStreamState) : Prop :=
  st'.WellFormed ∧ ∀ ord, (st.apply ord event).map Prod.fst = some st'

theorem keyedBy_workspaces_apply {ws : WorkspacesState} {r : WorkspacesState × Option Event}
    (h : HashMap.KeyedBy Workspace.id ws.workspaces) (hr : ws.apply event = some r) :
    HashMap.KeyedBy Workspace.id r.1.workspaces := by
  cases event <;> simp only [WorkspacesState.apply, bind_eq_bind, some.injEq,
    bind_eq_some_iff] at hr
  case workspacesChanged => exact hr ▸ keyedBy_collect
  case workspaceUrgencyChanged =>
    subst hr
    exact h.mapValues fun v => by split <;> rfl
  case workspaceActivated =>
    obtain ⟨ws, -, rfl⟩ := hr
    exact h.mapValues fun v => rfl
  case workspaceActiveWindowChanged =>
    obtain ⟨ws, hws, rfl⟩ := hr
    have hid := h _ _ hws
    exact h.insert hid
  all_goals exact hr ▸ h

theorem keyedBy_changeLayouts {changes : List (ℕ × WindowLayout)} {w w' : WindowsState}
    (h : HashMap.KeyedBy Window.id w.windows) (hr : w.changeLayouts changes = some w') :
    HashMap.KeyedBy Window.id w'.windows := by
  induction changes generalizing w with
  | nil => exact some.inj hr ▸ h
  | cons c changes ih =>
    obtain ⟨win, hwin, hr⟩ := of_bind hr
    have hid := h _ _ hwin
    exact ih (w := ⟨w.windows.insert c.1 { win with layout := c.2 }⟩) (h.insert hid) hr

theorem keyedBy_windows_apply {w : WindowsState} {r : WindowsState × Option Event}
    (h : HashMap.KeyedBy Window.id w.windows) (hr : w.apply ord event = some r) :
    HashMap.KeyedBy Window.id r.1.windows := by
  cases event <;> simp only [WindowsState.apply, bind_eq_bind, some.injEq,
    bind_eq_some_iff] at hr
  case windowsChanged => exact hr ▸ keyedBy_collect
  case windowOpenedOrChanged window =>
    have hi : HashMap.KeyedBy Window.id (w.windows.insert window.id window) := h.insert rfl
    split at hr
    · cases hr
      exact hi.mapValues fun v => by split <;> rfl
    · cases hr
      exact hi
  case windowClosed =>
    obtain ⟨_, -, rfl⟩ := hr
    exact h.remove
  case windowFocusChanged =>
    subst hr
    exact h.mapValues fun v => rfl
  case windowFocusTimestampChanged =>
    rw [updateFirst_eq h] at hr
    subst hr
    exact h.mapValues fun v => by split <;> rfl
  case windowUrgencyChanged =>
    rw [updateFirst_eq h] at hr
    subst hr
    exact h.mapValues fun v => by split <;> rfl
  case windowLayoutsChanged =>
    obtain ⟨w', hw', rfl⟩ := hr
    exact keyedBy_changeLayouts h hw'
  all_goals exact hr ▸ h

/-- The iteration order decides nothing once every window sits under its id. -/
theorem windows_apply_order (ord ord' : IterOrder) {w : WindowsState}
    (h : HashMap.KeyedBy Window.id w.windows) : w.apply ord event = w.apply ord' event := by
  cases event <;> simp only [WindowsState.apply, updateFirst_eq h]

theorem replays_workspaces (h : st.WellFormed) (he : event.isWorkspace)
    (ha : applyWorkspaces st event = some st') : Replays st event st' := by
  obtain ⟨r, hr, rfl⟩ := of_map ha
  refine ⟨⟨keyedBy_workspaces_apply h.workspaces hr, h.windows⟩, ?_⟩
  intro ord
  have hnone : r.2 = none := by
    cases event <;> simp [Event.isWorkspace] at he <;>
      simp only [WorkspacesState.apply, bind_eq_bind, some.injEq,
        bind_eq_some_iff] at hr
    case workspacesChanged | workspaceUrgencyChanged => exact hr ▸ rfl
    all_goals
      obtain ⟨_, -, rfl⟩ := hr
      rfl
  obtain ⟨w, rest⟩ := r
  simp only at hnone
  subst hnone
  simp [EventStreamState.apply, hr]

theorem replays_windows (h : st.WellFormed) (he : event.isWindow)
    (ha : applyWindows ord st event = some st') : Replays st event st' := by
  obtain ⟨r, hr, rfl⟩ := of_map ha
  refine ⟨⟨h.workspaces, keyedBy_windows_apply h.windows hr⟩, ?_⟩
  intro ord'
  rw [windows_apply_order ord ord' h.windows] at hr
  have hnone : r.2 = none := by
    cases event <;> simp [Event.isWindow] at he <;>
      simp only [WindowsState.apply, bind_eq_bind, some.injEq,
        bind_eq_some_iff] at hr
    case windowOpenedOrChanged => split at hr <;> exact some.inj hr ▸ rfl
    case windowClosed | windowLayoutsChanged =>
      obtain ⟨_, -, rfl⟩ := hr
      rfl
    all_goals exact hr ▸ rfl
  obtain ⟨w, rest⟩ := r
  simp only at hnone
  subst hnone
  have hpass : st.workspaces.apply event = some (st.workspaces, some event) := by
    cases event <;> simp [Event.isWindow] at he <;> rfl
  simp [EventStreamState.apply, hpass, hr]

end Apply

section NoPanic

variable {ord : IterOrder} {views : List WindowView}

def SameKeys {V : Type} (m m' : HashMap ℕ V) : Prop := ∀ k, (m.get k).isSome = (m'.get k).isSome

/-- Individual workspace events only name workspaces the old map has, and keep them. -/
theorem workspaceEvents_total {old cur : HashMap ℕ Workspace} {ipcWs new : Workspace}
    (hs : SameKeys cur old) (hi : old.get new.id = some ipcWs) :
    ∃ m, applyAll WorkspacesState.apply ⟨cur⟩ (workspaceEvents ipcWs new) = some ⟨m⟩ ∧
      SameKeys m old := by
  have hstep : ∀ cur : HashMap ℕ Workspace, SameKeys cur old → ∀ e ∈ workspaceEvents ipcWs new,
      ∃ m, (WorkspacesState.apply ⟨cur⟩ e).map Prod.fst = some ⟨m⟩ ∧ SameKeys m old := by
    intro cur hs e he
    obtain ⟨w, hw⟩ := isSome_iff_exists.mp ((hs new.id).trans (by simp [hi]))
    have hcases : e = .workspaceActiveWindowChanged new.id new.activeWindowId ∨
        e = .workspaceUrgencyChanged new.id new.isUrgent ∨
        e = .workspaceActivated new.id true ∨ e = .workspaceActivated new.id false := by
      simp only [workspaceEvents, mem_append] at he
      grind
    rcases hcases with rfl | rfl | rfl | rfl
    · refine ⟨cur.insert new.id { w with activeWindowId := new.activeWindowId },
        by simp [WorkspacesState.apply, hw], ?_⟩
      intro k
      rw [get_insert, ← hs k]
      by_cases hk : k = new.id
      · subst hk
        simp [hw]
      · simp [hk]
    all_goals
      refine ⟨_, by simp only [WorkspacesState.apply, hw, some_bind, map_some]; rfl, ?_⟩
      intro k
      simp [← hs k]
  obtain ⟨⟨m⟩, hm, hsm⟩ : ∃ t, applyAll WorkspacesState.apply ⟨cur⟩ (workspaceEvents ipcWs new) =
      some t ∧ SameKeys t.workspaces old :=
    run_total (P := (· ∈ workspaceEvents ipcWs new)) (fun st e h he => by
      obtain ⟨m, hm, hsm⟩ := hstep st.workspaces h e he
      exact ⟨⟨m⟩, hm, hsm⟩) hs (fun _ h => h)
  exact ⟨m, hm, hsm⟩

theorem incrementalEvents_total {old cur : HashMap ℕ Workspace} {news : List Workspace}
    {events : List Event} (hs : SameKeys cur old) (he : incrementalEvents old news = some events) :
    ∃ st, applyAll WorkspacesState.apply ⟨cur⟩ events = some st := by
  induction news generalizing cur events with
  | nil =>
    cases he
    exact ⟨_, rfl⟩
  | cons new news ih =>
    unfold incrementalEvents at he
    split at he
    · cases he
    · rename_i ipcWs hi
      split at he
      · cases he
      · obtain ⟨tail, htail, rfl⟩ := of_map he
        obtain ⟨m, hm, hsm⟩ := workspaceEvents_total hs hi
        obtain ⟨st, hst⟩ := ih hsm htail
        exact ⟨st, by rw [applyAll_append, hm, bind_some, hst]⟩

/-- No layout, however it relates to the old map, makes `apply` miss a workspace. -/
theorem refreshWorkspaces_total (old : WorkspacesState) (layout : LayoutView) :
    ∃ st, refreshWorkspaces old layout = some st := by
  unfold refreshWorkspaces refreshWorkspacesEvents
  cases he : incrementalEvents old.workspaces layout.ipcWorkspaces with
  | none => exact ⟨_, rfl⟩
  | some events =>
    simp only
    split_ifs
    · exact ⟨_, rfl⟩
    · exact incrementalEvents_total (fun _ => rfl) he

def HasKeys {V : Type} (m old : HashMap ℕ V) : Prop := ∀ k v, old.get k = some v →
  ∃ w, m.get k = some w

theorem HasKeys.mapValues {V : Type} {m old : HashMap ℕ V} {f : V → V} (h : HasKeys m old) :
    HasKeys (m.mapValues f) old := by
  intro k v hv
  obtain ⟨w, hw⟩ := h k v hv
  exact ⟨f w, by simp [hw]⟩

theorem HasKeys.insert {V : Type} {m old : HashMap ℕ V} {k : ℕ} {v : V} (h : HasKeys m old) :
    HasKeys (m.insert k v) old := by
  intro k' v' hv
  obtain ⟨w, hw⟩ := h k' v' hv
  by_cases hk : k' = k
  · exact ⟨v, by simp [hk]⟩
  · exact ⟨w, by simp [hk, hw]⟩

theorem HasKeys.updateFirst {m old : HashMap ℕ Window} {id : ℕ} {f : Window → Window}
    (h : HasKeys m old) :
    HasKeys (WindowsState.updateFirst ord ⟨m⟩ id f).windows old := by
  unfold WindowsState.updateFirst
  split
  · exact h.insert
  · exact h

theorem windowEvents_total (ord : IterOrder) (views : List WindowView) {old cur : HashMap ℕ Window}
    (h : HasKeys cur old) :
    ∃ m, applyAll (WindowsState.apply ord) ⟨cur⟩ (views.flatMap (windowEvents old)) = some ⟨m⟩ ∧
      HasKeys m old := by
  have hstep : ∀ cur : HashMap ℕ Window, HasKeys cur old →
      ∀ e ∈ views.flatMap (windowEvents old),
      ∃ m, (WindowsState.apply ord ⟨cur⟩ e).map Prod.fst = some ⟨m⟩ ∧ HasKeys m old := by
    intro cur h e he
    obtain ⟨v, -, he⟩ := mem_flatMap.mp he
    have hcases : e = .windowOpenedOrChanged (makeIpcWindow v) ∨
        e = .windowFocusChanged (some v.id) ∨
        e = .windowFocusTimestampChanged v.id v.focusTimestamp ∨
        e = .windowUrgencyChanged v.id v.isUrgent := by
      unfold windowEvents at he
      split at he
      · simp_all
      · grind
    rcases hcases with rfl | rfl | rfl | rfl
    · simp only [WindowsState.apply]
      split
      · exact ⟨_, rfl, h.insert.mapValues⟩
      · exact ⟨_, rfl, h.insert⟩
    · exact ⟨_, rfl, h.mapValues⟩
    · exact ⟨(WindowsState.updateFirst ord ⟨cur⟩ v.id
        fun win => { win with focusTimestamp := v.focusTimestamp }).windows, rfl, h.updateFirst⟩
    · exact ⟨(WindowsState.updateFirst ord ⟨cur⟩ v.id
        fun win => { win with isUrgent := v.isUrgent }).windows, rfl, h.updateFirst⟩
  obtain ⟨⟨m⟩, hm, hsm⟩ : ∃ t, applyAll (WindowsState.apply ord) ⟨cur⟩
      (views.flatMap (windowEvents old)) = some t ∧ HasKeys t.windows old :=
    run_total (P := (· ∈ views.flatMap (windowEvents old))) (fun st e h he => by
      obtain ⟨m, hm, hsm⟩ := hstep st.windows h e he
      exact ⟨⟨m⟩, hm, hsm⟩) h (fun _ h => h)
  exact ⟨m, hm, hsm⟩

theorem changeLayouts_total {old : HashMap ℕ Window} (cur : HashMap ℕ Window)
    (changes : List (ℕ × WindowLayout)) (h : HasKeys cur old) (hc : ∀ c ∈ changes, ∃ w, old.get c.1 = some w) :
    ∃ m, WindowsState.changeLayouts ⟨cur⟩ changes = some ⟨m⟩ ∧ HasKeys m old := by
  induction changes generalizing cur with
  | nil => exact ⟨cur, rfl, h⟩
  | cons c changes ih =>
    obtain ⟨w, hw⟩ := hc c (by simp)
    obtain ⟨win, hwin⟩ := h c.1 w hw
    obtain ⟨m, hm, hk⟩ := ih (cur.insert c.1 { win with layout := c.2 }) h.insert
      (fun d hd => hc d (by simp [hd]))
    exact ⟨m, by simp [WindowsState.changeLayouts, hwin, hm], hk⟩

theorem windowBatch_old {old : HashMap ℕ Window} {c : ℕ × WindowLayout}
    (hc : c ∈ views.flatMap (windowBatch old)) : ∃ w, old.get c.1 = some w := by
  obtain ⟨v, -, hc⟩ := mem_flatMap.mp hc
  unfold windowBatch at hc
  split at hc
  · simp at hc
  · rename_i w hw
    split_ifs at hc <;> simp_all

/-- No snapshot, however it relates to the old map, makes `apply` miss a window. -/
theorem refreshWindows_total (ord : IterOrder) (old : WindowsState) (views : List WindowView) :
    ∃ st, refreshWindows old (ord, views) = some st := by
  obtain ⟨m₁, hm₁, hk₁⟩ := windowEvents_total ord views
    (show HasKeys old.windows old.windows from fun k v hv => ⟨v, hv⟩)
  obtain ⟨m₂, hm₂, hk₂⟩ := changeLayouts_total m₁
    (views.flatMap (windowBatch old.windows)) hk₁ (fun c hc => windowBatch_old hc)
  have hbatch : applyAll (WindowsState.apply ord) ⟨m₁⟩
      (if views.flatMap (windowBatch old.windows) ≠ [] then
        [.windowLayoutsChanged (views.flatMap (windowBatch old.windows))] else []) =
      some ⟨m₂⟩ := by
    split_ifs with hb
    · simp [WindowsState.apply, hm₂]
    · simp only [ne_eq, not_not] at hb
      rw [hb] at hm₂
      simpa [WindowsState.changeLayouts] using hm₂
  obtain ⟨m₃, hm₃, -⟩ := closed_applyAll ord m₂ (closedIds ord old.windows views)
    ((nodup_keys_iter ord old.windows).filter _) (by
      intro id hid
      obtain ⟨e, he, rfl⟩ := List.mem_map.mp (mem_of_mem_filter hid)
      exact hk₂ e.1 e.2 ((mem_iter ord).mp he))
  have hrun : refreshWindows old (ord, views) = applyAll (WindowsState.apply ord) ⟨m₃⟩
      (if focusedId views = none ∧ ipcFocusedId (ord.iter old.windows) ≠ none then
        [.windowFocusChanged none] else []) := by
    simp only [refreshWindows, refreshWindowsEvents, applyAll_append, hm₁, hbatch, hm₃,
      bind_some]
  rw [hrun]
  split_ifs
  · exact ⟨_, rfl⟩
  · exact ⟨_, rfl⟩

end NoPanic

section Server

variable {server : IpcServer} {init st : EventStreamState} {ord : IterOrder} {event : Event}
  {c : EventStreamSender}

theorem isWorkspace_refreshWorkspacesEvents {old : WorkspacesState} {layout : LayoutView} :
    ∀ e ∈ refreshWorkspacesEvents old layout, e.isWorkspace := by
  have hinc : ∀ news events, incrementalEvents old.workspaces news = some events →
      ∀ e ∈ events, e.isWorkspace := by
    intro news
    induction news with
    | nil =>
      intro events he
      cases he
      simp
    | cons new news ih =>
      intro events he e hm
      unfold incrementalEvents at he
      split at he
      · cases he
      · split at he
        · cases he
        · obtain ⟨tail, htail, rfl⟩ := of_map he
          rcases mem_append.mp hm with hm | hm
          · simp only [workspaceEvents, mem_append] at hm
            grind [Event.isWorkspace]
          · exact ih tail htail e hm
  intro e hm
  unfold refreshWorkspacesEvents at hm
  simp only at hm
  split at hm
  · rename_i events he
    split_ifs at hm
    · rw [mem_singleton.mp hm]
      rfl
    · exact hinc _ events he e hm
  · rw [mem_singleton.mp hm]
    rfl

theorem isWindow_refreshWindowsEvents {old : WindowsState} {views : List WindowView} :
    ∀ e ∈ refreshWindowsEvents ord old views, e.isWindow := by
  intro e hm
  simp only [refreshWindowsEvents, mem_append] at hm
  rcases hm with ((hm | hm) | hm) | hm
  · obtain ⟨v, -, hm⟩ := mem_flatMap.mp hm
    unfold windowEvents at hm
    split at hm
    · rw [mem_singleton.mp hm]
      rfl
    · grind [Event.isWindow]
  · grind [Event.isWindow]
  · obtain ⟨id, -, rfl⟩ := List.mem_map.mp hm
    rfl
  · grind [Event.isWindow]

/-- What the server and each registered client have in common. -/
structure IpcServer.Synced (init : EventStreamState) (server : IpcServer) : Prop where
  wellFormed : server.eventStreamState.WellFormed
  keyboard : server.eventStreamState.keyboardLayouts.keyboardLayouts.isSome
  logged : ∀ ord, applyAll (EventStreamState.apply ord) init server.log =
    some server.eventStreamState
  queued : ∀ c ∈ server.eventStreams, c.queued = c.burst ++ server.log.drop c.joined
  joined : ∀ c ∈ server.eventStreams, c.joined ≤ server.log.length
  burst : ∀ c ∈ server.eventStreams, ∀ ord,
    applyAll (EventStreamState.apply ord) EventStreamState.default c.burst =
      applyAll (EventStreamState.apply ord) init (server.log.take c.joined)

/-- Exactly the clients whose channel took the event stay, each with it queued. -/
theorem sendEvent_perm (server : IpcServer) (event : Event) :
    Perm (server.sendEvent event).eventStreams
      ((server.eventStreams.filter fun c => (c.trySend event).2).map
        fun c => (c.trySend event).1) := by
  have h := foldl_swapRemove_perm (p := fun c => !(c.trySend event).2) server.eventStreams
  simp only [Bool.not_not] at h
  have hmap := h.map fun c => (c.trySend event).1
  rwa [← foldl_swapRemove_map] at hmap

/-- A client stays exactly if it is open and its channel has room. -/
theorem sendEvent_eventStreams (server : IpcServer) (event : Event) :
    Perm (server.sendEvent event).eventStreams
      ((server.eventStreams.filter fun c =>
          !c.closed && decide (c.queue.length < eventStreamBufferSize)).map
        fun c => { c with queue := c.queue ++ [event] }) := by
  refine (sendEvent_perm server event).trans (.of_eq ?_)
  have hkept (c : EventStreamSender) : (c.trySend event).2 =
      (!c.closed && decide (c.queue.length < eventStreamBufferSize)) := by
    unfold EventStreamSender.trySend
    split_ifs <;> grind
  simp only [hkept]
  refine map_congr_left fun c hc => ?_
  have hroom := (mem_filter.mp hc).2
  unfold EventStreamSender.trySend
  split_ifs <;> grind

theorem mem_sendEvent (hc : c ∈ (server.sendEvent event).eventStreams) :
    ∃ d ∈ server.eventStreams, c = { d with queue := d.queue ++ [event] } := by
  obtain ⟨d, hd, rfl⟩ := List.mem_map.mp ((sendEvent_eventStreams server event).mem_iff.mp hc)
  exact ⟨d, mem_of_mem_filter hd, rfl⟩

theorem sendBurst_eq (events : List Event) (hc : c.closed = false)
    (hl : c.queue.length + events.length ≤ eventStreamBufferSize) :
    sendBurst c events = some { c with queue := c.queue ++ events } := by
  induction events generalizing c with
  | nil => simp [sendBurst]
  | cons event events ih =>
    rw [length_cons] at hl
    have hroom : ¬ c.queue.length ≥ eventStreamBufferSize := by omega
    have hsend : c.trySend event = ({ c with queue := c.queue ++ [event] }, true) := by
      simp [EventStreamSender.trySend, hc, hroom]
    have hrest := ih (c := { c with queue := c.queue ++ [event] }) hc (by
      simp only [length_append, length_singleton]
      omega)
    rw [sendBurst, hsend]
    simpa using hrest

theorem replicate_length (ord : IterOrder) (st : EventStreamState) :
    (st.replicate ord).length ≤ 5 := by
  unfold EventStreamState.replicate KeyboardLayoutsState.replicate
  cases st.keyboardLayouts.keyboardLayouts <;>
    simp [WorkspacesState.replicate, WindowsState.replicate, OverviewState.replicate,
      ConfigState.replicate]

theorem apply_workspacesChanged (workspaces : List Workspace) :
    st.apply ord (.workspacesChanged workspaces) =
      some ({ st with workspaces := ⟨HashMap.collect Workspace.id workspaces⟩ }, none) := rfl

theorem apply_windowsChanged (windows : List Window) :
    st.apply ord (.windowsChanged windows) =
      some ({ st with windows := ⟨HashMap.collect Window.id windows⟩ }, none) := rfl

theorem apply_keyboardLayoutsChanged (kb : KeyboardLayouts) :
    st.apply ord (.keyboardLayoutsChanged kb) =
      some ({ st with keyboardLayouts := ⟨some kb⟩ }, none) := rfl

theorem apply_overviewOpenedOrClosed (isOpen : Bool) :
    st.apply ord (.overviewOpenedOrClosed isOpen) =
      some ({ st with overview := ⟨isOpen⟩ }, none) := rfl

theorem apply_configLoaded (failed : Bool) :
    st.apply ord (.configLoaded failed) = some ({ st with config := ⟨failed⟩ }, none) := rfl

theorem keyboardLayouts_replicate_applyAll (kb : KeyboardLayoutsState)
    (hst : st.keyboardLayouts = ⟨none⟩) :
    applyAll (EventStreamState.apply ord) st kb.replicate =
      some { st with keyboardLayouts := kb } := by
  obtain ⟨kb⟩ := kb
  cases kb with
  | none => simp [KeyboardLayoutsState.replicate, ← hst]
  | some kb => simp [KeyboardLayoutsState.replicate, apply_keyboardLayoutsChanged]

/-- Folding `apply` over `replicate` rebuilds any state whose keys are its ids. -/
theorem replicate_applyAll (h : st.WellFormed) (ord ord' : IterOrder) :
    applyAll (EventStreamState.apply ord') EventStreamState.default (st.replicate ord) =
      some st := by
  have hws := collect_iter ord h.workspaces
  have hwin := collect_iter ord h.windows
  simp only [EventStreamState.replicate, applyAll_append, WorkspacesState.replicate,
    WindowsState.replicate, OverviewState.replicate, ConfigState.replicate, applyAll_cons,
    applyAll_nil, apply_workspacesChanged, apply_windowsChanged, map_some,
    bind_some, hws, hwin]
  rw [keyboardLayouts_replicate_applyAll _ rfl]
  simp only [apply_overviewOpenedOrClosed, apply_configLoaded, map_some, bind_some]

/-- The connecting client is registered, with the current state as its initial burst. -/
theorem connect_eq (server : IpcServer) (ord : IterOrder) :
    server.connect ord = some { server with
      eventStreams := server.eventStreams ++ [⟨server.eventStreamState.replicate ord, [], false,
        server.eventStreamState.replicate ord, server.log.length⟩] } := by
  have hlen := replicate_length ord server.eventStreamState
  have hb := sendBurst_eq (c := ⟨[], [], false, server.eventStreamState.replicate ord,
    server.log.length⟩) (server.eventStreamState.replicate ord) rfl (by
      simp only [length_nil, eventStreamBufferSize]
      omega)
  simp [IpcServer.connect, hb]

theorem synced_connect (h : server.Synced init) (ord : IterOrder) :
    ∃ t, server.connect ord = some t ∧ t.Synced init := by
  refine ⟨_, connect_eq server ord, h.wellFormed, h.keyboard, h.logged, ?_, ?_, ?_⟩
  · intro c hc
    rcases mem_append.mp hc with hc | hc
    · exact h.queued c hc
    · rw [mem_singleton.mp hc]
      simp [EventStreamSender.queued]
  · intro c hc
    rcases mem_append.mp hc with hc | hc
    · exact h.joined c hc
    · rw [mem_singleton.mp hc]
  · intro c hc ord'
    rcases mem_append.mp hc with hc | hc
    · exact h.burst c hc ord'
    · rw [mem_singleton.mp hc]
      simp only [take_length]
      rw [replicate_applyAll h.wellFormed, h.logged]

/-- A client task's own step changes neither what was queued nor who is registered. -/
theorem synced_modify (h : server.Synced init) (idx : ℕ)
    (f : EventStreamSender → EventStreamSender)
    (hf : ∀ c, (f c).queued = c.queued ∧ (f c).burst = c.burst ∧ (f c).joined = c.joined) :
    { server with eventStreams := server.eventStreams.modify idx f }.Synced init := by
  have hmem : ∀ c ∈ server.eventStreams.modify idx f, ∃ d ∈ server.eventStreams,
      c.queued = d.queued ∧ c.burst = d.burst ∧ c.joined = d.joined := by
    intro c hc
    obtain ⟨i, hi, rfl⟩ := mem_iff_getElem.mp hc
    rw [length_modify] at hi
    rw [getElem_modify]
    split_ifs
    · exact ⟨_, getElem_mem hi, hf _⟩
    · exact ⟨_, getElem_mem hi, rfl, rfl, rfl⟩
  refine ⟨h.wellFormed, h.keyboard, h.logged, ?_, ?_, ?_⟩
  · intro c hc
    obtain ⟨d, hd, hq, hb, hj⟩ := hmem c hc
    rw [hq, hb, hj]
    exact h.queued d hd
  · intro c hc
    obtain ⟨d, hd, -, -, hj⟩ := hmem c hc
    rw [hj]
    exact h.joined d hd
  · intro c hc
    obtain ⟨d, hd, -, hb, hj⟩ := hmem c hc
    rw [hb, hj]
    exact h.burst d hd

/-- Applying an event and broadcasting it keeps every remaining client in step. -/
theorem synced_emit (apply : EventStreamState → Event → Option EventStreamState)
    (event : Event) {st' : EventStreamState} (h : server.Synced init)
    (ha : apply server.eventStreamState event = some st')
    (hr : Replays server.eventStreamState event st')
    (hk : st'.keyboardLayouts.keyboardLayouts.isSome) :
    ∃ t, server.emit apply event = some t ∧ t.Synced init ∧ t.eventStreamState = st' := by
  refine ⟨{ server with eventStreamState := st' }.sendEvent event,
    by simp only [IpcServer.emit, ha, some_bind],
    ⟨hr.1, hk, ?_, ?_, ?_, ?_⟩, rfl⟩
  · intro ord
    simp only [IpcServer.sendEvent, applyAll_append, h.logged ord, bind_some,
      applyAll_cons, applyAll_nil, hr.2 ord]
  · intro c hc
    obtain ⟨d, hd, rfl⟩ := mem_sendEvent hc
    have hq := h.queued d hd
    have hj := h.joined d hd
    simp only [EventStreamSender.queued] at hq ⊢
    rw [← append_assoc, hq]
    simp [IpcServer.sendEvent, drop_append_of_le_length hj]
  · intro c hc
    obtain ⟨d, hd, rfl⟩ := mem_sendEvent hc
    have hj := h.joined d hd
    simp only [IpcServer.sendEvent, length_append]
    omega
  · intro c hc ord
    obtain ⟨d, hd, rfl⟩ := mem_sendEvent hc
    have hj := h.joined d hd
    simp only [IpcServer.sendEvent, take_append_of_le_length hj]
    exact h.burst d hd ord

/-- A refresh that would not panic on the state alone does not panic, and broadcasts
its events one by one with the clients in step throughout. -/
theorem synced_run_emit {apply : EventStreamState → Event → Option EventStreamState}
    {P : Event → Prop} {events : List Event} (h : server.Synced init)
    (hp : ∀ e ∈ events, P e)
    (hreplay : ∀ st e st', P e → EventStreamState.WellFormed st → apply st e = some st' →
      Replays st e st' ∧ st'.keyboardLayouts = st.keyboardLayouts)
    (hrun : ∃ st', run apply server.eventStreamState events = some st') :
    ∃ t, run (IpcServer.emit apply) server events = some t ∧ t.Synced init := by
  induction events generalizing server with
  | nil => exact ⟨server, rfl, h⟩
  | cons e events ih =>
    obtain ⟨st', hrun⟩ := hrun
    obtain ⟨u, hu, hrest⟩ := of_bind hrun
    obtain ⟨hr, hk⟩ := hreplay _ e u (hp e (by simp)) h.wellFormed hu
    obtain ⟨t, ht, hts, hst⟩ := synced_emit apply e h hu hr (by rw [hk]; exact h.keyboard)
    obtain ⟨t', ht', hs'⟩ := ih hts (fun e he => hp e (by simp [he])) ⟨st', by rw [hst, hrest]⟩
    exact ⟨t', by simp [ht, ht'], hs'⟩

theorem run_applyWorkspaces (st : EventStreamState) {events : List Event} {ws : WorkspacesState}
    (h : applyAll WorkspacesState.apply st.workspaces events = some ws) :
    run applyWorkspaces st events = some { st with workspaces := ws } := by
  induction events generalizing st with
  | nil =>
    cases h
    rfl
  | cons e events ih =>
    obtain ⟨u, hu, hrest⟩ := of_bind h
    obtain ⟨r, hr, rfl⟩ := of_map hu
    simpa [applyWorkspaces, hr] using ih { st with workspaces := r.1 } hrest

theorem run_applyWindows (st : EventStreamState) {events : List Event} {w : WindowsState}
    (h : applyAll (WindowsState.apply ord) st.windows events = some w) :
    run (applyWindows ord) st events = some { st with windows := w } := by
  induction events generalizing st with
  | nil =>
    cases h
    rfl
  | cons e events ih =>
    obtain ⟨u, hu, hrest⟩ := of_bind h
    obtain ⟨r, hr, rfl⟩ := of_map hu
    simpa [applyWindows, hr] using ih { st with windows := r.1 } hrest

theorem recv_queued (c : EventStreamSender) :
    c.recv.queued = c.queued ∧ c.recv.burst = c.burst ∧ c.recv.joined = c.joined := by
  unfold EventStreamSender.recv
  split
  · split <;> simp_all [EventStreamSender.queued]
  · simp

/-- No turn of the event loop panics or lets a registered client fall behind. -/
theorem synced_step (h : server.Synced init) (a : Action) :
    ∃ t, server.step a = some t ∧ t.Synced init := by
  have hkb := h.keyboard
  cases a with
  | connect ord => exact synced_connect h ord
  | recv idx => exact ⟨_, rfl, synced_modify h idx _ recv_queued⟩
  | close idx => exact ⟨_, rfl, synced_modify h idx _ fun _ => ⟨rfl, rfl, rfl⟩⟩
  | refreshWorkspaces layout =>
    obtain ⟨ws, hws⟩ := refreshWorkspaces_total server.eventStreamState.workspaces layout
    refine synced_run_emit (P := fun e => e.isWorkspace) h isWorkspace_refreshWorkspacesEvents ?_
      ⟨_, run_applyWorkspaces _ hws⟩
    intro st e st' he hw ha
    refine ⟨replays_workspaces hw he ha, ?_⟩
    obtain ⟨r, -, rfl⟩ := of_map ha
    rfl
  | refreshWindows ord views =>
    obtain ⟨w, hw⟩ := refreshWindows_total ord server.eventStreamState.windows views
    refine synced_run_emit (P := fun e => e.isWindow) h isWindow_refreshWindowsEvents ?_
      ⟨_, run_applyWindows _ hw⟩
    intro st e st' he hw ha
    refine ⟨replays_windows hw he ha, ?_⟩
    obtain ⟨r, -, rfl⟩ := of_map ha
    rfl
  | refreshOverview isOpen =>
    simp only [IpcServer.step]
    split_ifs
    · exact ⟨server, rfl, h⟩
    · obtain ⟨t, ht, hs, -⟩ := synced_emit applyOverview
        (.overviewOpenedOrClosed isOpen) h rfl
        ⟨⟨h.wellFormed.workspaces, h.wellFormed.windows⟩, fun ord => rfl⟩ hkb
      exact ⟨t, ht, hs⟩
  | keyboardLayoutsChanged kb =>
    obtain ⟨t, ht, hs, -⟩ := synced_emit applyKeyboardLayouts
      (.keyboardLayoutsChanged kb) h rfl
      ⟨⟨h.wellFormed.workspaces, h.wellFormed.windows⟩, fun ord => rfl⟩ rfl
    exact ⟨t, ht, hs⟩
  | refreshKeyboardLayoutIndex idx =>
    obtain ⟨kb, hsome⟩ := isSome_iff_exists.mp hkb
    simp only [IpcServer.step, hsome, some_bind]
    split_ifs
    · exact ⟨server, rfl, h⟩
    · have ha : applyKeyboardLayouts server.eventStreamState (.keyboardLayoutSwitched idx) =
          some { server.eventStreamState with
            keyboardLayouts := ⟨some { kb with currentIdx := idx }⟩ } := by
        simp [applyKeyboardLayouts, KeyboardLayoutsState.apply, hsome]
      obtain ⟨t, ht, hs, -⟩ := synced_emit applyKeyboardLayouts _ h ha
        ⟨⟨h.wellFormed.workspaces, h.wellFormed.windows⟩, fun ord => by
          simp [EventStreamState.apply, WorkspacesState.apply, WindowsState.apply,
            KeyboardLayoutsState.apply, hsome]⟩ rfl
      exact ⟨t, ht, hs⟩
  | configLoaded ord failed =>
    obtain ⟨t, ht, hs, -⟩ := synced_emit (applyState ord)
      (.configLoaded failed) h rfl
      ⟨⟨h.wellFormed.workspaces, h.wellFormed.windows⟩, fun ord => rfl⟩ hkb
    exact ⟨t, ht, hs⟩
  | screenshotTaken ord path =>
    obtain ⟨t, ht, hs, -⟩ := synced_emit (applyState ord)
      (.screenshotCaptured path) h rfl
      ⟨⟨h.wellFormed.workspaces, h.wellFormed.windows⟩, fun ord => rfl⟩ hkb
    exact ⟨t, ht, hs⟩

theorem synced_initial (kb : KeyboardLayouts) :
    (IpcServer.initial kb).Synced (IpcServer.initial kb).eventStreamState where
  wellFormed := ⟨keyedBy_empty, keyedBy_empty⟩
  keyboard := rfl
  logged := fun _ => rfl
  queued := by simp [IpcServer.initial]
  joined := by simp [IpcServer.initial]
  burst := by simp [IpcServer.initial]

/-- What was queued for a client is the burst that replicates the state at its
registration followed by every event broadcast since, so folding it gives the
server's state. -/
theorem Synced.replay (h : server.Synced init) (hc : c ∈ server.eventStreams)
    (ord : IterOrder) :
    applyAll (EventStreamState.apply ord) EventStreamState.default c.queued =
      some server.eventStreamState := by
  rw [h.queued c hc, applyAll_append, h.burst c hc ord, ← applyAll_append, take_append_drop,
    h.logged ord]

end Server

/-- Replication rebuilds any state whose keys are its ids; and under every
interleaving of connections, client reads and closures, refreshes and broadcasts,
the server does not panic, a client that connects is registered with the current
state, a broadcast reaches every open client whose channel has room and drops the
others, and each registered client's queued events are the burst of its
registration and every later event once, folding to the server's state. -/
theorem eventStream_clients_converge :
    (∀ (st : EventStreamState) (ord ord' : IterOrder), st.WellFormed →
      applyAll (EventStreamState.apply ord') EventStreamState.default (st.replicate ord) =
        some st) ∧
    ∀ (kb : KeyboardLayouts) (actions : List Action),
      ∃ server, run IpcServer.step (IpcServer.initial kb) actions = some server ∧
        (∀ ord, server.step (.connect ord) = some { server with
          eventStreams := server.eventStreams ++ [⟨server.eventStreamState.replicate ord, [], false,
            server.eventStreamState.replicate ord, server.log.length⟩] }) ∧
        (∀ event, Perm (server.sendEvent event).eventStreams
          ((server.eventStreams.filter fun c =>
              !c.closed && decide (c.queue.length < eventStreamBufferSize)).map
            fun c => { c with queue := c.queue ++ [event] })) ∧
        ∀ c ∈ server.eventStreams, ∀ ord,
          c.queued = c.burst ++ server.log.drop c.joined ∧
          applyAll (EventStreamState.apply ord) EventStreamState.default c.burst =
            applyAll (EventStreamState.apply ord) (IpcServer.initial kb).eventStreamState
              (server.log.take c.joined) ∧
          applyAll (EventStreamState.apply ord) EventStreamState.default c.queued =
            some server.eventStreamState := by
  refine ⟨fun st ord ord' h => replicate_applyAll h ord ord', ?_⟩
  intro kb actions
  obtain ⟨server, hrun, hs⟩ := run_total (P := fun _ => True)
    (I := IpcServer.Synced (IpcServer.initial kb).eventStreamState)
    (fun s a h _ => synced_step h a) (synced_initial kb) (fun a (_ : a ∈ actions) => trivial)
  exact ⟨server, hrun, connect_eq server, sendEvent_eventStreams server, fun c hc ord =>
    ⟨hs.queued c hc, hs.burst c hc ord, Synced.replay hs hc ord⟩⟩

/-- One workspace and no windows, with keyboard layouts already reported. -/
def oneWorkspace : EventStreamState :=
  { EventStreamState.default with
    workspaces := ⟨HashMap.collect Workspace.id
      [⟨3, 1, some "web", some "DP-1", false, true, true, none⟩]⟩
    keyboardLayouts := ⟨some ⟨["us"], 0⟩⟩ }

/-- A client connects, workspaces are announced, it goes away, another one connects, and the keyboard
layout changes. -/
def lateJoin (ord : IterOrder) : List Action :=
  [.connect ord, .refreshWorkspaces (twoOutputs 0 0 0), .close 0, .connect ord,
    .refreshKeyboardLayoutIndex 1]

theorem eventStream_clients_converge_late_join :
    applyAll (EventStreamState.apply .arbitrary) EventStreamState.default
      (oneWorkspace.replicate .arbitrary) = some oneWorkspace ∧
    ∃ server c,
      run IpcServer.step (IpcServer.initial ⟨["us", "de"], 0⟩) (lateJoin .arbitrary) = some server ∧
      server.eventStreams = [c] ∧ ∀ ord,
        c.queued = c.burst ++ server.log.drop c.joined ∧
        applyAll (EventStreamState.apply ord) EventStreamState.default c.queued =
          some server.eventStreamState := by
  refine ⟨eventStream_clients_converge.1 oneWorkspace .arbitrary .arbitrary
    ⟨keyedBy_collect, keyedBy_empty⟩, ?_⟩
  obtain ⟨server, hrun, -, -, hclients⟩ :=
    eventStream_clients_converge.2 ⟨["us", "de"], 0⟩ (lateJoin .arbitrary)
  have hone : (run IpcServer.step (IpcServer.initial ⟨["us", "de"], 0⟩) (lateJoin .arbitrary)).map
      (·.eventStreams.length) = some 1 := by
    decide +kernel
  rw [hrun] at hone
  obtain ⟨c, hc⟩ := length_eq_one_iff.mp (some.inj hone)
  refine ⟨server, c, hrun, hc, fun ord => ?_⟩
  obtain ⟨hqueued, -, hreplay⟩ := hclients c (hc ▸ mem_cons_self) ord
  exact ⟨hqueued, hreplay⟩

end Macniri.Ipc
