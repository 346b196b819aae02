import Macniri.Ipc.State

/-! `ipc_refresh_workspaces`: the server's workspace map mirrors every layout snapshot. -/
namespace Macniri.Ipc

open Option List HashMap

/-- What a refresh reads of one workspace of the layout. -/
structure WorkspaceView where
  id : ℕ
  name : Option String
  isUrgent : Bool
  activeWindowId : Option ℕ
  deriving DecidableEq, Repr

structure MonitorView where
  outputName : String
  activeWorkspaceIdx : ℕ
  workspaces : List WorkspaceView
  deriving DecidableEq, Repr

inductive LayoutView where
  | normal (monitors : List MonitorView) (activeMonitorIdx : ℕ)
  | noOutputs (workspaces : List WorkspaceView)
  deriving DecidableEq, Repr

/-- `Layout::workspaces`: each workspace with its monitor and its index there. -/
def LayoutView.workspaces : LayoutView → List (Option MonitorView × ℕ × WorkspaceView)
  | .normal monitors _ =>
    monitors.flatMap fun mon => mon.workspaces.zipIdx.map fun (ws, idx) => (some mon, idx, ws)
  | .noOutputs workspaces => workspaces.zipIdx.map fun (ws, idx) => (none, idx, ws)

/-- `Layout::active_workspace`. -/
def LayoutView.activeWorkspace : LayoutView → Option WorkspaceView
  | .normal monitors activeMonitorIdx => do
    let mon ← monitors[activeMonitorIdx]?
    mon.workspaces[mon.activeWorkspaceIdx]?
  | .noOutputs _ => none

/-- `u8::try_from(ws_idx + 1).unwrap_or(u8::MAX)`. -/
def ipcIdx (wsIdx : ℕ) : ℕ := if wsIdx + 1 < 256 then wsIdx + 1 else 255

def isActiveOn (mon : Option MonitorView) (wsIdx : ℕ) : Bool :=
  mon.any fun mon => mon.activeWorkspaceIdx == wsIdx

/-- The workspace as the full `WorkspacesChanged` event describes it. -/
def makeIpcWorkspace (focusedWsId : Option ℕ) :
    Option MonitorView × ℕ × WorkspaceView → Workspace
  | (mon, wsIdx, ws) =>
    { id := ws.id
      idx := ipcIdx wsIdx
      name := ws.name
      output := mon.map MonitorView.outputName
      isUrgent := ws.isUrgent
      isActive := isActiveOn mon wsIdx
      isFocused := decide (some ws.id = focusedWsId)
      activeWindowId := ws.activeWindowId }

def LayoutView.focusedWsId (layout : LayoutView) : Option ℕ :=
  layout.activeWorkspace.map WorkspaceView.id

def LayoutView.ipcWorkspaces (layout : LayoutView) : List Workspace :=
  layout.workspaces.map (makeIpcWorkspace layout.focusedWsId)

/-- Changes that cannot be signalled as individual events. -/
def needsFull (ipcWs new : Workspace) : Bool :=
  ipcWs.idx ≠ new.idx || ipcWs.name ≠ new.name || ipcWs.output ≠ new.output

/-- The individual events for one workspace whose identity did not change. The
focused check ends the loop body, so the active check then does not run. -/
def workspaceEvents (ipcWs new : Workspace) : List Event :=
  (if ipcWs.activeWindowId ≠ new.activeWindowId then
    [.workspaceActiveWindowChanged new.id new.activeWindowId] else []) ++
  (if new.isUrgent ≠ ipcWs.isUrgent then
    [.workspaceUrgencyChanged new.id new.isUrgent] else []) ++
  (if new.isFocused ∧ ¬ ipcWs.isFocused then [.workspaceActivated new.id true]
  else if new.isActive ∧ ¬ ipcWs.isActive then [.workspaceActivated new.id false]
  else [])

/-- The loop over the layout: `none` once `need_workspaces_changed` is set and the
loop breaks, else the events collected so far. -/
def incrementalEvents (old : HashMap ℕ Workspace) : List Workspace → Option (List Event)
  | [] => some []
  | new :: rest =>
    match old.get new.id with
    | none => none
    | some ipcWs =>
      if needsFull ipcWs new then none
      else (incrementalEvents old rest).map (workspaceEvents ipcWs new ++ ·)

/-- `ipc_refresh_workspaces` up to the point where the events are known. -/
def refreshWorkspacesEvents (old : WorkspacesState) (layout : LayoutView) : List Event :=
  let seen := layout.ipcWorkspaces.map Workspace.id
  match incrementalEvents old.workspaces layout.ipcWorkspaces with
  | some events =>
    if ∃ id ∈ old.workspaces.keys, id ∉ seen then [.workspacesChanged layout.ipcWorkspaces]
    else events
  | none => [.workspacesChanged layout.ipcWorkspaces]

def refreshWorkspaces (old : WorkspacesState) (layout : LayoutView) : Option WorkspacesState :=
  applyAll WorkspacesState.apply old (refreshWorkspacesEvents old layout)

/-- Facts of every map a refresh leaves behind, none of them about the next layout. -/
structure Coherent (m : HashMap ℕ Workspace) : Prop where
  key_id : ∀ {k w}, m.get k = some w → w.id = k
  active_unique : ∀ {k k' w w'}, m.get k = some w → m.get k' = some w' →
    w.isActive → w'.isActive → w.output = w'.output → k = k'
  focused_unique : ∀ {k k' w w'}, m.get k = some w → m.get k' = some w' →
    w.isFocused → w'.isFocused → k = k'
  focused_active : ∀ {k w}, m.get k = some w → w.isFocused → w.isActive
  active_output : ∀ {k w}, m.get k = some w → w.isActive → w.output ≠ none

/-- Every connected output has an active workspace, and one of them is focused. -/
structure Populated (m : HashMap ℕ Workspace) : Prop where
  active_exists : ∀ {k w}, m.get k = some w → w.output ≠ none →
    ∃ k' w', m.get k' = some w' ∧ w'.isActive ∧ w'.output = w.output
  focused_exists : ∀ {k w}, m.get k = some w → w.output ≠ none →
    ∃ k' w', m.get k' = some w' ∧ w'.isFocused

section Incremental

variable {old target : HashMap ℕ Workspace} {ipcWs new w n : Workspace}
  {windows urgency activation : List Workspace}

/-- The old workspace with the fields of the new one that have been signalled so
far: `windows`, `urgency` and `activation` list the workspaces whose events of
that kind have been applied. -/
def blend (target : HashMap ℕ Workspace) (windows urgency activation : List Workspace)
    (w : Workspace) : Workspace :=
  match target.get w.id with
  | none => w
  | some n =>
    { w with
      activeWindowId := if n ∈ windows then n.activeWindowId else w.activeWindowId
      isUrgent := if n ∈ urgency then n.isUrgent else w.isUrgent
      isActive := if ∃ a ∈ activation, a.isActive ∧ a.output = w.output then n.isActive
        else w.isActive
      isFocused := if ∃ a ∈ activation, a.isFocused then n.isFocused else w.isFocused }

@[simp] theorem blend_id : (blend target windows urgency activation w).id = w.id := by
  unfold blend
  split <;> rfl

@[simp] theorem blend_output :
    (blend target windows urgency activation w).output = w.output := by
  unfold blend
  split <;> rfl

theorem blend_of_get (h : target.get w.id = some n) :
    blend target windows urgency activation w =
      { w with
        activeWindowId := if n ∈ windows then n.activeWindowId else w.activeWindowId
        isUrgent := if n ∈ urgency then n.isUrgent else w.isUrgent
        isActive := if ∃ a ∈ activation, a.isActive ∧ a.output = w.output then n.isActive
          else w.isActive
        isFocused := if ∃ a ∈ activation, a.isFocused then n.isFocused else w.isFocused } := by
  simp [blend, h]

theorem blend_nil : blend target [] [] [] w = w := by
  unfold blend
  split <;> simp

/-- `get_mut` followed by an assignment is the loop that tests every id. -/
theorem apply_activeWindowChanged {cur : HashMap ℕ Workspace} {id : ℕ} {a : Option ℕ}
    (hk : ∀ {k w}, cur.get k = some w → w.id = k) (hw : cur.get id = some w) :
    WorkspacesState.apply ⟨cur⟩ (.workspaceActiveWindowChanged id a) =
      some (⟨cur.mapValues fun w => if w.id = id then { w with activeWindowId := a } else w⟩,
        none) := by
  simp only [WorkspacesState.apply, hw, some_bind,
    some.injEq, Prod.mk.injEq, WorkspacesState.mk.injEq, and_true]
  apply HashMap.ext_get
  intro k
  rw [get_insert, get_mapValues]
  by_cases h : k = id
  · subst k
    simp [hw, hk hw]
  · rw [if_neg h]
    cases hv : cur.get k with
    | none => rfl
    | some v =>
      have hne : v.id ≠ id := fun he => h ((hk hv).symm.trans he)
      simp [hne]

variable (ho : Coherent old) (ht : Coherent target)
  (hkeys : ∀ {k w}, old.get k = some w → ∃ n, target.get k = some n ∧ n.output = w.output)
  (hi : old.get new.id = some ipcWs) (hn : target.get new.id = some new)

include ho hkeys in
theorem old_target {k : ℕ} (hw : old.get k = some w) :
    w.id = k ∧ ∃ n, target.get w.id = some n ∧ n.output = w.output := by
  have hk := ho.key_id hw
  exact ⟨hk, by simpa only [hk] using hkeys hw⟩

include ht hn in
theorem target_eq_new (hl : target.get w.id = some n) : n = new ↔ w.id = new.id := by
  constructor
  · rintro rfl
    exact (ht.key_id hl).symm
  · intro h
    rw [h, hn] at hl
    exact (some.inj hl).symm

include ho ht hkeys hi hn in
theorem blend_windows_step :
    applyAll WorkspacesState.apply ⟨old.mapValues (blend target windows urgency activation)⟩
      (if ipcWs.activeWindowId ≠ new.activeWindowId then
        [.workspaceActiveWindowChanged new.id new.activeWindowId] else []) =
      some ⟨old.mapValues (blend target (new :: windows) urgency activation)⟩ := by
  split
  · have hk : ∀ {k w}, (old.mapValues (blend target windows urgency activation)).get k =
        some w → w.id = k := by
      intro k w hw
      simp only [get_mapValues, map_eq_some_iff] at hw
      obtain ⟨v, hv, rfl⟩ := hw
      simpa using ho.key_id hv
    have hb : (old.mapValues (blend target windows urgency activation)).get new.id =
        some (blend target windows urgency activation ipcWs) := by simp [hi]
    rw [applyAll_cons, apply_activeWindowChanged hk hb]
    simp only [map_some, bind_some, applyAll_nil, mapValues_mapValues,
      some.injEq, WorkspacesState.mk.injEq]
    apply mapValues_congr
    intro k w hw
    obtain ⟨hwk, n, hl, -⟩ := old_target ho hkeys hw
    have hnew := target_eq_new ht hn hl
    by_cases h : w.id = new.id
    · simp [blend_of_get hl, h, hnew.mpr h]
    · simp [blend_of_get hl, h, mt hnew.mp h]
  · rename_i he
    simp only [applyAll_nil, some.injEq, WorkspacesState.mk.injEq]
    apply mapValues_congr
    intro k w hw
    obtain ⟨hwk, n, hl, -⟩ := old_target ho hkeys hw
    have hnew := target_eq_new ht hn hl
    by_cases h : w.id = new.id
    · obtain rfl : w = ipcWs := by
        rw [← h, hwk, hw] at hi
        exact some.inj hi
      simp only [ne_eq, not_not] at he
      simp [blend_of_get hl, hnew.mpr h, he]
    · simp [blend_of_get hl, mt hnew.mp h]

include ho ht hkeys hi hn in
theorem blend_urgency_step :
    applyAll WorkspacesState.apply ⟨old.mapValues (blend target windows urgency activation)⟩
      (if new.isUrgent ≠ ipcWs.isUrgent then
        [.workspaceUrgencyChanged new.id new.isUrgent] else []) =
      some ⟨old.mapValues (blend target windows (new :: urgency) activation)⟩ := by
  split
  · simp only [applyAll_cons, applyAll_nil, WorkspacesState.apply, map_some, bind_some,
      mapValues_mapValues, some.injEq, WorkspacesState.mk.injEq]
    apply mapValues_congr
    intro k w hw
    obtain ⟨hwk, n, hl, -⟩ := old_target ho hkeys hw
    have hnew := target_eq_new ht hn hl
    by_cases h : w.id = new.id
    · simp [blend_of_get hl, h, hnew.mpr h]
    · simp [blend_of_get hl, h, mt hnew.mp h]
  · rename_i he
    simp only [applyAll_nil, some.injEq, WorkspacesState.mk.injEq]
    apply mapValues_congr
    intro k w hw
    obtain ⟨hwk, n, hl, -⟩ := old_target ho hkeys hw
    have hnew := target_eq_new ht hn hl
    by_cases h : w.id = new.id
    · obtain rfl : w = ipcWs := by
        rw [← h, hwk, hw] at hi
        exact some.inj hi
      simp only [ne_eq, not_not] at he
      simp [blend_of_get hl, hnew.mpr h, he]
    · simp [blend_of_get hl, mt hnew.mp h]

include ht hn in
/-- Once `new` is known to be active, its output's other workspaces are not. -/
theorem isActive_iff_id (hl : target.get w.id = some n) (ha : new.isActive)
    (hout : new.output = n.output) : n.isActive = decide (w.id = new.id) := by
  by_cases h : w.id = new.id
  · rw [(target_eq_new ht hn hl).mpr h, ha, decide_eq_true h]
  · rw [decide_eq_false h]
    by_contra hc
    exact h (ht.active_unique hl hn (by simpa using hc) ha hout.symm)

include ht hn in
theorem isFocused_iff_id (hl : target.get w.id = some n) (hf : new.isFocused) :
    n.isFocused = decide (w.id = new.id) := by
  by_cases h : w.id = new.id
  · rw [(target_eq_new ht hn hl).mpr h, hf, decide_eq_true h]
  · rw [decide_eq_false h]
    by_contra hc
    exact h (ht.focused_unique hl hn (by simpa using hc) hf)

theorem ite_or_of_imp {p q : Prop} [Decidable p] [Decidable q] {a b : Bool}
    (h : p → a = b) : (if q then a else b) = if p ∨ q then a else b := by
  by_cases hp : p
  · simp [h hp]
  · simp [hp]

include ho ht hkeys hi hn in
theorem blend_activation_step :
    applyAll WorkspacesState.apply ⟨old.mapValues (blend target windows urgency activation)⟩
      (if new.isFocused ∧ ¬ ipcWs.isFocused then [.workspaceActivated new.id true]
      else if new.isActive ∧ ¬ ipcWs.isActive then [.workspaceActivated new.id false]
      else []) =
      some ⟨old.mapValues (blend target windows urgency (new :: activation))⟩ := by
  have hid := ho.key_id hi
  have hout : new.output = ipcWs.output := by
    obtain ⟨n, hl, hno⟩ := hkeys hi
    rw [hn] at hl
    exact some.inj hl ▸ hno
  have hb : (old.mapValues (blend target windows urgency activation)).get new.id =
      some (blend target windows urgency activation ipcWs) := by simp [hi]
  have hfocus : new.isFocused → new.isActive := ht.focused_active hn
  have hi' : old.get ipcWs.id = some ipcWs := by rwa [hid]
  have keepFocused : ∀ {w n}, old.get w.id = some w → target.get w.id = some n →
      new.isFocused → ipcWs.isFocused → n.isFocused = w.isFocused := by
    intro w n hw hl hf hf'
    rw [isFocused_iff_id ht hn hl hf, isFocused_iff_id ho hi' hw hf', hid]
  have keepActive : ∀ {w n}, old.get w.id = some w → target.get w.id = some n →
      n.output = w.output → new.isActive → ipcWs.isActive → w.output = new.output →
      n.isActive = w.isActive := by
    intro w n hw hl hno ha ha' h
    rw [isActive_iff_id ht hn hl ha (by rw [hno, h]),
      isActive_iff_id ho hi' hw ha' (by rw [h, hout]), hid]
  split_ifs with hf ha
  · simp only [applyAll_cons, applyAll_nil, WorkspacesState.apply, hb, bind_eq_bind,
      bind_some, map_some,
      mapValues_mapValues, some.injEq, WorkspacesState.mk.injEq]
    apply mapValues_congr
    intro k w hw
    obtain ⟨hwk, n, hl, hno⟩ := old_target ho hkeys hw
    have hact := isActive_iff_id ht hn hl (hfocus hf.1)
    have hfoc := isFocused_iff_id ht hn hl hf.1
    by_cases h : w.output = new.output
    · simp [blend_of_get hl, Workspace.activate, hf.1, hfocus hf.1, hout.symm, h,
        hact (by rw [hno, h]), hfoc, Bool.beq_eq_decide_eq]
    · simp [blend_of_get hl, Workspace.activate, hf.1, hout.symm, h, Ne.symm h, hfoc,
        Bool.beq_eq_decide_eq]
  · simp only [applyAll_cons, applyAll_nil, WorkspacesState.apply, hb, bind_eq_bind,
      bind_some, map_some,
      mapValues_mapValues, some.injEq, WorkspacesState.mk.injEq]
    apply mapValues_congr
    intro k w hw
    obtain ⟨rfl, n, hl, hno⟩ := old_target ho hkeys hw
    have hact := isActive_iff_id ht hn hl ha.1
    have hfoc : new.isFocused → n.isFocused = w.isFocused :=
      fun h => keepFocused hw hl h (by simpa [h] using hf)
    by_cases h : w.output = new.output
    · simp [blend_of_get hl, Workspace.activate, ha.1, hout.symm, h, hact (by rw [hno, h]),
        Bool.beq_eq_decide_eq]
      exact ite_or_of_imp hfoc
    · simp [blend_of_get hl, Workspace.activate, hout.symm, h, Ne.symm h]
      exact ite_or_of_imp hfoc
  · simp only [applyAll_nil, some.injEq, WorkspacesState.mk.injEq]
    apply mapValues_congr
    intro k w hw
    obtain ⟨rfl, n, hl, hno⟩ := old_target ho hkeys hw
    have hact : new.isActive → w.output = new.output → n.isActive = w.isActive :=
      fun h => keepActive hw hl hno h (by simpa [h] using ha)
    have hfoc : new.isFocused → n.isFocused = w.isFocused :=
      fun h => keepFocused hw hl h (by simpa [h] using hf)
    simp only [blend_of_get hl, mem_cons, exists_eq_or_imp, Workspace.mk.injEq, true_and,
      and_true]
    exact ⟨ite_or_of_imp fun h => hact h.1 h.2.symm, ite_or_of_imp hfoc⟩

include ho ht hkeys in
/-- The events of the loop carry the signalled part of the map along. -/
theorem incremental_applyAll {news : List Workspace} (done : List Workspace) {events : List Event}
    (he : incrementalEvents old news = some events)
    (hnews : ∀ n ∈ news, target.get n.id = some n) :
    applyAll WorkspacesState.apply ⟨old.mapValues (blend target done done done)⟩ events =
      some ⟨old.mapValues (blend target (news.reverse ++ done) (news.reverse ++ done)
        (news.reverse ++ done))⟩ := by
  induction news generalizing done events with
  | nil =>
    cases he
    rfl
  | cons new news ih =>
    unfold incrementalEvents at he
    split at he
    · cases he
    · rename_i ipcWs hi
      split at he
      · cases he
      · obtain ⟨tail, htail, rfl⟩ := of_map he
        have hn := hnews new (by simp)
        have hrest := ih (new :: done) htail (fun n h => hnews n (by simp [h]))
        simp only [workspaceEvents, applyAll_append, blend_windows_step ho ht hkeys hi hn,
          blend_urgency_step ho ht hkeys hi hn, blend_activation_step ho ht hkeys hi hn,
          bind_some, hrest]
        simp

theorem incremental_same {news : List Workspace} {events : List Event}
    (he : incrementalEvents old news = some events) (hn : n ∈ news) :
    ∃ w, old.get n.id = some w ∧ w.idx = n.idx ∧ w.name = n.name ∧ w.output = n.output := by
  induction news generalizing events with
  | nil => simp at hn
  | cons new news ih =>
    unfold incrementalEvents at he
    split at he
    · cases he
    · rename_i ipcWs hi
      split at he
      · cases he
      · rename_i hsame
        obtain ⟨tail, htail, rfl⟩ := of_map he
        rcases mem_cons.mp hn with rfl | hn
        · simp only [needsFull, ne_eq, Bool.or_eq_true, decide_eq_true_eq, not_or, not_not] at hsame
          exact ⟨ipcWs, hi, hsame.1.1, hsame.1.2, hsame.2⟩
        · exact ih htail hn

end Incremental

/-- With no workspace added, removed, renamed, moved or reordered, the individual
events alone rebuild the new map. -/
theorem incremental_target {old : HashMap ℕ Workspace} {news : List Workspace}
    {events : List Event} (hn : (news.map Workspace.id).Nodup) (ho : Coherent old)
    (ht : Coherent (HashMap.collect Workspace.id news))
    (hp : Populated (HashMap.collect Workspace.id news))
    (he : incrementalEvents old news = some events)
    (hseen : ∀ id ∈ old.keys, id ∈ news.map Workspace.id) :
    applyAll WorkspacesState.apply ⟨old⟩ events =
      some ⟨HashMap.collect Workspace.id news⟩ := by
  have hget : ∀ n ∈ news, (HashMap.collect Workspace.id news).get n.id = some n :=
    fun n h => (get_collect hn).mpr ⟨h, rfl⟩
  have hsame : ∀ {k w}, old.get k = some w → ∃ n ∈ news, n.id = k ∧
      w.idx = n.idx ∧ w.name = n.name ∧ w.output = n.output := by
    intro k w hw
    obtain ⟨n, hnm, rfl⟩ := List.mem_map.mp (hseen k (mem_keys_iff.mpr ⟨w, hw⟩))
    obtain ⟨w', hw', h⟩ := incremental_same he hnm
    obtain rfl : w = w' := some.inj (hw.symm.trans hw')
    exact ⟨n, hnm, rfl, h⟩
  have hkeys : ∀ {k w}, old.get k = some w →
      ∃ n, (HashMap.collect Workspace.id news).get k = some n ∧ n.output = w.output := by
    intro k w hw
    obtain ⟨n, hnm, rfl, -, -, ho⟩ := hsame hw
    exact ⟨n, hget n hnm, ho.symm⟩
  have hrun := incremental_applyAll ho ht hkeys [] he hget
  rw [mapValues_eq_self (fun k w _ => blend_nil)] at hrun
  rw [hrun]
  simp only [append_nil, some.injEq, WorkspacesState.mk.injEq]
  apply HashMap.ext_get
  intro k
  rw [get_mapValues]
  cases hw : old.get k with
  | none =>
    cases hl : (HashMap.collect Workspace.id news).get k with
    | none => rfl
    | some n =>
      obtain ⟨hnm, rfl⟩ := (get_collect hn).mp hl
      obtain ⟨w, hw', -⟩ := incremental_same he hnm
      simp [hw] at hw'
  | some w =>
    obtain ⟨n, hnm, rfl, hidx, hname, hout⟩ := hsame hw
    have hid := ho.key_id hw
    have hl := hget n hnm
    rw [hl, map_some, blend_of_get (hid ▸ hl)]
    -- A workspace without an output is active neither before nor after.
    have hnone : w.output = none → w.isActive = n.isActive ∧ w.isFocused = n.isFocused := by
      intro h
      have hwa : ¬ w.isActive := fun ha => ho.active_output hw ha h
      have hna : ¬ n.isActive := fun ha => ht.active_output hl ha (hout ▸ h)
      have hwf := mt (ho.focused_active hw) hwa
      have hnf := mt (ht.focused_active hl) hna
      simp_all
    have hact : (if ∃ a ∈ news.reverse, a.isActive ∧ a.output = w.output then n.isActive
        else w.isActive) = n.isActive := by
      by_cases h : w.output = none
      · rw [(hnone h).1, ite_self]
      · obtain ⟨k', a, ha, hactive, haout⟩ := hp.active_exists hl (hout ▸ h)
        have hmem := ((get_collect hn).mp ha).1
        exact if_pos ⟨a, by simpa using hmem, hactive, by rw [haout, hout]⟩
    have hfoc : (if ∃ a ∈ news.reverse, a.isFocused then n.isFocused else w.isFocused) =
        n.isFocused := by
      by_cases h : w.output = none
      · rw [(hnone h).2, ite_self]
      · obtain ⟨k', a, ha, hfocused⟩ := hp.focused_exists hl (hout ▸ h)
        have hmem := ((get_collect hn).mp ha).1
        exact if_pos ⟨a, by simpa using hmem, hfocused⟩
    rw [hact, hfoc]
    simp [hnm, hid, hidx, hname, hout]

/-- What holds of every layout: workspace ids are unique, outputs are told apart
by their connector names, and the active indices are in range. -/
def LayoutView.Valid (layout : LayoutView) : Prop :=
  (layout.workspaces.map fun (_, _, ws) => ws.id).Nodup ∧
  match layout with
  | .normal monitors activeMonitorIdx =>
    (monitors.map MonitorView.outputName).Nodup ∧
    (∀ mon ∈ monitors, mon.activeWorkspaceIdx < mon.workspaces.length) ∧
    activeMonitorIdx < monitors.length
  | .noOutputs _ => True

instance (layout : LayoutView) : Decidable layout.Valid :=
  match layout with
  | .normal _ _ => inferInstanceAs (Decidable (_ ∧ _ ∧ _ ∧ _))
  | .noOutputs _ => inferInstanceAs (Decidable (_ ∧ True))

section Snapshot

variable {layout : LayoutView} {w : Workspace} {k : ℕ}

def LayoutView.mirror (layout : LayoutView) : HashMap ℕ Workspace :=
  HashMap.collect Workspace.id layout.ipcWorkspaces

theorem ipcWorkspaces_ids (layout : LayoutView) :
    layout.ipcWorkspaces.map Workspace.id = layout.workspaces.map fun (_, _, ws) => ws.id := by
  simp [LayoutView.ipcWorkspaces, makeIpcWorkspace]

theorem ipcWorkspaces_nodup (h : layout.Valid) :
    (layout.ipcWorkspaces.map Workspace.id).Nodup := by
  rw [ipcWorkspaces_ids]
  exact h.1

theorem get_mirror (h : layout.Valid) : layout.mirror.get k = some w ↔
    ∃ e ∈ layout.workspaces, e.2.2.id = k ∧ w = makeIpcWorkspace layout.focusedWsId e := by
  rw [LayoutView.mirror, get_collect (ipcWorkspaces_nodup h)]
  simp only [LayoutView.ipcWorkspaces, List.mem_map]
  constructor
  · rintro ⟨⟨e, he, rfl⟩, rfl⟩
    exact ⟨e, he, rfl, rfl⟩
  · rintro ⟨e, he, rfl, rfl⟩
    exact ⟨⟨e, he, rfl⟩, rfl⟩

/-- An entry of the layout is determined by its workspace id. -/
theorem entry_unique (h : layout.Valid) {e e' : Option MonitorView × ℕ × WorkspaceView}
    (he : e ∈ layout.workspaces) (he' : e' ∈ layout.workspaces)
    (hid : e.2.2.id = e'.2.2.id) : e = e' :=
  inj_on_of_nodup_map h.1 he he' hid

theorem mem_workspaces_normal {monitors : List MonitorView} {a : ℕ}
    {e : Option MonitorView × ℕ × WorkspaceView} :
    e ∈ (LayoutView.normal monitors a).workspaces ↔
      ∃ mon ∈ monitors, e.1 = some mon ∧ mon.workspaces[e.2.1]? = some e.2.2 := by
  obtain ⟨m, i, ws⟩ := e
  simp only [LayoutView.workspaces, mem_flatMap, List.mem_map, Prod.exists, Prod.mk.injEq,
    mem_zipIdx_iff_getElem?]
  constructor
  · rintro ⟨mon, hm, ws', i', hws, rfl, rfl, rfl⟩
    exact ⟨mon, hm, rfl, by simpa using hws⟩
  · rintro ⟨mon, hm, rfl, hws⟩
    exact ⟨mon, hm, ws, i, by simpa using hws, rfl, rfl, rfl⟩

theorem mem_workspaces_noOutputs {workspaces : List WorkspaceView}
    {e : Option MonitorView × ℕ × WorkspaceView}
    (he : e ∈ (LayoutView.noOutputs workspaces).workspaces) : e.1 = none := by
  obtain ⟨m, i, ws⟩ := e
  simp only [LayoutView.workspaces, List.mem_map, Prod.exists, Prod.mk.injEq] at he
  obtain ⟨_, _, _, rfl, _⟩ := he
  rfl

/-- The focused workspace is the active workspace of some connected monitor. -/
theorem focused_entry (h : layout.Valid) {e : Option MonitorView × ℕ × WorkspaceView}
    (he : e ∈ layout.workspaces) (hf : some e.2.2.id = layout.focusedWsId) :
    ∃ mon, e.1 = some mon ∧ mon.activeWorkspaceIdx = e.2.1 := by
  cases layout with
  | noOutputs workspaces => simp [LayoutView.focusedWsId, LayoutView.activeWorkspace] at hf
  | normal monitors a =>
    obtain ⟨hnames, hidx, ha⟩ := h.2
    have hmon := getElem?_eq_getElem ha
    have hmem := getElem_mem ha
    have hws := getElem?_eq_getElem (hidx _ hmem)
    simp only [LayoutView.focusedWsId, LayoutView.activeWorkspace, hmon, bind_eq_bind,
      bind_some, hws, map_some, some.injEq] at hf
    have hactive : (some monitors[a], monitors[a].activeWorkspaceIdx, _) ∈
        (LayoutView.normal monitors a).workspaces :=
      mem_workspaces_normal.mpr ⟨_, hmem, rfl, hws⟩
    obtain rfl := entry_unique h he hactive hf
    exact ⟨_, rfl, rfl⟩

theorem coherent_mirror (h : layout.Valid) : Coherent layout.mirror where
  key_id := by
    intro k w hw
    obtain ⟨e, -, rfl, rfl⟩ := (get_mirror h).mp hw
    rfl
  active_unique := by
    intro k k' w w' hw hw' ha ha' hout
    obtain ⟨e, he, rfl, rfl⟩ := (get_mirror h).mp hw
    obtain ⟨e', he', rfl, rfl⟩ := (get_mirror h).mp hw'
    cases layout with
    | noOutputs workspaces =>
      have := mem_workspaces_noOutputs he
      simp [makeIpcWorkspace, isActiveOn, this] at ha
    | normal monitors a =>
      obtain ⟨mon, hm, hmon, hws⟩ := mem_workspaces_normal.mp he
      obtain ⟨mon', hm', hmon', hws'⟩ := mem_workspaces_normal.mp he'
      simp only [makeIpcWorkspace, isActiveOn, hmon, hmon', any_some, beq_iff_eq,
        map_some, some.injEq] at ha ha' hout
      obtain rfl := inj_on_of_nodup_map h.2.1 hm hm' hout
      rw [← ha] at hws
      rw [← ha', hws] at hws'
      rw [some.inj hws']
  focused_unique := by
    intro k k' w w' hw hw' hf hf'
    obtain ⟨e, he, rfl, rfl⟩ := (get_mirror h).mp hw
    obtain ⟨e', he', rfl, rfl⟩ := (get_mirror h).mp hw'
    simp only [makeIpcWorkspace, decide_eq_true_eq] at hf hf'
    exact some.inj (hf.trans hf'.symm)
  focused_active := by
    intro k w hw hf
    obtain ⟨e, he, rfl, rfl⟩ := (get_mirror h).mp hw
    simp only [makeIpcWorkspace, decide_eq_true_eq] at hf
    obtain ⟨mon, hmon, ha⟩ := focused_entry h he hf
    simp [makeIpcWorkspace, isActiveOn, hmon, ha]
  active_output := by
    intro k w hw ha
    obtain ⟨e, he, rfl, rfl⟩ := (get_mirror h).mp hw
    obtain ⟨m, i, ws⟩ := e
    cases m with
    | none => simp [makeIpcWorkspace, isActiveOn] at ha
    | some mon => simp [makeIpcWorkspace]

theorem populated_mirror (h : layout.Valid) : Populated layout.mirror where
  active_exists := by
    intro k w hw hout
    obtain ⟨e, he, rfl, rfl⟩ := (get_mirror h).mp hw
    cases layout with
    | noOutputs workspaces =>
      have := mem_workspaces_noOutputs he
      simp [makeIpcWorkspace, this] at hout
    | normal monitors a =>
      obtain ⟨mon, hm, hmon, -⟩ := mem_workspaces_normal.mp he
      have hws := getElem?_eq_getElem (h.2.2.1 mon hm)
      refine ⟨_, _, (get_mirror h).mpr ⟨(some mon, mon.activeWorkspaceIdx, _),
        mem_workspaces_normal.mpr ⟨mon, hm, rfl, hws⟩, rfl, rfl⟩, ?_, ?_⟩
      · simp [makeIpcWorkspace, isActiveOn]
      · simp [makeIpcWorkspace, hmon]
  focused_exists := by
    intro k w hw hout
    obtain ⟨e, he, rfl, rfl⟩ := (get_mirror h).mp hw
    cases layout with
    | noOutputs workspaces =>
      have := mem_workspaces_noOutputs he
      simp [makeIpcWorkspace, this] at hout
    | normal monitors a =>
      obtain ⟨-, hidx, ha⟩ := h.2
      have hmem := getElem_mem ha
      have hws := getElem?_eq_getElem (hidx _ hmem)
      refine ⟨_, _, (get_mirror h).mpr ⟨(some monitors[a], monitors[a].activeWorkspaceIdx, _),
        mem_workspaces_normal.mpr ⟨_, hmem, rfl, hws⟩, rfl, rfl⟩, ?_⟩
      simp [makeIpcWorkspace, LayoutView.focusedWsId, LayoutView.activeWorkspace,
        getElem?_eq_getElem ha, hws]

end Snapshot

theorem coherent_empty : Coherent ∅ := by
  constructor <;> intros <;> simp_all

/-- One refresh from any coherent map, whichever of the two paths it takes. -/
theorem refreshWorkspaces_mirror {old : HashMap ℕ Workspace} {layout : LayoutView}
    (ho : Coherent old) (h : layout.Valid) :
    refreshWorkspaces ⟨old⟩ layout = some ⟨layout.mirror⟩ := by
  have hfull : applyAll WorkspacesState.apply ⟨old⟩ [.workspacesChanged layout.ipcWorkspaces] =
      some ⟨layout.mirror⟩ := rfl
  unfold refreshWorkspaces refreshWorkspacesEvents
  cases he : incrementalEvents old layout.ipcWorkspaces with
  | none => simpa only [he] using hfull
  | some events =>
    simp only
    split_ifs with hremoved
    · exact hfull
    · push Not at hremoved
      exact incremental_target (ipcWorkspaces_nodup h) ho (coherent_mirror h)
        (populated_mirror h) he hremoved

/-- After any sequence of refreshes the server's map is the one built directly
from the last layout, and a full `WorkspacesChanged` would have given the same. -/
theorem refreshWorkspaces_run_mirrors (layouts : List LayoutView) (layout : LayoutView)
    (h : ∀ l ∈ layouts ++ [layout], l.Valid) :
    ∃ prev, run refreshWorkspaces ⟨∅⟩ layouts = some prev ∧
      run refreshWorkspaces ⟨∅⟩ (layouts ++ [layout]) = some ⟨layout.mirror⟩ ∧
      prev.apply (.workspacesChanged layout.ipcWorkspaces) = some (⟨layout.mirror⟩, none) := by
  obtain ⟨⟨m⟩, hm, hc⟩ := run_total (I := fun st => Coherent st.workspaces)
    (P := LayoutView.Valid) (s := ⟨∅⟩)
    (fun _ l hc hl => ⟨_, refreshWorkspaces_mirror hc hl, coherent_mirror hl⟩)
    coherent_empty (fun l hl => h l (mem_append_left _ hl))
  have hl := h layout (by simp)
  refine ⟨⟨m⟩, hm, ?_, rfl⟩
  simp [run_append, hm, refreshWorkspaces_mirror hc hl]

/-- Two outputs with two workspaces each, the given ones active. -/
def twoOutputs (left right active : ℕ) : LayoutView :=
  .normal
    [⟨"DP-1", left, [⟨1, some "web", false, some 10⟩, ⟨2, none, true, none⟩]⟩,
     ⟨"DP-2", right, [⟨3, none, false, some 11⟩, ⟨4, none, false, none⟩]⟩] active

theorem refreshWorkspaces_run_twoOutputs :
    ∃ prev, run refreshWorkspaces ⟨∅⟩ [twoOutputs 0 0 0] = some prev ∧
      run refreshWorkspaces ⟨∅⟩ ([twoOutputs 0 0 0] ++ [twoOutputs 1 1 1]) =
        some ⟨(twoOutputs 1 1 1).mirror⟩ ∧
      prev.apply (.workspacesChanged (twoOutputs 1 1 1).ipcWorkspaces) =
        some (⟨(twoOutputs 1 1 1).mirror⟩, none) :=
  refreshWorkspaces_run_mirrors [twoOutputs 0 0 0] (twoOutputs 1 1 1) (by decide)

end Macniri.Ipc
