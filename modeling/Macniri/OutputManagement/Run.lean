import Macniri.OutputManagement.Frame
import Macniri.OutputManagement.Mirror

/-! Over whole runs, every client of wlr-output-management sees the true state of the outputs. -/
namespace Macniri.OutputManagement

open Option HashMap

open Function (update)

/-- The state that was passed to `notify_changes` last. -/
def lastState (actions : List (IterOrder × Action)) : HashMap ℕ Output :=
  actions.foldl (fun state action => match action.2 with
    | .notifyChanges newState => newState
    | _ => state) ∅

/-- Changes of the state, with a current mode that exists, and clients that bind one manager each. -/
def Admissible (st : OutputManagementManagerState) (action : IterOrder × Action) : Prop :=
  match action.2 with
  | .notifyChanges newState => ∀ o conf, newState.get o = some conf →
      ∀ i, conf.currentMode = some i → i < conf.modes.length
  | .bind client _ => (st.clients client).managers = ∅
  | _ => False

/-- Every output keeps its number of modes, or is disabled now, or keeps the index of its current
mode; and the refresh rates fit in an `i32`. -/
def Followed (st : OutputManagementManagerState) (action : IterOrder × Action) : Prop :=
  match action.2 with
  | .notifyChanges newState => ∀ o conf, newState.get o = some conf →
      (∀ mode ∈ conf.modes, mode.refreshRate < 2 ^ 31) ∧
        ∀ old, st.currentState.get o = some old → Follows old conf
  | _ => True

/-- What a client is told about two states is the same. -/
def Agree (cur new : ℕ → Option Output) : Prop :=
  ∀ o, (new o).isSome = (cur o).isSome ∧ ∀ old conf, cur o = some old → new o = some conf →
    conf.modes = old.modes ∧ conf.currentMode = old.currentMode ∧
      conf.vrrEnabled = old.vrrEnabled ∧ ∀ l, conf.logical = some l → old.logical = some l

theorem Agree.refl (cur : ℕ → Option Output) : Agree cur cur := by
  refine fun o => ⟨rfl, fun old conf hold hconf => ?_⟩
  obtain rfl := some.inj (hold.symm.trans hconf)
  exact ⟨rfl, rfl, rfl, fun l h => h⟩

namespace Client

variable {c : Client} {cur new : ℕ → Option Output} {o : ℕ} {old conf : Output}

theorem Tracks.agree (ht : c.Tracks cur) (h : Agree cur new) : c.Tracks new := by
  obtain ⟨d, hd, ht⟩ := ht
  refine ⟨d, hd, { ht with dom := fun o => ?_, shown := fun o head modes conf hget hnew => ?_ }⟩
  · rw [ht.dom o, (h o).1]
  · obtain ⟨old, hold⟩ : ∃ old, cur o = some old := by
      rw [← isSome_iff_exists, ← (h o).1, hnew]
      rfl
    obtain ⟨hmodes, hcurrent, hvrr, hlogical⟩ := (h o).2 old conf hold hnew
    exact (ht.shown o head modes old hget hold).congr hmodes hcurrent hvrr hlogical

/-- Events that are not about heads or modes do not change what a client knows of them. -/
theorem Tracks.send_other {events : List Event} (ht : c.Tracks cur)
    (hevents : ∀ e ∈ events, e.objects = []) : (c.send events).Tracks cur := by
  obtain ⟨d, hd, ht⟩ := ht
  have hview : c.view.apply events = c.view := by
    unfold View.apply
    congr 1
    · funext h
      exact foldl_next_of_objects_nil hevents
    · funext m
      exact ModeView.foldl_of_notMem fun e he => by simp [hevents e he]
  refine ⟨d, hd, ?_⟩
  rw [view_send, hview]
  exact ht

@[simp] theorem send_nil : c.send [] = c := by simp [send]

/-- Where nothing changed, nothing is sent. -/
theorem notifyOutput_of_not_changed (h : outputChanged old conf = false) :
    c.notifyOutput o old conf = c := by
  simp only [outputChanged, Bool.or_eq_false_iff, bne_eq_false_iff_eq] at h
  obtain ⟨⟨⟨hvrr, hmodes⟩, hcurrent⟩, hlogical⟩ := h
  have hc : c.notifyCurrentMode o old conf = c := by
    unfold notifyCurrentMode
    cases hhead : c.head o with
    | none => rfl
    | some entry =>
      dsimp only
      cases hold : old.currentMode <;> cases hconf : conf.currentMode <;>
        simp_all
  have hl : c.notifyLogical o old conf = c := by
    unfold notifyLogical
    cases hhead : c.head o with
    | none => rfl
    | some entry =>
      dsimp only
      cases hold : old.logical <;> cases hconf : conf.logical <;> simp_all [movedEvents]
  unfold notifyOutput
  simp only [hvrr, hmodes, ne_eq, not_true_eq_false, if_false, hc, hl]

/-- A client without a manager is not sent anything. -/
theorem notifyEntry_of_data_none {currentState : HashMap ℕ Output} (h : c.data = none) :
    c.notifyEntry currentState o conf = c := by
  have hhead : c.head o = none := by simp [head, h]
  unfold notifyEntry
  split
  · simp [notifyOutput, notifyVrr, notifyModes, notifyCurrentMode, notifyLogical, hhead]
  · simp [notifyNewHead, h]

theorem notifyGone_of_data_none {newState : HashMap ℕ Output} (h : c.data = none) :
    c.notifyGone newState o = c := by
  simp [notifyGone, notifyRemovedHead, head, h]

end Client

section Foldl

variable {α β : Type} {f : α → β → α} {a : α} {xs : List β}

theorem foldl_eq_self (h : ∀ x ∈ xs, f a x = a) : xs.foldl f a = a := by
  induction xs with
  | nil => rfl
  | cons x xs ih =>
    rw [List.foldl_cons, h x (by simp)]
    exact ih fun y hy => h y (by simp [hy])

end Foldl

namespace OutputManagementManagerState

variable {st st' : OutputManagementManagerState} {ord : IterOrder} {newState : HashMap ℕ Output}
variable {c : Client}

theorem notifyClient_of_data_none (h : c.data = none) : st.notifyClient ord newState c = c := by
  have hentries : (ord.iter newState).foldl
      (fun c e => c.notifyEntry st.currentState e.1 e.2) c = c :=
    foldl_eq_self fun e _ => Client.notifyEntry_of_data_none h
  unfold notifyClient
  rw [hentries]
  exact foldl_eq_self fun e _ => Client.notifyGone_of_data_none h

theorem not_changed (h : stateChanged ord st.currentState newState = false) :
    (∀ o conf, newState.get o = some conf →
      ∃ old, st.currentState.get o = some old ∧ outputChanged old conf = false) ∧
    ∀ o old, st.currentState.get o = some old → (newState.get o).isSome := by
  simp only [stateChanged, Bool.or_eq_false_iff, List.any_eq_false] at h
  obtain ⟨hnew, hold⟩ := h
  constructor
  · intro o conf hget
    have := hnew ⟨o, conf⟩ ((mem_iter ord).mpr hget)
    cases hcur : st.currentState.get o with
    | none => simp [hcur] at this
    | some old => exact ⟨old, rfl, by simpa [hcur] using this⟩
  · intro o old hget
    have := hold ⟨o, old⟩ ((mem_iter ord).mpr hget)
    simpa [isSome_iff_ne_none] using this

theorem notifyClient_of_not_changed (h : stateChanged ord st.currentState newState = false) :
    st.notifyClient ord newState c = c := by
  obtain ⟨hnew, hold⟩ := not_changed h
  have hentries : (ord.iter newState).foldl
      (fun c e => c.notifyEntry st.currentState e.1 e.2) c = c := by
    refine foldl_eq_self fun e he => ?_
    obtain ⟨old, hget, hsame⟩ := hnew e.1 e.2 ((mem_iter ord).mp he)
    simp only [Client.notifyEntry, hget]
    exact Client.notifyOutput_of_not_changed hsame
  unfold notifyClient
  rw [hentries]
  refine foldl_eq_self fun e he => ?_
  have hsome := hold e.1 e.2 ((mem_iter ord).mp he)
  simp [Client.notifyGone, isSome_iff_ne_none.mp hsome]

theorem agree_of_not_changed (h : stateChanged ord st.currentState newState = false)
    (hf : ∀ o conf, newState.get o = some conf →
      ∀ old, st.currentState.get o = some old → Follows old conf) :
    Agree st.currentState.get newState.get := by
  obtain ⟨hnew, hold⟩ := not_changed h
  intro o
  refine ⟨?_, fun old conf hcur hget => ?_⟩
  · rw [Bool.eq_iff_iff]
    constructor
    · intro hsome
      obtain ⟨conf, hconf⟩ := isSome_iff_exists.mp hsome
      obtain ⟨old, hcur, -⟩ := hnew o conf hconf
      simp [hcur]
    · intro hsome
      obtain ⟨old, hcur⟩ := isSome_iff_exists.mp hsome
      exact hold o old hcur
  · obtain ⟨old', hcur', hsame⟩ := hnew o conf hget
    obtain rfl := some.inj (hcur.symm.trans hcur')
    have hfollows := hf o conf hget old hcur
    simp only [outputChanged, Bool.or_eq_false_iff, bne_eq_false_iff_eq] at hsame
    obtain ⟨⟨⟨hvrr, hmodes⟩, hcurrent⟩, hlogical⟩ := hsame
    refine ⟨hmodes.symm, ?_, hvrr.symm, fun l hl => ?_⟩
    · cases hc : old.currentMode <;> cases hc' : conf.currentMode <;> simp_all
    · cases hc : old.logical <;> simp_all

/-! Binding a manager. -/

theorem tracks_sendNewHeads (entries : List (Σ _ : ℕ, Output)) {d : ClientData}
    {cur : ℕ → Option Output} (ht : d.Tracks c.view c.nextObject cur)
    (hn : (entries.map Sigma.fst).Nodup) (hcur : ∀ e ∈ entries, cur e.1 = none)
    (hnew : ∀ e ∈ entries, e.2.Valid) :
    let out := entries.foldl (fun (c, d) e => sendNewHead c d e.1 e.2) (c, d)
    out.2.Tracks out.1.view out.1.nextObject
      (entries.foldl (fun cur e => update cur e.1 (some e.2)) cur) := by
  induction entries generalizing c d cur with
  | nil => exact ht
  | cons e entries ih =>
    obtain ⟨he, hn⟩ := List.nodup_cons.mp hn
    have hfirst := Client.tracks_sendNewHead ht (hcur e (by simp)) (hnew e (by simp))
    refine ih hfirst hn (fun e' he' => ?_) (fun e' he' => hnew e' (by simp [he']))
    have hne : e'.1 ≠ e.1 := fun heq => he (heq ▸ List.mem_map_of_mem he')
    exact (Function.update_of_ne hne ..).trans (hcur e' (by simp [he']))

theorem managers_sendNewHeads (entries : List (Σ _ : ℕ, Output)) (c : Client) (d : ClientData) :
    (entries.foldl (fun (c, d) e => sendNewHead c d e.1 e.2) (c, d)).1.managers = c.managers := by
  induction entries generalizing c d with
  | nil => rfl
  | cons e entries ih => exact ih ..

/-- A client that did not bind a manager yet. -/
structure Fresh (c : Client) : Prop where
  managers : c.managers = ∅
  data : c.data = none
  log : c.log = []

/-- The invariant: a client that bound a manager knows the state that the next diff starts from, which
agrees with the last one. -/
structure InStep (actions : List (IterOrder × Action)) (st : OutputManagementManagerState) : Prop where
  valid : ∀ o conf, st.currentState.get o = some conf → conf.Valid
  agree : Agree st.currentState.get (lastState actions).get
  clients : ∀ client, Fresh (st.clients client) ∨
    (st.clients client).managers ≠ ∅ ∧ (st.clients client).Tracks st.currentState.get

variable {actions : List (IterOrder × Action)}

theorem inStep_new {config : List OutputConfig} : InStep [] (new config) :=
  ⟨by simp [new], .refl _, fun _ => .inl ⟨rfl, rfl, rfl⟩⟩

theorem lastState_concat {action : IterOrder × Action} :
    lastState (actions ++ [action]) = match action.2 with
      | .notifyChanges newState => newState
      | _ => lastState actions := by
  simp [lastState]

theorem tracks_notifyDone {cur : ℕ → Option Output} {serial : ℕ} (ht : c.Tracks cur) :
    (c.notifyDone ord serial).Tracks cur := by
  unfold Client.notifyDone
  split
  · exact ht
  · refine ht.send_other fun e he => ?_
    rcases List.mem_cons.mp he with rfl | he
    · rfl
    · obtain ⟨e, -, rfl⟩ := List.mem_map.mp he
      rfl

theorem managers_notifyDone {serial : ℕ} : (c.notifyDone ord serial).managers = c.managers := by
  unfold Client.notifyDone
  split <;> rfl

theorem inStep_notifyChanges (hi : InStep actions st)
    (hrange : ∀ o conf, newState.get o = some conf →
      ∀ i, conf.currentMode = some i → i < conf.modes.length)
    (hf : ∀ o conf, newState.get o = some conf → (∀ mode ∈ conf.modes, mode.refreshRate < 2 ^ 31) ∧
      ∀ old, st.currentState.get o = some old → Follows old conf)
    (h : st.notifyChanges ord newState = some st') :
    InStep (actions ++ [(ord, .notifyChanges newState)]) st' := by
  have hvalid : ∀ o conf, newState.get o = some conf → conf.Valid :=
    fun o conf hget => ⟨hrange o conf hget, (hf o conf hget).1⟩
  have hfresh : ∀ client, Fresh (st.clients client) →
      st.notifyClient ord newState (st.clients client) = st.clients client :=
    fun client hc => notifyClient_of_data_none hc.data
  unfold notifyChanges at h
  dsimp only at h
  cases hchanged : stateChanged ord st.currentState newState with
  | true =>
    rw [if_pos hchanged] at h
    split at h
    · obtain rfl := some.inj h
      refine ⟨hvalid, by rw [lastState_concat]; exact .refl _, fun client => ?_⟩
      rcases hi.clients client with hc | ⟨hm, ht⟩
      · left
        dsimp only
        rw [hfresh client hc]
        simpa [Client.notifyDone, hc.data] using hc
      · right
        refine ⟨?_, tracks_notifyDone (Client.tracks_notifyClient ht hi.valid hvalid
          fun o old conf hold hget => (hf o conf hget).2 old hold)⟩
        rw [managers_notifyDone, (Client.same_notifyClient ..).managers]
        exact hm
    · cases h
  | false =>
    rw [if_neg (by simp [hchanged])] at h
    obtain rfl := some.inj h
    have hclients : (fun client => st.notifyClient ord newState (st.clients client)) =
        st.clients := funext fun client => notifyClient_of_not_changed hchanged
    rw [hclients]
    refine ⟨hi.valid, ?_, hi.clients⟩
    rw [lastState_concat]
    exact agree_of_not_changed hchanged fun o conf hget => (hf o conf hget).2

/-- A fresh client that binds a manager is told the whole state. -/
theorem tracks_bind {client version : ℕ} (hc : Fresh (st.clients client))
    (hvalid : ∀ o conf, st.currentState.get o = some conf → conf.Valid)
    (h : st.bind ord client version = some st') :
    (st'.clients client).managers ≠ ∅ ∧ (st'.clients client).Tracks st.currentState.get ∧
      st'.currentState = st.currentState ∧ ∀ k, k ≠ client → st'.clients k = st.clients k := by
  unfold bind at h
  dsimp only at h
  split at h
  · obtain rfl := some.inj h
    set c₀ : Client := { st.clients client with
      managers := (st.clients client).managers.insert (st.clients client).nextObject false
      nextObject := (st.clients client).nextObject + 1 } with hc₀
    set d₀ : ClientData := ⟨∅, ∅, ⟨(st.clients client).nextObject, version⟩⟩ with hd₀
    have hview : c₀.view = View.empty := by
      simp [Client.view, Client.events, hc₀, hc.log]
    have hstart : d₀.Tracks c₀.view c₀.nextObject fun _ => none := by
      rw [hview]
      refine ⟨?_, ?_, ?_, ?_, ?_, ?_, ?_⟩ <;> simp [hd₀, ClientData.objects, View.empty]
    have hheads := tracks_sendNewHeads (ord.iter st.currentState) hstart
      (nodup_keys_iter ord _) (fun _ _ => rfl)
      (fun e he => hvalid e.1 e.2 ((mem_iter ord).mp he))
    have hcur := Client.foldl_update_iter ord st.currentState fun _ => none
    simp only [or_none] at hcur
    rw [hcur] at hheads
    have hmanagers := managers_sendNewHeads (ord.iter st.currentState) c₀ d₀
    set out := (ord.iter st.currentState).foldl (fun (c, d) e => sendNewHead c d e.1 e.2) (c₀, d₀)
    refine ⟨?_, ?_, rfl, fun k hk => Function.update_of_ne hk ..⟩
    · simp only [setClient, Function.update_self]
      change out.1.managers ≠ ∅
      rw [hmanagers, hc₀]
      intro hempty
      have := congrArg (HashMap.get · (st.clients client).nextObject) hempty
      simp at this
    · simp only [setClient, Function.update_self]
      have ht : Client.Tracks { out.1 with data := some out.2 } st.currentState.get :=
        ⟨out.2, rfl, hheads⟩
      exact ht.send_other (by simp [Event.objects])
  · cases h

theorem inStep_step {action : IterOrder × Action} (hi : InStep actions st)
    (ha : Admissible st action) (hf : Followed st action) (h : st.step action = some st') :
    InStep (actions ++ [action]) st' := by
  obtain ⟨ord, action⟩ := action
  cases action with
  | notifyChanges newState => exact inStep_notifyChanges hi ha hf h
  | bind client version =>
    have hc : Fresh (st.clients client) := by
      rcases hi.clients client with hc | ⟨hm, -⟩
      · exact hc
      · exact absurd ha hm
    obtain ⟨hm, ht, hcur, hother⟩ := tracks_bind hc hi.valid h
    refine ⟨hcur ▸ hi.valid, ?_, fun k => ?_⟩
    · rw [lastState_concat, hcur]
      exact hi.agree
    · rw [hcur]
      by_cases hk : k = client
      · exact .inr ⟨hk ▸ hm, hk ▸ ht⟩
      · rw [hother k hk]
        exact hi.clients k
  | _ => cases ha

theorem mirrors_of_tracks {d : ClientData} {state : HashMap ℕ Output} (hd : c.data = some d)
    (ht : c.Tracks state.get) : c.view.Mirrors d.manager.version state := by
  obtain ⟨d', hd', ht⟩ := ht
  obtain rfl := some.inj (hd.symm.trans hd')
  have hget : ∀ o, (state.get o).isSome → ∃ head modes, d.heads.get o = some (head, modes) := by
    intro o ho
    rw [← ht.dom o, isSome_iff_exists] at ho
    obtain ⟨⟨head, modes⟩, hhead⟩ := ho
    exact ⟨head, modes, hhead⟩
  refine ⟨fun o => (d.heads.get o).elim 0 (·.1.id), ?_, ?_, ?_⟩
  · intro o o' ho ho' heq
    obtain ⟨head, modes, hhead⟩ := hget o ho
    obtain ⟨head', modes', hhead'⟩ := hget o' ho'
    simp only [hhead, hhead', elim_some] at heq
    by_contra hne
    refine ht.disjoint o o' hne head.id ?_ ?_
    · simp [ClientData.objects_of_get hhead]
    · simp [ClientData.objects_of_get hhead', heq]
  · intro h
    constructor
    · intro hlive
      obtain ⟨o, head, modes, hhead, rfl⟩ := ht.live h hlive
      refine ⟨o, ?_, by simp [hhead]⟩
      rw [← ht.dom o, hhead]
      rfl
    · rintro ⟨o, ho, rfl⟩
      obtain ⟨head, modes, hhead⟩ := hget o ho
      obtain ⟨conf, hconf⟩ := isSome_iff_exists.mp ho
      obtain ⟨hv, hlive, -⟩ := ht.shown o head modes conf hhead hconf
      simp [hhead, hlive]
  · intro o conf hconf
    obtain ⟨head, modes, hhead⟩ := hget o (by simp [hconf])
    obtain ⟨hv, hlive, -, hshows⟩ := ht.shown o head modes conf hhead hconf
    exact ⟨hv, by simpa [hhead] using hlive, ht.version o head modes hhead ▸ hshows⟩

/-- Whatever order the maps are iterated in, a client that has a manager sees the state of the outputs
that was reported last. -/
theorem view_mirrors_lastState {config : List OutputConfig} {client : ℕ} {d : ClientData}
    (hruns : AllAlong step (fun st action => Admissible st action ∧ Followed st action) (new config)
      actions)
    (hrun : run step (new config) actions = some st) (hd : (st.clients client).data = some d) :
    (st.clients client).view.Mirrors d.manager.version (lastState actions) := by
  have hi : InStep ([] ++ actions) st :=
    run_invariant_allAlong (fun ys s a t hs hp => inStep_step hs hp.1 hp.2) inStep_new hruns hrun
  rw [List.nil_append] at hi
  rcases hi.clients client with hc | ⟨-, ht⟩
  · rw [hc.data] at hd
    cases hd
  · exact mirrors_of_tracks hd (ht.agree hi.agree)

/-! A panel that gets a second mode. -/

def panel (modes : List Mode) (currentMode : ℕ) : Output where
  name := "eDP-1"
  make := "Unknown"
  model := "Unknown"
  serial := none
  physicalSize := none
  modes := modes
  currentMode := some currentMode
  vrrEnabled := false
  logical := none

def panelState (modes : List Mode) (currentMode : ℕ) : HashMap ℕ Output :=
  (∅ : HashMap ℕ Output).insert 0 (panel modes currentMode)

/-- A client binds a manager, and learns of a panel that then gets a second mode. -/
def grown (ord : IterOrder) (currentMode : ℕ) : List (IterOrder × Action) :=
  [(ord, .bind 0 4),
    (ord, .notifyChanges (panelState [⟨1920, 1080, 60000, true⟩] 0)),
    (ord, .notifyChanges
      (panelState [⟨1920, 1080, 60000, true⟩, ⟨1280, 720, 60000, false⟩] currentMode))]

theorem get_panelState {modes : List Mode} {currentMode o : ℕ} {conf : Output}
    (h : (panelState modes currentMode).get o = some conf) :
    o = 0 ∧ conf = panel modes currentMode := by
  rw [panelState, get_insert] at h
  split_ifs at h with ho
  · exact ⟨ho, (some.inj h).symm⟩
  · simp at h

/-- The client is told that the first mode is the current one, and of the second mode, but not that
this one is current now. -/
theorem run_grown (ord : IterOrder) (currentMode : ℕ) :
    ∃ st d hv, run step (new []) (grown ord currentMode) = some st ∧
      (st.clients 0).data = some d ∧ (st.clients 0).view.heads 2 = some hv ∧ hv.modes = [3, 4] ∧
      hv.currentMode = some 3 := by
  simp [grown, run, step, notifyChanges, notifyClient, stateChanged, iter_singleton,
    panelState, bind, new, setClient, Function.update, Client.initial, sendNewHead, Client.send,
    outputChanged, panel, Client.notifyEntry, Client.notifyNewHead, Client.notifyOutput,
    Client.notifyModes, Client.head, Client.notifyCurrentMode, Client.notifyLogical,
    Client.notifyGone, Client.notifyDone, Client.setModes, newHeadEvents, newModesEvents]
  exact ⟨_, rfl, rfl, rfl⟩

theorem admissible_grown (ord : IterOrder) {currentMode : ℕ} (h : currentMode < 2) :
    AllAlong step Admissible (new []) (grown ord currentMode) := by
  have hrange : ∀ modes i, i < modes.length → ∀ o conf, (panelState modes i).get o = some conf →
      ∀ j, conf.currentMode = some j → j < conf.modes.length := by
    intro modes i hi o conf hget j hj
    obtain ⟨-, rfl⟩ := get_panelState hget
    obtain rfl := some.inj hj
    exact hi
  exact ⟨rfl, fun _ _ => ⟨hrange _ _ (by decide), fun _ _ => ⟨hrange _ _ (by simpa using h),
    fun _ _ => trivial⟩⟩⟩

theorem currentState_notifyChanges (h : st.notifyChanges ord newState = some st') :
    st'.currentState = newState ∨ st'.currentState = st.currentState := by
  unfold notifyChanges at h
  dsimp only at h
  split_ifs at h <;> obtain rfl := some.inj h
  · exact .inl rfl
  · exact .inr rfl

theorem currentState_bind {client version : ℕ} (h : st.bind ord client version = some st') :
    st'.currentState = st.currentState := by
  unfold bind at h
  dsimp only at h
  split at h
  · obtain rfl := some.inj h
    rfl
  · cases h

/-- If the first mode stays the current one, the client misses nothing. -/
theorem followed_grown (ord : IterOrder) : AllAlong step Followed (new []) (grown ord 0) := by
  have hrates : ∀ modes i, (∀ mode ∈ modes, mode.refreshRate < 2 ^ 31) → ∀ o conf,
      (panelState modes i).get o = some conf → ∀ mode ∈ conf.modes, mode.refreshRate < 2 ^ 31 := by
    intro modes i hmodes o conf hget
    obtain ⟨-, rfl⟩ := get_panelState hget
    exact hmodes
  refine ⟨trivial, fun st hst => ⟨fun o conf hget => ⟨hrates _ _ (by decide) o conf hget, ?_⟩,
    fun st' hst' => ⟨fun o conf hget => ⟨hrates _ _ (by decide) o conf hget, ?_⟩, fun _ _ => trivial⟩⟩⟩
  all_goals
    intro old hold
    have hbind : (new []).bind ord 0 4 = some st := hst
    have hcur := currentState_bind hbind
  · rw [hcur] at hold
    simp [new] at hold
  · have hnotify : st.notifyChanges ord (panelState [⟨1920, 1080, 60000, true⟩] 0) = some st' := hst'
    rcases currentState_notifyChanges hnotify with h | h
    · rw [h] at hold
      obtain ⟨-, rfl⟩ := get_panelState hold
      obtain ⟨-, rfl⟩ := get_panelState hget
      exact .inr (.inr rfl)
    · rw [h, hcur] at hold
      simp [new] at hold

theorem view_mirrors_lastState_grown : ∃ st d,
    run step (new []) (grown .arbitrary 0) = some st ∧ (st.clients 0).data = some d ∧
      (st.clients 0).view.Mirrors d.manager.version (lastState (grown .arbitrary 0)) := by
  obtain ⟨st, d, hv, hrun, hd, -⟩ := run_grown .arbitrary 0
  refine ⟨st, d, hrun, hd, view_mirrors_lastState ?_ hrun hd⟩
  exact (admissible_grown .arbitrary (by decide)).and (followed_grown .arbitrary)

theorem view_not_mirrors_lastState : ¬ ∀ (actions : List (IterOrder × Action))
    (st : OutputManagementManagerState) (client : ℕ) (d : ClientData),
    AllAlong step Admissible (new []) actions → run step (new []) actions = some st →
    (st.clients client).data = some d →
    (st.clients client).view.Mirrors d.manager.version (lastState actions) := by
  intro hall
  obtain ⟨st, d, hv, hrun, hd, hhead, hmodes, hcurrent⟩ := run_grown .arbitrary 1
  obtain ⟨obj, -, hlive, hshows⟩ := hall _ st 0 d (admissible_grown .arbitrary (by decide)) hrun hd
  -- The only live head is that of the panel.
  obtain ⟨o, ho, hobj⟩ := (hlive 2).mp (by simp [hhead])
  obtain ⟨conf, hconf⟩ := isSome_iff_exists.mp ho
  obtain ⟨hv', hhead', hshows⟩ := hshows o conf hconf
  obtain rfl := some.inj ((hobj ▸ hhead').symm.trans hhead)
  obtain ⟨-, rfl⟩ := get_panelState hconf
  have := hshows.currentMode 1 rfl (by decide)
  rw [hcurrent, hmodes] at this
  simp at this

end OutputManagementManagerState

end Macniri.OutputManagement
