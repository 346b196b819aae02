import Macniri.OutputManagement.Managers

/-! The managers of a client are independent as long as it has one at a time. -/
namespace Macniri.OutputManagement

open Option List HashMap

open Function (update)

namespace Client

variable {c c' : Client} {o : ℕ} {old conf : Output} {head : Head} {modes : List ℕ}
variable {events : List Event} {currentState newState : HashMap ℕ Output}

theorem head_notifyNewHead {o' : ℕ} (ho : o' ≠ o) : (c.notifyNewHead o conf).head o' = c.head o' := by
  cases hd : c.data with
  | none => simp [Client.notifyNewHead, hd]
  | some d =>
    simp only [Client.notifyNewHead, hd, Client.head, sendNewHead, bind_some]
    rw [get_insert, if_neg ho]

theorem head_notifyEntry {o' : ℕ} (ho : o' ≠ o) :
    (c.notifyEntry currentState o conf).head o' = c.head o' := by
  unfold notifyEntry
  split
  · cases hhead : c.head o with
    | none => rw [notifyOutput_of_head_none hhead]
    | some entry => exact (tells_notifyOutput hhead).other o' ho
  · exact head_notifyNewHead ho

theorem head_notifyGone {o' : ℕ} (ho : o' ≠ o) : (c.notifyGone newState o).head o' = c.head o' := by
  unfold Client.notifyGone Client.notifyRemovedHead
  split
  · split
    · rfl
    · cases hd : c.data <;> simp [Client.head, Client.send, hd, ho]
  · rfl

/-- Some loop over outputs comes to each of them, and leaves the heads of the others alone. -/
theorem foldl_split {f : Client → (Σ _ : ℕ, Output) → Client} (hsame : ∀ (c : Client) e, c.Same (f c e))
    (hhead : ∀ (c : Client) e o, o ≠ e.1 → (f c e).head o = c.head o)
    {entries : List (Σ _ : ℕ, Output)} (hn : (entries.map Sigma.fst).Nodup) {e : Σ _ : ℕ, Output}
    (he : e ∈ entries) : ∃ c₁, c₁.head e.1 = c.head e.1 ∧ c.Same c₁ ∧ (f c₁ e).Same (entries.foldl f c) := by
  induction entries generalizing c with
  | nil => cases he
  | cons e' entries ih =>
    obtain ⟨hnot, hn⟩ := nodup_cons.mp hn
    rcases mem_cons.mp he with rfl | he
    · exact ⟨c, rfl, .refl c, same_foldl hsame _⟩
    · have hne : e.1 ≠ e'.1 := fun heq => hnot (heq ▸ List.mem_map_of_mem he)
      obtain ⟨c₁, hget, h₁, h₂⟩ := ih (c := f c e') hn he
      exact ⟨c₁, hget.trans (hhead c e' e.1 hne), (hsame c e').trans h₁, h₂⟩

theorem head_foldl {f : Client → (Σ _ : ℕ, Output) → Client}
    (hhead : ∀ (c : Client) e o, o ≠ e.1 → (f c e).head o = c.head o)
    {entries : List (Σ _ : ℕ, Output)} (ho : o ∉ entries.map Sigma.fst) :
    (entries.foldl f c).head o = c.head o := by
  induction entries generalizing c with
  | nil => rfl
  | cons e entries ih =>
    simp only [map_cons, mem_cons, not_or] at ho
    rw [foldl_cons, ih ho.2, hhead c e o ho.1]

/-- The events are among those sent on the way from one client state to another. -/
def Sent (c c' : Client) (events : List Event) : Prop :=
  ∃ pre post, c'.log = c.log ++ (pre ++ events ++ post).map .event

theorem Sent.of_same {c₁ c₂ : Client} (h : c.Same c₁) (hlog : c₂.log = c₁.log ++ events.map .event)
    (h' : c₂.Same c') : c.Sent c' events := by
  obtain ⟨pre, hpre, -⟩ := h.log
  obtain ⟨post, hpost, -⟩ := h'.log
  exact ⟨pre, post, by simp [hpost, hlog, hpre]⟩

theorem Sent.subset (h : c.Sent c' events) {all : List Event}
    (hall : c'.log = c.log ++ all.map .event) : ∀ e ∈ events, e ∈ all := by
  obtain ⟨pre, post, hlog⟩ := h
  have heq := append_cancel_left (hlog.symm.trans hall)
  have hinj : Function.Injective Effect.event := fun _ _ h => Effect.event.inj h
  have hall' : pre ++ events ++ post = all := map_injective_iff.mpr hinj heq
  intro e he
  simp [← hall', he]

/-- What a manager is to be told about a change of the state: that it is complete, the heads of new
outputs, the end of those of outputs that are gone, and to its other heads, as they are kept, every
event of the diff. -/
structure Informed (c : Client) (m : ℕ) (cur new : ℕ → Option Output) (serial : ℕ)
    (events : List Event) : Prop where
  done : .done m serial ∈ events
  added : ∀ o conf, cur o = none → new o = some conf → ∃ manager head ids, Manager.id manager = m ∧
    ids.length = conf.modes.length ∧ ∀ e ∈ newHeadEvents manager head ids conf, e ∈ events
  removed : ∀ h o, c.Live m h o → new o = none → .headFinished h ∈ events
  changed : ∀ h o old conf, c.Live m h o → cur o = some old → new o = some conf →
    ∃ next head modes, c.head o = some (head, modes) ∧ head.id = h ∧
      (∀ id ∈ modes, .mode h id ∈ c.events) ∧ ∀ e ∈ outputChange next head modes old conf, e ∈ events

variable {ord : IterOrder} {st : OutputManagementManagerState} {m serial : ℕ}

theorem sent_entry (ord : IterOrder) (st : OutputManagementManagerState) (c : Client)
    {e : Σ _ : ℕ, Output} (he : newState.get e.1 = some e.2) :
    ∃ c₁, c₁.head e.1 = c.head e.1 ∧ c.Same c₁ ∧
      (c₁.notifyEntry st.currentState e.1 e.2).Same (st.notifyClient ord newState c) := by
  obtain ⟨c₁, hget, h₁, h₂⟩ := foldl_split (c := c)
    (f := fun c e => c.notifyEntry st.currentState e.1 e.2) (fun _ _ => same_notifyEntry)
    (fun _ _ _ ho => head_notifyEntry ho) (nodup_keys_iter ord newState)
    ((mem_iter ord).mpr he)
  exact ⟨c₁, hget, h₁, h₂.trans (same_foldl (fun _ _ => same_notifyGone) _)⟩

theorem sent_gone (ord : IterOrder) (c : Client) {old : Output} (hold : st.currentState.get o = some old)
    (hnew : newState.get o = none) :
    ∃ c₁, c₁.head o = c.head o ∧ c.Same c₁ ∧
      (c₁.notifyGone newState o).Same (st.notifyClient ord newState c) := by
  have hentry : (⟨o, old⟩ : Σ _ : ℕ, Output) ∈ ord.iter st.currentState :=
    (mem_iter ord).mpr hold
  have hnot : o ∉ (ord.iter newState).map Sigma.fst := by
    intro hmem
    obtain ⟨e, he, rfl⟩ := List.mem_map.mp hmem
    rw [(mem_iter ord).mp he] at hnew
    cases hnew
  obtain ⟨c₁, hget, h₁, h₂⟩ := foldl_split
    (c := (ord.iter newState).foldl (fun c e => c.notifyEntry st.currentState e.1 e.2) c)
    (f := fun c e => c.notifyGone newState e.1) (fun _ _ => same_notifyGone)
    (fun _ _ _ ho => head_notifyGone ho) (nodup_keys_iter ord st.currentState) hentry
  refine ⟨c₁, ?_, (same_foldl (fun _ _ => same_notifyEntry) _).trans h₁, h₂⟩
  rw [hget]
  exact head_foldl (fun c e o ho => head_notifyEntry ho) hnot

theorem ManagersInv.informed (h : c.ManagersInv st.currentState.get)
    (hm : c.managers.get m = some false) :
    ∃ events, ((st.notifyClient ord newState c).notifyDone ord serial).log =
      c.log ++ events.map .event ∧
      c.Informed m st.currentState.get newState.get serial events := by
  have hsame := same_notifyClient ord st newState c
  obtain ⟨events, hlog, -⟩ := hsame.log
  obtain ⟨d, hd, rfl⟩ := h.served m hm
  obtain ⟨d', hd', hmanager⟩ := data_of_manager (manager_of_data hsame.data) hd
  set done := Event.done d.manager.id serial :: (ord.iter d'.confs).map fun e => .cancelled e.1
    with hdone
  have hlog' : ((st.notifyClient ord newState c).notifyDone ord serial).log =
      c.log ++ (events ++ done).map .event := by
    rw [Client.notifyDone, hd', hdone, ← hmanager]
    simp [Client.send, hlog]
  have hmem : ∀ es, c.Sent (st.notifyClient ord newState c) es → ∀ e ∈ es, e ∈ events ++ done :=
    fun es hes e he => mem_append_left _ (hes.subset hlog e he)
  refine ⟨events ++ done, hlog', ⟨by simp [hdone], fun o conf hcur hnew => ?_,
    fun h' o hlive hnew => ?_, fun h' o old conf hlive hcur hnew => ?_⟩⟩
  · obtain ⟨c₁, hget, h₁, h₂⟩ := sent_entry ord st c (e := ⟨o, conf⟩) hnew
    obtain ⟨d₁, hd₁, hmanager₁⟩ := data_of_manager (manager_of_data h₁.data) hd
    refine ⟨d₁.manager, ⟨c₁.nextObject, d₁.manager.version⟩,
      List.range' (c₁.nextObject + 1) conf.modes.length, by rw [hmanager₁], by simp, ?_⟩
    refine hmem _ (.of_same h₁ ?_ h₂)
    simp only [notifyEntry, hcur, Client.notifyNewHead, hd₁]
    rfl
  · obtain ⟨head, modes, hhead, rfl⟩ := h.tracked d.manager.id h' o hm hlive
    obtain ⟨old, hold⟩ := isSome_iff_exists.mp (h.dom o (by simp [hhead]))
    obtain ⟨c₁, hget, h₁, h₂⟩ := sent_gone ord c hold hnew
    refine hmem (modes.map .modeFinished ++ [.headFinished head.id]) (.of_same h₁ ?_ h₂) _ (by simp)
    simp only [Client.notifyGone, hnew, isNone_none, if_true, Client.notifyRemovedHead]
    rw [hget, hhead]
    rfl
  · obtain ⟨head, modes, hhead, rfl⟩ := h.tracked d.manager.id h' o hm hlive
    obtain ⟨c₁, hget, h₁, h₂⟩ := sent_entry ord st c (e := ⟨o, conf⟩) hnew
    refine ⟨c₁.nextObject, head, modes, hhead, rfl, h.announced o head modes hhead, ?_⟩
    refine hmem _ (.of_same h₁ ?_ h₂)
    simp only [notifyEntry, hcur]
    exact (tells_notifyOutput (hget.trans hhead)).log

/-! The requests. -/

variable {cur : ℕ → Option Output} {x : ℕ}

theorem ManagersInv.send (h : c.ManagersInv cur) (hbounds : ∀ e ∈ events, e.bounds = false) :
    (c.send events).ManagersInv cur :=
  h.frame rfl rfl (fun _ => rfl) rfl (Nat.le_refl _) (events_of_log rfl) hbounds

theorem head_setConf {state : OutputConfigurationState} : (c.setConf x state).head o = c.head o := by
  cases hd : c.data <;> simp [Client.head, setConf, hd]

theorem ManagersInv.still (h : c.ManagersInv cur) (hmanagers : c'.managers = c.managers)
    (hmanager : c'.data.map (·.manager) = c.data.map (·.manager))
    (hhead : ∀ o, c'.head o = c.head o) (hheads : c'.heads = c.heads)
    (hnext : c.nextObject ≤ c'.nextObject) (hevents : c'.events = c.events) :
    c'.ManagersInv cur := by
  have hnil : c'.events = c.events ++ [] := by simp [hevents]
  exact h.frame hmanagers hmanager hhead hheads hnext hnil (by simp)

theorem ManagersInv.setConf (h : c.ManagersInv cur) {state : OutputConfigurationState} :
    (c.setConf x state).ManagersInv cur := by
  refine h.still rfl ?_ (fun _ => head_setConf) rfl (Nat.le_refl _) rfl
  simp only [Client.setConf, Option.map_map]
  rfl

theorem ManagersInv.initConfHead (h : c.ManagersInv cur) {state : OutputConfigurationHeadState} :
    (c.initConfHead state).ManagersInv cur :=
  h.still rfl rfl (fun _ => rfl) rfl (Nat.le_succ _) rfl

theorem ManagersInv.applied (h : c.ManagersInv cur) {config : List OutputConfig} :
    (c.applied x config).ManagersInv cur := by
  refine h.still rfl rfl (fun _ => rfl) rfl (Nat.le_refl _) ?_
  simp [Client.events, Client.applied]

/-- The client has no entry, and no manager that is not stopped. -/
theorem ManagersInv.clear (h : c.ManagersInv cur) (hdata : c'.data = none)
    (hmanagers : ∀ m, c'.managers.get m ≠ some false)
    (hlt : ∀ m, (c'.managers.get m).isSome → m < c'.nextObject)
    (hnext : c.nextObject ≤ c'.nextObject) (hevents : c'.events = c.events) :
    c'.ManagersInv cur := by
  refine ⟨fun m hm => absurd hm (hmanagers m), fun o ho => ?_, fun m _ _ hm => absurd hm (hmanagers m),
    fun o head modes hget => ?_, hlt, fun d hd => ?_, fun m h' he => ?_⟩
  · simp [Client.head, hdata] at ho
  · simp [Client.head, hdata] at hget
  · rw [hdata] at hd
    cases hd
  · have := h.head_lt m h' (hevents ▸ he)
    omega

theorem ManagersInv.disconnect (h : c.ManagersInv cur) : c.disconnect.ManagersInv cur :=
  h.clear rfl (by simp [Client.disconnect]) (by simp [Client.disconnect]) (Nat.le_refl _) rfl

theorem ManagersInv.postError (h : c.ManagersInv cur) {object : ℕ} {code : ErrorCode}
    {message : String} : (c.postError object code message).ManagersInv cur :=
  (h.send (by simp [Event.bounds])).disconnect

end Client

namespace OutputManagementManagerState

variable {st st' : OutputManagementManagerState} {ord : IterOrder} {client m : ℕ} {c : Client}

/-- A client binds a manager only when it has none that is not stopped, stops and destroys one only when
it has no other, and destroys of its heads only those that its entry keeps, if it keeps one for the
output. -/
def Alone (st : OutputManagementManagerState) (action : IterOrder × Action) : Prop :=
  match action.2 with
  | .bind client _ => ∀ m, (st.clients client).managers.get m ≠ some false
  | .stop client m | .managerDestroyed client m =>
    ∀ m', m' ≠ m → (st.clients client).managers.get m' ≠ some false
  | .headDestroyed client h => ∀ o head modes, (st.clients client).heads.get h = some o →
    (st.clients client).head o = some (head, modes) → head.id = h
  | _ => True

def ManagersInv (st : OutputManagementManagerState) : Prop :=
  ∀ client, (st.clients client).ManagersInv st.currentState.get

theorem ManagersInv.setClient (h : st.ManagersInv) (hc : c.ManagersInv st.currentState.get) :
    (st.setClient client c).ManagersInv := by
  intro k
  by_cases hk : k = client
  · subst hk
    simpa [OutputManagementManagerState.setClient] using hc
  · simpa [OutputManagementManagerState.setClient, hk] using h k

theorem managersInv_notifyChanges {newState : HashMap ℕ Output} (hi : st.ManagersInv)
    (h : st.notifyChanges ord newState = some st') : st'.ManagersInv := by
  unfold notifyChanges at h
  dsimp only at h
  split_ifs at h with hchanged hserial <;> obtain rfl := some.inj h
  · intro k
    have hk := (hi k).notifyClient ord newState
    unfold Client.notifyDone
    dsimp only
    split
    · exact hk
    · refine hk.send fun e he => ?_
      rcases mem_cons.mp he with rfl | he
      · rfl
      · obtain ⟨entry, -, rfl⟩ := List.mem_map.mp he
        rfl
  · intro k
    dsimp only
    rw [notifyClient_of_not_changed (by simpa using hchanged)]
    exact hi k

/-- Sending heads one after the other fills the entry of the client. -/
theorem foldl_sendNewHead (entries : List (Σ _ : ℕ, Output)) (c : Client) (d : ClientData) :
    let out := entries.foldl (fun (c, d) e => sendNewHead c d e.1 e.2) (c, d)
    { out.1 with data := some out.2 } =
      entries.foldl (fun c e => c.notifyNewHead e.1 e.2) { c with data := some d } := by
  induction entries generalizing c d with
  | nil => rfl
  | cons e entries ih => exact ih ..

theorem managersInv_newHeads (entries : List (Σ _ : ℕ, Output)) {cur : ℕ → Option Output}
    (h : c.ManagersInv cur) (hn : (entries.map Sigma.fst).Nodup) (hcur : ∀ e ∈ entries, cur e.1 = none) :
    (entries.foldl (fun c e => c.notifyNewHead e.1 e.2) c).ManagersInv
      (entries.foldl (fun cur e => update cur e.1 (some e.2)) cur) := by
  induction entries generalizing c cur with
  | nil => exact h
  | cons e entries ih =>
    obtain ⟨he, hn⟩ := nodup_cons.mp hn
    have hnone : c.head e.1 = none := by
      by_contra hne
      have := h.dom e.1 (isSome_iff_ne_none.mpr hne)
      rw [hcur e (by simp)] at this
      cases this
    refine ih (h.notifyNewHead hnone) hn fun e' he' => ?_
    have hne : e'.1 ≠ e.1 := fun heq => he (heq ▸ List.mem_map_of_mem he')
    exact (Function.update_of_ne hne ..).trans (hcur e' (by simp [he']))

theorem managersInv_bind {version : ℕ} (hi : st.ManagersInv)
    (halone : ∀ m, (st.clients client).managers.get m ≠ some false)
    (h : st.bind ord client version = some st') : st'.ManagersInv := by
  have hc := hi client
  unfold bind at h
  dsimp only at h
  split at h
  · obtain rfl := some.inj h
    refine hi.setClient (Client.ManagersInv.send ?_ (by simp [Event.bounds]))
    have hfold := foldl_sendNewHead (ord.iter st.currentState)
      { st.clients client with
        managers := (st.clients client).managers.insert (st.clients client).nextObject false
        nextObject := (st.clients client).nextObject + 1 }
      ⟨∅, ∅, ⟨(st.clients client).nextObject, version⟩⟩
    dsimp only at hfold
    rw [hfold]
    have hstart : Client.ManagersInv (fun _ => none) { st.clients client with
        managers := (st.clients client).managers.insert (st.clients client).nextObject false
        nextObject := (st.clients client).nextObject + 1
        data := some ⟨∅, ∅, ⟨(st.clients client).nextObject, version⟩⟩ } := by
      refine ⟨fun m hm => ?_, fun o ho => ?_, fun m h' o hm hlive => ?_, fun o head modes hget => ?_,
        fun m hm => ?_, fun d hd => ?_, fun m h' he => ?_⟩
      · rw [get_insert] at hm
        split_ifs at hm with heq
        · exact ⟨_, rfl, heq.symm⟩
        · exact absurd hm (halone m)
      · simp [Client.head] at ho
      · rw [get_insert] at hm
        split_ifs at hm with heq
        · have := (hc.head_lt m h' hlive.2.1).1
          omega
        · exact absurd hm (halone m)
      · simp [Client.head] at hget
      · rw [get_insert] at hm
        split_ifs at hm with heq
        · simp [heq]
        · exact Nat.lt_succ_of_lt (hc.manager_lt m hm)
      · obtain rfl := some.inj hd
        exact Nat.lt_succ_self _
      · obtain ⟨h₁, h₂⟩ := hc.head_lt m h' he
        exact ⟨Nat.lt_succ_of_lt h₁, Nat.lt_succ_of_lt h₂⟩
    have hheads := managersInv_newHeads (ord.iter st.currentState) hstart
      (nodup_keys_iter ord _) fun _ _ => rfl
    have hcur := Client.foldl_update_iter ord st.currentState fun _ => none
    simp only [or_none] at hcur
    rwa [hcur] at hheads
  · cases h

theorem managersInv_createConfiguration {manager serial : ℕ} (hi : st.ManagersInv)
    (h : st.createConfiguration client manager serial = some st') : st'.ManagersInv := by
  obtain ⟨-, -, rfl⟩ := of_bind_some h
  apply hi.setClient
  have hcreate : Client.ManagersInv st.currentState.get { st.clients client with
      confs := (st.clients client).confs.insert (st.clients client).nextObject serial
      nextObject := (st.clients client).nextObject + 1 } :=
    (hi client).still rfl rfl (fun _ => rfl) rfl (Nat.le_succ _) rfl
  dsimp only
  split
  · exact hcreate
  · split
    · exact (hcreate.send (by simp [Event.bounds])).setConf
    · exact hcreate.setConf

theorem managersInv_finishConfiguration {x : ℕ} {outdated : Bool} {cur : ℕ → Option Output}
    (hc : c.ManagersInv cur) : (finishConfiguration ord c x outdated).1.ManagersInv cur := by
  unfold finishConfiguration
  split
  · exact hc.send (by simp [Event.bounds])
  · split
    · exact hc
    · exact hc.postError
    · dsimp only
      split
      · exact hc.setConf
      · exact hc.setConf.send (by simp [Event.bounds])

theorem managersInv_configuration {x : ℕ} {request : ConfigurationRequest} (hi : st.ManagersInv)
    (h : st.configuration ord client x request = some st') : st'.ManagersInv := by
  have hc := hi client
  obtain ⟨serial, -, h⟩ := of_bind h
  have hfinish : (finishConfiguration ord (st.clients client) x (serial != st.serial)).1.ManagersInv
      st.currentState.get := managersInv_finishConfiguration hc
  cases request with
  | enableHead head =>
    obtain ⟨output, -, rfl⟩ := of_bind_some h
    apply hi.setClient
    unfold enableHead
    split
    · exact hc.initConfHead
    · exact hc.initConfHead.postError
    · exact hc.setConf.initConfHead
  | disableHead head =>
    obtain ⟨output, -, rfl⟩ := of_bind_some h
    apply hi.setClient
    unfold disableHead
    split
    · exact hc
    · exact hc.postError
    · exact hc.setConf
  | apply =>
    dsimp only at h
    split at h
    · rename_i c' hf
      obtain rfl := some.inj h
      rw [hf] at hfinish
      exact hi.setClient hfinish
    · rename_i c' config hf
      obtain rfl := some.inj h
      rw [hf] at hfinish
      have hi' : ManagersInv { st with currentConfig := config } := hi
      exact hi'.setClient (hfinish.applied.send (by simp [Event.bounds]))
  | test =>
    dsimp only at h
    split at h
    · rename_i c' hf
      obtain rfl := some.inj h
      rw [hf] at hfinish
      exact hi.setClient hfinish
    · rename_i c' config hf
      obtain rfl := some.inj h
      rw [hf] at hfinish
      exact hi.setClient (hfinish.send (by simp [Event.bounds]))
  | destroy =>
    obtain rfl := some.inj h
    apply hi.setClient
    refine hc.still rfl ?_ (fun o => ?_) rfl (Nat.le_refl _) rfl
    · simp only [Option.map_map]
      rfl
    · cases hd : (st.clients client).data <;> simp [Client.head, hd]

theorem managersInv_configurationHead {confHead : ℕ} {request : ConfigurationHeadRequest}
    (hi : st.ManagersInv) (h : st.configurationHead client confHead request = some st') :
    st'.ManagersInv := by
  obtain ⟨state, -, h⟩ := of_bind h
  cases state with
  | cancelled =>
    obtain rfl := some.inj h
    exact hi
  | ok output conf =>
    obtain rfl := some.inj h
    apply hi.setClient
    unfold configureProperty
    repeat' split
    all_goals first | exact hi client | exact (hi client).postError | exact (hi client).setConf

theorem managersInv_headDestroyed {h : ℕ} (hi : st.ManagersInv)
    (halone : ∀ o head modes, (st.clients client).heads.get h = some o →
      (st.clients client).head o = some (head, modes) → head.id = h)
    (hs : st.headDestroyed client h = some st') : st'.ManagersInv := by
  have hc := hi client
  obtain ⟨o, ho, rfl⟩ := of_bind_some hs
  apply hi.setClient
  set c' : Client := { st.clients client with
    heads := (st.clients client).heads.remove h
    data := (st.clients client).data.map fun d => { d with heads := d.heads.remove o } } with hc'
  have hget : ∀ o', c'.head o' = if o' = o then none else (st.clients client).head o' := by
    intro o'
    cases hd : (st.clients client).data <;> simp [hc', Client.head, hd]
  have hmanager : c'.data.map (·.manager) = (st.clients client).data.map (·.manager) := by
    simp only [hc', Option.map_map]
    rfl
  refine ⟨fun m hm => ?_, fun o' ho' => ?_, fun m h' o' hm hlive => ?_,
    fun o' head modes hget' => ?_, hc.manager_lt, fun d hd => ?_, hc.head_lt⟩
  · obtain ⟨d, hd, hid⟩ := hc.served m hm
    obtain ⟨d', hd', hid'⟩ := Client.data_of_manager hmanager hd
    exact ⟨d', hd', by rw [hid', hid]⟩
  · rw [hget] at ho'
    split_ifs at ho' with heq
    · cases ho'
    · exact hc.dom o' ho'
  · obtain ⟨hobject, hannounced, hfinished⟩ := hlive
    rw [hc', get_remove] at hobject
    split_ifs at hobject with heq
    obtain ⟨head, modes, hget', hid⟩ := hc.tracked m h' o' hm ⟨hobject, hannounced, hfinished⟩
    have hne : o' ≠ o := by
      rintro rfl
      exact heq (hid.symm.trans (halone o' head modes ho hget'))
    exact ⟨head, modes, by rw [hget, if_neg hne, hget'], hid⟩
  · rw [hget] at hget'
    split_ifs at hget' with heq
    exact hc.announced o' head modes hget'
  · obtain ⟨d', hd', hid⟩ := Client.data_of_manager hmanager.symm hd
    exact hid ▸ hc.data_lt d' hd'

theorem managersInv_step {action : IterOrder × Action} (hi : st.ManagersInv) (ha : Alone st action)
    (h : st.step action = some st') : st'.ManagersInv := by
  obtain ⟨ord, action⟩ := action
  cases action with
  | notifyChanges newState => exact managersInv_notifyChanges hi h
  | configChanged config =>
    obtain rfl := some.inj h
    exact hi
  | bind client version => exact managersInv_bind hi ha h
  | createConfiguration client manager serial => exact managersInv_createConfiguration hi h
  | stop client manager =>
    obtain ⟨stopped, hm, rfl⟩ := of_bind_some h
    have hfalse : ∀ m, ((st.clients client).managers.insert manager true).get m ≠ some false := by
      intro m
      rw [get_insert]
      split_ifs with heq
      · simp
      · exact ha m heq
    have hlt : ∀ m, (((st.clients client).managers.insert manager true).get m).isSome →
        m < (st.clients client).nextObject := by
      intro m hsome
      rw [get_insert] at hsome
      split_ifs at hsome with heq
      · exact (hi client).manager_lt m (by simp [heq, hm])
      · exact (hi client).manager_lt m hsome
    apply hi.setClient
    dsimp only
    split
    · rename_i hd
      exact (hi client).clear hd hfalse hlt (Nat.le_refl _) rfl
    · exact Client.ManagersInv.send ((hi client).clear rfl hfalse hlt (Nat.le_refl _) rfl)
        (by simp [Event.bounds])
  | managerDestroyed client manager =>
    obtain ⟨-, -, rfl⟩ := of_bind_some h
    refine hi.setClient ((hi client).clear rfl (fun m => ?_) (fun m hm => ?_) (Nat.le_refl _) rfl)
    · rw [get_remove]
      split_ifs with heq
      · simp
      · exact ha m heq
    · rw [get_remove] at hm
      split_ifs at hm with heq
      · cases hm
      · exact (hi client).manager_lt m hm
  | headDestroyed client head => exact managersInv_headDestroyed hi ha h
  | configuration client conf request => exact managersInv_configuration hi h
  | configurationHead client confHead request => exact managersInv_configurationHead hi h
  | disconnected client =>
    have h : (if (st.clients client).connected then
      some (st.setClient client (st.clients client).disconnect) else none) = some st' := h
    split at h
    · obtain rfl := some.inj h
      exact hi.setClient (hi client).disconnect
    · cases h

/-- A manager is told about every change, and configurations made with it can be applied. -/
structure Served (st : OutputManagementManagerState) (client m : ℕ) : Prop where
  notified : ∀ ord newState st', stateChanged ord st.currentState newState →
    st.notifyChanges ord newState = some st' → ∃ events,
      (st'.clients client).log = (st.clients client).log ++ events.map .event ∧
      (st.clients client).Informed m st.currentState.get newState.get st'.serial events
  creates : ∃ st', st.createConfiguration client m st.serial = some st' ∧
    (st'.clients client).conf (st.clients client).nextObject = some (.ongoing ∅) ∧
    (st'.clients client).log = (st.clients client).log
  applies : ∀ ord h o, (st.clients client).Live m h o → ∃ st' config,
    run step st [(ord, .createConfiguration client m st.serial),
      (ord, .configuration client (st.clients client).nextObject (.enableHead h)),
      (ord, .configuration client (st.clients client).nextObject .apply)] = some st' ∧
    (st'.clients client).log = (st.clients client).log ++
      [.applyOutputConfig (st.clients client).nextObject config,
        .event (.succeeded (st.clients client).nextObject)]

theorem ManagersInv.served (hi : st.ManagersInv)
    (hm : (st.clients client).managers.get m = some false) : st.Served client m := by
  have hc := hi client
  obtain ⟨d, hd, hid⟩ := hc.served m hm
  refine ⟨fun ord newState st' hchanged h => ?_, ?_, fun ord h o hlive => ?_⟩
  · unfold notifyChanges at h
    dsimp only at h
    rw [if_pos hchanged] at h
    split at h
    · obtain rfl := some.inj h
      exact hc.informed hm
    · cases h
  · refine ⟨_, by simp [createConfiguration, hm]; rfl, ?_, ?_⟩
    · simp [OutputManagementManagerState.setClient, Client.conf, Client.setConf, hd]
    · simp [OutputManagementManagerState.setClient, Client.setConf, hd]
  · obtain ⟨head, modes, hhead, -⟩ := hc.tracked m h o hm hlive
    obtain ⟨output, houtput⟩ := isSome_iff_exists.mp (hc.dom o (by simp [hhead]))
    simp [run, step, createConfiguration, hm, hd, configuration, hlive.1, Client.setConf,
      OutputManagementManagerState.setClient, configureHead, Client.conf, houtput, enableHead,
      Client.initConfHead, finishConfiguration, iter_singleton, Client.applied, Client.send]

theorem managersInv_new {config : List OutputConfig} : (new config).ManagersInv :=
  fun _ => Client.managersInv_initial

/-- Over every run in which clients have one manager at a time, every manager is served. -/
theorem served_of_alone {config : List OutputConfig} {actions : List (IterOrder × Action)}
    (ha : AllAlong step Alone (new config) actions)
    (hrun : run step (new config) actions = some st)
    (hm : (st.clients client).managers.get m = some false) : st.Served client m :=
  ManagersInv.served
    (run_invariant_of_allAlong (fun _ _ _ hs hp => managersInv_step hs hp) managersInv_new ha hrun) hm

/-- A client stops its manager and binds another one. -/
def rebinding (ord : IterOrder) : List (IterOrder × Action) :=
  [(ord, .bind 0 4), (ord, .stop 0 1), (ord, .bind 0 4)]

theorem served_rebinding : ∃ st, run step (new []) (rebinding .arbitrary) = some st ∧
    (st.clients 0).managers.get 2 = some false ∧ st.Served 0 2 := by
  have halone : AllAlong step Alone (new []) (rebinding .arbitrary) := by
    simp [rebinding, AllAlong, Alone, step, bind, stop, new, setClient, Function.update,
      Client.initial, Client.send]
  obtain ⟨st, hrun, hm⟩ : ∃ st, run step (new []) (rebinding .arbitrary) = some st ∧
      (st.clients 0).managers.get 2 = some false := by
    simp [rebinding, run, step, bind, stop, new, setClient, Function.update, Client.initial,
      Client.send]
  exact ⟨st, hrun, hm, served_of_alone halone hrun hm⟩

/-- A second manager takes the place of the first. -/
theorem not_served : ¬ ∀ (config : List OutputConfig) (actions : List (IterOrder × Action))
    (st : OutputManagementManagerState) (client m : ℕ), run step (new config) actions = some st →
    (st.clients client).managers.get m = some false → st.Served client m := by
  intro hall
  obtain ⟨st, st', hrun, hm, hchanged, hstep, hlog⟩ : ∃ st st',
      run step (new []) [(.arbitrary, .bind 0 4), (.arbitrary, .bind 0 4)] = some st ∧
      (st.clients 0).managers.get 1 = some false ∧
      stateChanged .arbitrary st.currentState (panelState [] 0) ∧
      st.notifyChanges .arbitrary (panelState [] 0) = some st' ∧
      st'.serial = 1 ∧ ∀ events : List Event,
        (st'.clients 0).log = (st.clients 0).log ++ events.map .event → .done 1 1 ∉ events := by
    simp [run, step, bind, new, setClient, Function.update, Client.initial, Client.send, stateChanged,
      notifyChanges, notifyClient, panelState, panel, iter_singleton, Client.notifyEntry,
      Client.notifyNewHead, sendNewHead, Client.notifyDone, newHeadEvents, newModesEvents,
      physicalSizeEvents, headStateEvents, vendorEvents, vrrEvents]
    intro events h hdone
    have hmem : Effect.event (.done 1 1) ∈ events.map .event := List.mem_map_of_mem hdone
    rw [← h] at hmem
    simp [evtMakeSince, evtModelSince, evtAdaptiveSyncSince] at hmem
  obtain ⟨hserial, hlog⟩ := hlog
  obtain ⟨events, hevents, hinformed⟩ :=
    (hall [] _ st 0 1 hrun hm).notified .arbitrary (panelState [] 0) st' hchanged hstep
  rw [hserial] at hinformed
  exact hlog events hevents hinformed.done

end OutputManagementManagerState

end Macniri.OutputManagement
