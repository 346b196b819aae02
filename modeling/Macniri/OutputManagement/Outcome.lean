import Macniri.OutputManagement.Frame

/-! The outcome of configuration objects: when each gets only one. -/
namespace Macniri.OutputManagement

open Option List HashMap

def Effect.outcome : Effect → Option ℕ
  | .event e => e.outcome
  | .applyOutputConfig _ _ => none

/-- The configuration object that is applied. -/
def Effect.applies : Effect → Option ℕ
  | .event _ => none
  | .applyOutputConfig conf _ => some conf

/-- At most one outcome was sent, and the object was applied at most once, not after it was
cancelled. -/
structure OneOutcome (log : List Effect) (conf : ℕ) : Prop where
  outcomes : log.countP (·.outcome == some conf) ≤ 1
  applied : log.countP (·.applies == some conf) ≤ 1
  order : log.Pairwise fun a b => a = .event (.cancelled conf) → b.applies ≠ some conf

/-- Nothing happened to the object yet. -/
def Untouched (log : List Effect) (conf : ℕ) : Prop :=
  ∀ e ∈ log, e.outcome ≠ some conf ∧ e.applies ≠ some conf

section Log

variable {log effects : List Effect} {x : ℕ}

theorem Untouched.outcomes_eq (h : Untouched log x) : log.countP (·.outcome == some x) = 0 := by
  rw [countP_eq_zero]
  intro e he heq
  exact (h e he).1 (beq_iff_eq.mp heq)

theorem Untouched.applied_eq (h : Untouched log x) : log.countP (·.applies == some x) = 0 := by
  rw [countP_eq_zero]
  intro e he heq
  exact (h e he).2 (beq_iff_eq.mp heq)

theorem Untouched.append (h : Untouched log x) (h' : Untouched effects x) :
    Untouched (log ++ effects) x := by
  intro e he
  rcases mem_append.mp he with he | he
  · exact h e he
  · exact h' e he

theorem Untouched.oneOutcome (h : Untouched log x) : OneOutcome log x := by
  refine ⟨by rw [h.outcomes_eq]; omega, by rw [h.applied_eq]; omega, ?_⟩
  refine Pairwise.imp_of_mem (fun _ hb _ _ => (h _ hb).2) (pairwise_of_forall fun _ _ => trivial)

/-- Effects on other objects are harmless. -/
theorem OneOutcome.append_untouched (h : OneOutcome log x) (h' : Untouched effects x) :
    OneOutcome (log ++ effects) x := by
  refine ⟨?_, ?_, ?_⟩
  · rw [countP_append, h'.outcomes_eq]
    exact h.outcomes
  · rw [countP_append, h'.applied_eq]
    exact h.applied
  · exact pairwise_append.mpr ⟨h.order, h'.oneOutcome.order, fun _ _ b hb _ => (h' b hb).2⟩

/-- An object that nothing happened to may have an outcome. -/
theorem Untouched.append_oneOutcome (h : Untouched log x) (h' : OneOutcome effects x) :
    OneOutcome (log ++ effects) x := by
  refine ⟨?_, ?_, ?_⟩
  · rw [countP_append, h.outcomes_eq, Nat.zero_add]
    exact h'.outcomes
  · rw [countP_append, h.applied_eq, Nat.zero_add]
    exact h'.applied
  · refine pairwise_append.mpr ⟨h.oneOutcome.order, h'.order, fun a ha _ _ heq => ?_⟩
    exact absurd (heq ▸ rfl) (h a ha).1

theorem untouched_events {events : List Event} (h : ∀ e ∈ events, e.outcome ≠ some x) :
    Untouched (events.map .event) x := by
  intro e he
  obtain ⟨event, hevent, rfl⟩ := List.mem_map.mp he
  exact ⟨h event hevent, by simp [Effect.applies]⟩

end Log

namespace Client

/-- The configuration objects of a client, while the compositor is at `serial`. -/
structure ConfsInv (serial : ℕ) (c : Client) : Prop where
  one : ∀ x, OneOutcome c.log x
  fresh : ∀ x, c.nextObject ≤ x → Untouched c.log x ∧ c.confs.get x = none ∧ c.conf x = none
  le : ∀ x s, c.confs.get x = some s → s ≤ serial
  pending : ∀ x config, c.conf x = some (.ongoing config) → c.confs.get x = some serial →
    Untouched c.log x

variable {c c' : Client} {serial x : ℕ}

theorem confsInv_initial : ConfsInv 0 .initial := by
  have huntouched : ∀ x, Untouched Client.initial.log x := fun x e he => by cases he
  exact ⟨fun x => (huntouched x).oneOutcome, fun x _ => ⟨huntouched x, rfl, rfl⟩,
    fun x s h => (by cases h), fun x _ _ _ => huntouched x⟩

theorem conf_eq_of_data (h : (c'.data.map fun d => (d.confs, d.manager)) =
    c.data.map fun d => (d.confs, d.manager)) : c'.conf x = c.conf x := by
  have hconfs : (c'.data.map (·.confs)) = c.data.map (·.confs) := by
    have := congrArg (Option.map Prod.fst) h
    simpa [Option.map_map, Function.comp_def] using this
  have hconf : ∀ c : Client, c.conf x = (c.data.map (·.confs)).bind (·.get x) := by
    intro c
    simp [conf, bind_map]
  rw [hconf, hconf, hconfs]

/-- A step that does not touch the log but for events about other things, and takes configurations at
most away. -/
theorem ConfsInv.quiet (h : c.ConfsInv serial) {events : List Event}
    (hlog : c'.log = c.log ++ events.map .event) (hevents : ∀ e ∈ events, e.outcome = none)
    (hnext : c.nextObject ≤ c'.nextObject)
    (hconfs : ∀ x s, c'.confs.get x = some s → c.confs.get x = some s)
    (hconf : ∀ x, c'.conf x = none ∨ c'.conf x = c.conf x ∨
      ∃ config config', c'.conf x = some (.ongoing config') ∧ c.conf x = some (.ongoing config)) :
    c'.ConfsInv serial := by
  have huntouched : ∀ x, Untouched (events.map .event) x := fun x =>
    untouched_events fun e he => by simp [hevents e he]
  refine ⟨fun x => ?_, fun x hx => ?_, fun x s hs => h.le x s (hconfs x s hs),
    fun x config hpending hcurrent => ?_⟩
  · rw [hlog]
    exact (h.one x).append_untouched (huntouched x)
  · obtain ⟨hlog', hconfs', hconf'⟩ := h.fresh x (Nat.le_trans hnext hx)
    refine ⟨hlog ▸ hlog'.append (huntouched x), ?_, ?_⟩
    · by_contra hne
      obtain ⟨s, hs⟩ := ne_none_iff_exists'.mp hne
      rw [hconfs x s hs] at hconfs'
      cases hconfs'
    · rcases hconf x with hnone | heq | ⟨config, -, -, hold⟩
      · exact hnone
      · rw [heq, hconf']
      · rw [hconf'] at hold
        cases hold
  · rw [hlog]
    refine Untouched.append ?_ (huntouched x)
    rcases hconf x with hnone | heq | ⟨config', -, -, hold⟩
    · rw [hnone] at hpending
      cases hpending
    · exact h.pending x config (heq ▸ hpending) (hconfs x serial hcurrent)
    · exact h.pending x config' hold (hconfs x serial hcurrent)

theorem ConfsInv.same (h : c.ConfsInv serial) (hsame : c.Same c') : c'.ConfsInv serial := by
  obtain ⟨events, hlog, hevents⟩ := hsame.log
  exact h.quiet hlog hevents hsame.nextObject (fun x s hs => hsame.confs ▸ hs)
    fun x => .inr (.inl (conf_eq_of_data hsame.data))

theorem ConfsInv.still (h : c.ConfsInv serial) (hlog : c'.log = c.log)
    (hnext : c.nextObject ≤ c'.nextObject)
    (hconfs : ∀ x s, c'.confs.get x = some s → c.confs.get x = some s)
    (hconf : ∀ x, c'.conf x = none ∨ c'.conf x = c.conf x ∨
      ∃ config config', c'.conf x = some (.ongoing config') ∧ c.conf x = some (.ongoing config)) :
    c'.ConfsInv serial := by
  have hnil : c'.log = c.log ++ ([] : List Event).map .event := by simp [hlog]
  exact h.quiet hnil (by simp) hnext hconfs hconf

/-! The requests. -/

theorem ConfsInv.send (h : c.ConfsInv serial) {events : List Event}
    (hevents : ∀ e ∈ events, e.outcome = none) : (c.send events).ConfsInv serial :=
  h.same (same_send hevents)

theorem ConfsInv.disconnect (h : c.ConfsInv serial) : c.disconnect.ConfsInv serial :=
  h.still rfl (Nat.le_refl _) (fun x s hs => by cases hs) fun x => .inl rfl

theorem ConfsInv.postError (h : c.ConfsInv serial) {object : ℕ} {code : ErrorCode}
    {message : String} : (c.postError object code message).ConfsInv serial :=
  (h.send (by simp [Event.outcome])).disconnect

theorem conf_setConf {state state' : OutputConfigurationState} {y : ℕ}
    (h : c.conf x = some state) :
    (c.setConf x state').conf y = if y = x then some state' else c.conf y := by
  cases hd : c.data with
  | none => simp [conf, hd] at h
  | some d => simp [conf, setConf, hd]

/-- A configuration that is going on stays so. -/
theorem ConfsInv.setOngoing (h : c.ConfsInv serial) {config config' : HashMap ℕ OutputConfig}
    (hconf : c.conf x = some (.ongoing config)) :
    (c.setConf x (.ongoing config')).ConfsInv serial := by
  refine h.still rfl (Nat.le_refl _) (fun x s hs => hs) fun y => ?_
  rw [conf_setConf hconf]
  split_ifs with hy
  · exact .inr (.inr ⟨config, config', rfl, hy ▸ hconf⟩)
  · exact .inr (.inl rfl)

theorem ConfsInv.initConfHead (h : c.ConfsInv serial) {state : OutputConfigurationHeadState} :
    (c.initConfHead state).ConfsInv serial :=
  h.still rfl (Nat.le_succ _) (fun _ _ hs => hs) fun _ => .inr (.inl rfl)

/-- An object is created; it is cancelled at once if it is outdated. -/
theorem ConfsInv.create (h : c.ConfsInv serial) {s : ℕ} {effects : List Effect} (hle : s ≤ serial)
    (hlog : c'.log = c.log ++ effects) (hnext : c'.nextObject = c.nextObject + 1)
    (hconfs : c'.confs = c.confs.insert c.nextObject s)
    (hconf : ∀ x, x ≠ c.nextObject → c'.conf x = c.conf x)
    (heffects : effects = [] ∨ s ≠ serial ∧ effects = [.event (.cancelled c.nextObject)]) :
    c'.ConfsInv serial := by
  obtain ⟨hnew, hnoconfs, hnoconf⟩ := h.fresh c.nextObject (Nat.le_refl _)
  have hone : OneOutcome effects c.nextObject := by
    rcases heffects with rfl | ⟨-, rfl⟩
    · exact Untouched.oneOutcome (by simp [Untouched])
    · exact ⟨by simp [Effect.outcome, Event.outcome], by simp [Effect.applies], by simp⟩
  have hother : ∀ x, x ≠ c.nextObject → Untouched effects x := by
    intro x hx
    rcases heffects with rfl | ⟨-, rfl⟩
    · simp [Untouched]
    · simp [Untouched, Effect.outcome, Event.outcome, Effect.applies, Ne.symm hx]
  refine ⟨fun x => ?_, fun x hx => ?_, fun x s' hs' => ?_, fun x config hpending hcurrent => ?_⟩
  · rw [hlog]
    by_cases hx : x = c.nextObject
    · exact hx ▸ hnew.append_oneOutcome hone
    · exact (h.one x).append_untouched (hother x hx)
  · have hne : x ≠ c.nextObject := by omega
    obtain ⟨hx₁, hx₂, hx₃⟩ := h.fresh x (by omega)
    refine ⟨hlog ▸ hx₁.append (hother x hne), ?_, (hconf x hne).trans hx₃⟩
    rw [hconfs, get_insert, if_neg hne, hx₂]
  · rw [hconfs, get_insert] at hs'
    split_ifs at hs' with hx
    · exact some.inj hs' ▸ hle
    · exact h.le x s' hs'
  · rw [hlog]
    rw [hconfs, get_insert] at hcurrent
    split_ifs at hcurrent with hx
    · rcases heffects with rfl | ⟨hne, -⟩
      · simpa [hx] using hnew
      · exact absurd (some.inj hcurrent) hne
    · refine Untouched.append ?_ (hother x hx)
      exact h.pending x config (hconf x hx ▸ hpending) hcurrent

/-- An object gets its outcome, once. -/
theorem ConfsInv.finish (h : c.ConfsInv serial) {config : HashMap ℕ OutputConfig}
    {effects : List Effect} (hongoing : c.conf x = some (.ongoing config))
    (hcurrent : c.confs.get x = some serial)
    (hlog : c'.log = c.log ++ effects) (hnext : c'.nextObject = c.nextObject)
    (hconfs : c'.confs = c.confs) (hfinished : c'.conf x = some .finished)
    (hconf : ∀ y, y ≠ x → c'.conf y = c.conf y)
    (hone : OneOutcome effects x) (hother : ∀ y, y ≠ x → Untouched effects y) :
    c'.ConfsInv serial := by
  have hx : x < c.nextObject := by
    by_contra hge
    rw [(h.fresh x (by omega)).2.2] at hongoing
    cases hongoing
  refine ⟨fun y => ?_, fun y hy => ?_, fun y s hs => h.le y s (hconfs ▸ hs),
    fun y config' hpending hcurrent' => ?_⟩
  · rw [hlog]
    by_cases hy : y = x
    · exact hy ▸ (h.pending x config hongoing hcurrent).append_oneOutcome hone
    · exact (h.one y).append_untouched (hother y hy)
  · have hne : y ≠ x := by omega
    obtain ⟨h₁, h₂, h₃⟩ := h.fresh y (hnext ▸ hy)
    exact ⟨hlog ▸ h₁.append (hother y hne), hconfs ▸ h₂, (hconf y hne).trans h₃⟩
  · have hy : y ≠ x := by
      rintro rfl
      rw [hfinished] at hpending
      cases hpending
    rw [hlog]
    exact (h.pending y config' (hconf y hy ▸ hpending) (hconfs ▸ hcurrent')).append (hother y hy)

/-- A change of the state cancels every object that the client has; all of them were going on. -/
theorem ConfsInv.notifyDone (h : c.ConfsInv serial) {ord : IterOrder}
    (hgoing : ∀ x state, c.conf x = some state →
      c.confs.get x = some serial ∧ ∃ config, state = .ongoing config) :
    (c.notifyDone ord (serial + 1)).ConfsInv (serial + 1) := by
  have hnone : c.data = none → c.ConfsInv (serial + 1) := by
    intro hd
    refine ⟨h.one, h.fresh, fun x s hs => Nat.le_succ_of_le (h.le x s hs),
      fun x config hpending => ?_⟩
    simp [conf, hd] at hpending
  unfold Client.notifyDone
  split
  · rename_i hd
    exact hnone hd
  · rename_i d hd
    have hconf : ∀ x, c.conf x = d.confs.get x := fun x => by simp [conf, hd]
    set events := Event.done d.manager.id (serial + 1) ::
      (ord.iter d.confs).map fun e => .cancelled e.1 with hevents
    have hother : ∀ x, d.confs.get x = none → Untouched (events.map .event) x := by
      intro x hx
      refine untouched_events fun e he => ?_
      rcases mem_cons.mp he with rfl | he
      · simp [Event.outcome]
      · obtain ⟨entry, hentry, rfl⟩ := List.mem_map.mp he
        intro heq
        obtain rfl := some.inj heq
        rw [(mem_iter ord).mp hentry] at hx
        cases hx
    have hone : ∀ x, OneOutcome (events.map .event) x := by
      intro x
      refine ⟨?_, ?_, ?_⟩
      · have hcount := nodup_iff_count_le_one.mp (nodup_keys_iter ord d.confs) x
        rw [count_eq_countP, countP_map] at hcount
        rw [hevents, map_cons, countP_cons_of_neg (by simp [Effect.outcome, Event.outcome]),
          List.map_map, countP_map]
        refine le_trans (countP_mono_left fun e _ heq => ?_) hcount
        simpa [Effect.outcome, Event.outcome] using heq
      · rw [countP_eq_zero.mpr]
        · omega
        · intro e he
          obtain ⟨e, -, rfl⟩ := List.mem_map.mp he
          simp [Effect.applies]
      · refine Pairwise.imp_of_mem (fun {a b} _ hb _ _ => ?_)
          (pairwise_of_forall fun _ _ => trivial)
        obtain ⟨e, -, rfl⟩ := List.mem_map.mp hb
        simp [Effect.applies]
    refine ⟨fun x => ?_, fun x hx => ?_, fun x s hs => Nat.le_succ_of_le (h.le x s hs),
      fun x config _ hcurrent => absurd (h.le x _ hcurrent) (by omega)⟩
    · cases hx : d.confs.get x with
      | none => exact (h.one x).append_untouched (hother x hx)
      | some state =>
        obtain ⟨hcurrent, config, rfl⟩ := hgoing x state ((hconf x).trans hx)
        exact (h.pending x config ((hconf x).trans hx) hcurrent).append_oneOutcome (hone x)
    · obtain ⟨h₁, h₂, h₃⟩ := h.fresh x hx
      exact ⟨h₁.append (hother x ((hconf x).symm.trans h₃)), h₂, h₃⟩

end Client

namespace OutputManagementManagerState

variable {st st' : OutputManagementManagerState} {ord : IterOrder} {client : ℕ} {c : Client}

/-- No object is created for a serial that was not issued yet, outdated objects are neither applied nor
tested, and when the state changes every object that clients keep is up to date and going on. -/
def Orderly (st : OutputManagementManagerState) (action : IterOrder × Action) : Prop :=
  match action.2 with
  | .createConfiguration _ _ serial => serial ≤ st.serial
  | .configuration client conf .apply | .configuration client conf .test =>
    (st.clients client).confs.get conf = some st.serial
  | .notifyChanges newState => stateChanged action.1 st.currentState newState →
    ∀ client conf state, (st.clients client).conf conf = some state →
      (st.clients client).confs.get conf = some st.serial ∧ ∃ config, state = .ongoing config
  | _ => True

def ConfsInv (st : OutputManagementManagerState) : Prop :=
  ∀ client, (st.clients client).ConfsInv st.serial

theorem confsInv_new {config : List OutputConfig} : (new config).ConfsInv :=
  fun _ => Client.confsInv_initial

theorem ConfsInv.setClient (h : st.ConfsInv) (hc : c.ConfsInv st.serial) :
    (st.setClient client c).ConfsInv := by
  intro k
  by_cases hk : k = client
  · subst hk
    simpa [OutputManagementManagerState.setClient] using hc
  · simpa [OutputManagementManagerState.setClient, hk] using h k

theorem confsInv_notifyChanges {newState : HashMap ℕ Output} (hi : st.ConfsInv)
    (ho : stateChanged ord st.currentState newState →
      ∀ client conf state, (st.clients client).conf conf = some state →
        (st.clients client).confs.get conf = some st.serial ∧ ∃ config, state = .ongoing config)
    (h : st.notifyChanges ord newState = some st') : st'.ConfsInv := by
  unfold notifyChanges at h
  dsimp only at h
  split_ifs at h with hchanged hserial <;> obtain rfl := some.inj h
  · intro k
    have hsame := Client.same_notifyClient ord st newState (st.clients k)
    refine ((hi k).same hsame).notifyDone fun x state hstate => ?_
    rw [Client.conf_eq_of_data hsame.data] at hstate
    rw [hsame.confs]
    exact ho hchanged k x state hstate
  · exact fun k => (hi k).same (Client.same_notifyClient ..)

theorem confsInv_bind {version : ℕ} (hi : st.ConfsInv) (h : st.bind ord client version = some st') :
    st'.ConfsInv := by
  unfold bind at h
  dsimp only at h
  split at h
  · obtain rfl := some.inj h
    refine hi.setClient (Client.ConfsInv.send ?_ (by simp [Event.outcome]))
    obtain ⟨hsame, hconfs, -⟩ := Client.same_sendNewHeads (ord.iter st.currentState)
      { st.clients client with
        managers := (st.clients client).managers.insert (st.clients client).nextObject false
        nextObject := (st.clients client).nextObject + 1 }
      ⟨∅, ∅, ⟨(st.clients client).nextObject, version⟩⟩
    obtain ⟨events, hlog, hevents⟩ := hsame.log
    refine (hi client).quiet hlog hevents (Nat.le_trans (Nat.le_succ _) hsame.nextObject)
      (fun x s hs => ?_) fun x => .inl ?_
    · exact hsame.confs ▸ hs
    · simp only [Client.conf, bind_some, hconfs]
      rfl
  · cases h

theorem confsInv_createConfiguration {manager serial : ℕ} (hi : st.ConfsInv)
    (hle : serial ≤ st.serial) (h : st.createConfiguration client manager serial = some st') :
    st'.ConfsInv := by
  obtain ⟨-, -, rfl⟩ := of_bind_some h
  apply hi.setClient
  dsimp only
  split
  · rename_i hd
    have hlog : (st.clients client).log = (st.clients client).log ++ ([] : List Effect) := by simp
    exact (hi client).create hle hlog rfl rfl (fun _ _ => rfl) (.inl rfl)
  · rename_i d hd
    have hconf : ∀ c' : Client, c'.data = (st.clients client).data → ∀ x,
        x ≠ (st.clients client).nextObject →
        (c'.setConf (st.clients client).nextObject (.ongoing ∅)).conf x = (st.clients client).conf x := by
      intro c' hdata x hx
      simp [Client.conf, Client.setConf, hdata, hd, hx]
    split
    · rename_i hne
      exact (hi client).create hle rfl rfl rfl (hconf _ rfl) (.inr ⟨hne, rfl⟩)
    · have hlog : (st.clients client).log = (st.clients client).log ++ ([] : List Effect) := by simp
      exact (hi client).create hle hlog rfl rfl (hconf _ rfl) (.inl rfl)

/-- Up-to-date objects are applied and tested at most once. -/
theorem confsInv_finishConfiguration {x : ℕ} {config : Option (List OutputConfig)} {c' : Client}
    (hc : c.ConfsInv st.serial) (hcurrent : c.confs.get x = some st.serial)
    (h : finishConfiguration ord c x false = (c', config)) :
    (config = none → c'.ConfsInv st.serial) ∧
      ∀ list, config = some list → ((c'.applied x list).send [.succeeded x]).ConfsInv st.serial ∧
        (c'.send [.succeeded x]).ConfsInv st.serial := by
  have hevent : ∀ e : Event, e = .succeeded x ∨ e = .failed x →
      OneOutcome [.event e] x ∧ ∀ y, y ≠ x → Untouched [.event e] y := by
    rintro e (rfl | rfl)
    all_goals
      refine ⟨⟨by simp [Effect.outcome, Event.outcome], by simp [Effect.applies], by simp⟩,
        fun y hy => ?_⟩
      simp [Untouched, Effect.outcome, Event.outcome, Effect.applies, Ne.symm hy]
  unfold finishConfiguration at h
  simp only [Bool.false_eq_true, if_false] at h
  split at h
  · obtain ⟨rfl, rfl⟩ := Prod.mk.inj h
    exact ⟨fun _ => hc, by simp⟩
  · obtain ⟨rfl, rfl⟩ := Prod.mk.inj h
    exact ⟨fun _ => hc.postError, by simp⟩
  · rename_i ongoing hongoing
    have hset : ∀ y, (c.setConf x .finished).conf y = if y = x then some .finished else c.conf y :=
      fun y => Client.conf_setConf hongoing
    have hx : (c.setConf x .finished).conf x = some .finished := by simp [hset]
    have hy : ∀ y, y ≠ x → (c.setConf x .finished).conf y = c.conf y := by
      intro y hy
      simp [hset, hy]
    split at h
    · obtain ⟨rfl, rfl⟩ := Prod.mk.inj h
      refine ⟨by simp, fun list hlist => ⟨?_, ?_⟩⟩
      · have hlog : ((c.setConf x .finished).applied x list |>.send [.succeeded x]).log =
            c.log ++ [.applyOutputConfig x list, .event (.succeeded x)] := by
          simp [Client.applied, Client.send, Client.setConf]
        refine hc.finish hongoing hcurrent hlog rfl rfl hx hy ?_ fun y hy => ?_
        · exact ⟨by simp [Effect.outcome, Event.outcome], by simp [Effect.applies], by simp⟩
        · simp [Untouched, Effect.outcome, Event.outcome, Effect.applies, Ne.symm hy]
      · obtain ⟨hone, hother⟩ := hevent (.succeeded x) (.inl rfl)
        exact hc.finish hongoing hcurrent rfl rfl rfl hx hy hone hother
    · obtain ⟨rfl, rfl⟩ := Prod.mk.inj h
      obtain ⟨hone, hother⟩ := hevent (.failed x) (.inr rfl)
      exact ⟨fun _ => hc.finish hongoing hcurrent rfl rfl rfl hx hy hone hother, by simp⟩

/-- A head is added to a configuration that is going on. -/
theorem confsInv_configureHead {x output : ℕ} {outdated off : Bool} {config : HashMap ℕ OutputConfig}
    (hc : c.ConfsInv st.serial) (h : st.configureHead c x outdated output off = .added config) :
    (c.setConf x (.ongoing config)).ConfsInv st.serial := by
  unfold configureHead at h
  split at h
  · cases h
  · split at h
    · cases h
    · cases h
    · rename_i hongoing
      exact hc.setOngoing hongoing

theorem confsInv_configuration {x : ℕ} {request : ConfigurationRequest} (hi : st.ConfsInv)
    (ho : Orderly st (ord, .configuration client x request))
    (h : st.configuration ord client x request = some st') : st'.ConfsInv := by
  obtain ⟨serial, hserial, h⟩ := of_bind h
  have hfinish : ∀ c' config,
      (st.clients client).confs.get x = some st.serial →
      finishConfiguration ord (st.clients client) x (serial != st.serial) = (c', config) →
      (config = none → c'.ConfsInv st.serial) ∧
        ∀ list, config = some list → ((c'.applied x list).send [.succeeded x]).ConfsInv st.serial ∧
          (c'.send [.succeeded x]).ConfsInv st.serial := by
    intro c' config hcurrent hf
    obtain rfl := some.inj (hserial.symm.trans hcurrent)
    rw [bne_self_eq_false] at hf
    exact confsInv_finishConfiguration (hi client) hcurrent hf
  cases request with
  | enableHead head =>
    obtain ⟨output, -, rfl⟩ := of_bind_some h
    apply hi.setClient
    cases hout : st.configureHead (st.clients client) x (serial != st.serial) output false with
    | ignored => exact (hi client).initConfHead
    | error code message => exact (hi client).initConfHead.postError
    | added config => exact (confsInv_configureHead (hi client) hout).initConfHead
  | disableHead head =>
    obtain ⟨output, -, rfl⟩ := of_bind_some h
    apply hi.setClient
    cases hout : st.configureHead (st.clients client) x (serial != st.serial) output true with
    | ignored => exact hi client
    | error code message => exact (hi client).postError
    | added config => exact confsInv_configureHead (hi client) hout
  | apply =>
    dsimp only at h
    split at h
    · rename_i c' hf
      obtain rfl := some.inj h
      exact hi.setClient ((hfinish c' none ho hf).1 rfl)
    · rename_i c' config hf
      obtain rfl := some.inj h
      have happlied := ((hfinish c' (some config) ho hf).2 config rfl).1
      have hi' : ConfsInv { st with currentConfig := config } := hi
      exact hi'.setClient happlied
  | test =>
    dsimp only at h
    split at h
    · rename_i c' hf
      obtain rfl := some.inj h
      exact hi.setClient ((hfinish c' none ho hf).1 rfl)
    · rename_i c' config hf
      obtain rfl := some.inj h
      exact hi.setClient ((hfinish c' (some config) ho hf).2 config rfl).2
  | destroy =>
    obtain rfl := some.inj h
    refine hi.setClient ((hi client).still rfl (Nat.le_refl _) (fun y s hs => ?_) fun y => ?_)
    · rw [get_remove] at hs
      split_ifs at hs
      exact hs
    · cases hd : (st.clients client).data with
      | none => exact .inl (by simp [Client.conf])
      | some d =>
        by_cases hy : y = x
        · exact .inl (by simp [Client.conf, hy])
        · exact .inr (.inl (by simp [Client.conf, hd, hy]))

theorem confsInv_configurationHead {confHead : ℕ} {request : ConfigurationHeadRequest}
    (hi : st.ConfsInv) (h : st.configurationHead client confHead request = some st') :
    st'.ConfsInv := by
  obtain ⟨state, -, h⟩ := of_bind h
  cases state with
  | cancelled =>
    obtain rfl := some.inj h
    exact hi
  | ok output conf =>
    obtain rfl := some.inj h
    apply hi.setClient
    unfold configureProperty
    split
    · split
      · exact hi client
      · exact (hi client).postError
      · rename_i config hongoing
        split
        · exact hi client
        · split
          · exact (hi client).postError
          · exact (hi client).setOngoing hongoing
    · exact hi client

theorem confsInv_step {action : IterOrder × Action} (hi : st.ConfsInv) (ho : Orderly st action)
    (h : st.step action = some st') : st'.ConfsInv := by
  obtain ⟨ord, action⟩ := action
  cases action with
  | notifyChanges newState => exact confsInv_notifyChanges hi ho h
  | configChanged config =>
    obtain rfl := some.inj h
    exact hi
  | bind client version => exact confsInv_bind hi h
  | createConfiguration client manager serial => exact confsInv_createConfiguration hi ho h
  | stop client manager =>
    obtain ⟨-, -, rfl⟩ := of_bind_some h
    apply hi.setClient
    dsimp only
    split
    · exact (hi client).still rfl (Nat.le_refl _) (fun _ _ hs => hs) fun _ => .inr (.inl rfl)
    · refine Client.ConfsInv.send ?_ (by simp [Event.outcome])
      exact (hi client).still rfl (Nat.le_refl _) (fun _ _ hs => hs) fun _ => .inl rfl
  | managerDestroyed client manager =>
    obtain ⟨-, -, rfl⟩ := of_bind_some h
    refine hi.setClient ((hi client).still rfl (Nat.le_refl _) (fun _ _ hs => hs) fun _ => .inl rfl)
  | headDestroyed client head =>
    obtain ⟨output, -, rfl⟩ := of_bind_some h
    refine hi.setClient ((hi client).still rfl (Nat.le_refl _) (fun _ _ hs => hs) fun _ => .inr (.inl ?_))
    cases hd : (st.clients client).data <;> simp [Client.conf, hd]
  | configuration client conf request => exact confsInv_configuration hi ho h
  | configurationHead client confHead request => exact confsInv_configurationHead hi h
  | disconnected client =>
    have h : (if (st.clients client).connected then
      some (st.setClient client (st.clients client).disconnect) else none) = some st' := h
    split at h
    · obtain rfl := some.inj h
      exact hi.setClient (hi client).disconnect
    · cases h

/-- Over every orderly run, every configuration object has at most one outcome. -/
theorem oneOutcome_of_orderly {config : List OutputConfig} {actions : List (IterOrder × Action)}
    (ho : AllAlong step Orderly (new config) actions)
    (hrun : run step (new config) actions = some st) (client conf : ℕ) :
    OneOutcome (st.clients client).log conf := by
  have hi : st.ConfsInv :=
    run_invariant_of_allAlong (fun s a t hs hp => confsInv_step hs hp) confsInv_new ho hrun
  exact (hi client).one conf

/-! A client that applies a configuration. -/

/-- A monitor with one mode. -/
def monitor (vrrEnabled : Bool) : HashMap ℕ Output :=
  (∅ : HashMap ℕ Output).insert 0
    { name := "DP-1", make := "Unknown", model := "Unknown", serial := none, physicalSize := none,
      modes := [⟨1920, 1080, 60000, true⟩], currentMode := some 0, vrrEnabled := vrrEnabled,
      logical := none }

/-- A client applies a configuration that enables the monitor. -/
def applying (ord : IterOrder) : List (IterOrder × Action) :=
  [(ord, .bind 0 4), (ord, .notifyChanges (monitor false)), (ord, .createConfiguration 0 1 1),
    (ord, .configuration 0 4 (.enableHead 2)), (ord, .configuration 0 4 .apply)]

/-- The client destroys the object before the state changes. -/
def destroying (ord : IterOrder) : List (IterOrder × Action) :=
  applying ord ++ [(ord, .configuration 0 4 .destroy), (ord, .notifyChanges (monitor true))]

theorem orderly_destroying (ord : IterOrder) : AllAlong step Orderly (new []) (destroying ord) := by
  simp [destroying, applying, AllAlong, Orderly, step, notifyChanges, notifyClient, stateChanged,
      iter_singleton, monitor, bind, new, setClient, Function.update, Client.initial, sendNewHead, Client.send,
      outputChanged, Client.notifyEntry, Client.notifyNewHead, Client.notifyOutput, Client.head,
      Client.notifyVrr, Client.notifyCurrentMode, Client.notifyLogical, Client.notifyGone,
      Client.notifyDone, createConfiguration, configuration, enableHead,
      configureHead, Client.conf, Client.setConf, Client.initConfHead, finishConfiguration,
      Client.applied]
  constructor
  all_goals
    intro client
    by_cases hc : client = 0 <;> simp [hc]

theorem run_destroying (ord : IterOrder) : ∃ st, run step (new []) (destroying ord) = some st := by
  simp [destroying, applying, run, step, notifyChanges, notifyClient, stateChanged, iter_singleton,
      monitor, bind, new, setClient, Function.update, Client.initial, sendNewHead, Client.send,
      outputChanged, Client.notifyEntry, Client.notifyNewHead, Client.notifyOutput, Client.head,
      Client.notifyVrr, Client.notifyCurrentMode, Client.notifyLogical, Client.notifyGone,
      Client.notifyDone, createConfiguration, configuration, enableHead,
      configureHead, Client.conf, Client.setConf, Client.initConfHead, finishConfiguration,
      Client.applied]

theorem oneOutcome_destroying : ∃ st, run step (new []) (destroying .arbitrary) = some st ∧
    OneOutcome (st.clients 0).log 4 := by
  obtain ⟨st, hrun⟩ := run_destroying .arbitrary
  exact ⟨st, hrun, oneOutcome_of_orderly (orderly_destroying .arbitrary) hrun 0 4⟩

/-- An object that is kept after it was applied is cancelled as well. -/
theorem run_keeping (ord : IterOrder) :
    ∃ st, run step (new []) (applying ord ++ [(ord, .notifyChanges (monitor true))]) = some st ∧
      1 < (st.clients 0).log.countP (·.outcome == some 4) := by
  simp [applying, run, step, notifyChanges, notifyClient, stateChanged, iter_singleton,
      monitor, bind, new, setClient, Function.update, Client.initial, sendNewHead, Client.send,
      outputChanged, Client.notifyEntry, Client.notifyNewHead, Client.notifyOutput, Client.head,
      Client.notifyVrr, Client.notifyCurrentMode, Client.notifyLogical, Client.notifyGone,
      Client.notifyDone, createConfiguration, configuration, enableHead,
      configureHead, Client.conf, Client.setConf, Client.initConfHead, finishConfiguration,
      Client.applied]
  decide

theorem not_oneOutcome : ¬ ∀ (config : List OutputConfig) (actions : List (IterOrder × Action))
    (st : OutputManagementManagerState), run step (new config) actions = some st →
    ∀ client conf, OneOutcome (st.clients client).log conf := by
  intro hall
  obtain ⟨st, hrun, htwo⟩ := run_keeping .arbitrary
  have hone := (hall [] _ st hrun 0 4).outcomes
  omega

end OutputManagementManagerState

end Macniri.OutputManagement
