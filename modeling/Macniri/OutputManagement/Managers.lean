import Macniri.OutputManagement.Run

/-! Several managers of one client: when each goes on being served. -/
namespace Macniri.OutputManagement

open Option List HashMap

open Function (update)

/-! The events of a change, for the head that a client has for the output. -/

/-- The events for a new list of modes, and the mode objects after it. -/
def modesChange (next : ℕ) (head : Head) (modes : List ℕ) (conf : Output) : List Event × List ℕ :=
  let leastModesLen := min modes.length conf.modes.length
  let reused := Client.reusedModesEvents modes conf.modes
  if leastModesLen < conf.modes.length then
    let added := conf.modes.drop leastModesLen
    let ids := List.range' next added.length
    (reused ++ Client.addedModesEvents head.id ids added, modes ++ ids)
  else
    (reused ++ (modes.drop leastModesLen).map .modeFinished, modes.take leastModesLen)

def currentModeChange (head : Head) (modes : List ℕ) (old conf : Output) : List Event :=
  match old.currentMode, conf.currentMode with
  | some oldIndex, some newIndex =>
    if old.modes.length = conf.modes.length ∧ (old.modes ≠ conf.modes ∨ oldIndex ≠ newIndex) then
      Client.currentModeEvents head modes newIndex
    else []
  | some _, none => [.enabled head.id false]
  | none, some newIndex =>
    if old.modes.length = conf.modes.length then
      .enabled head.id true :: Client.currentModeEvents head modes newIndex
    else []
  | none, none => []

def logicalChange (head : Head) (old conf : Output) : List Event :=
  match old.logical, conf.logical with
  | some oldLogical, some newLogical => Client.movedEvents head.id oldLogical newLogical
  | none, some newLogical => logicalEvents head.id newLogical
  | some _, none | none, none => []

/-- Everything that the diff of an output has to tell the head of a manager, which has the given mode
objects; new ones are counted from `next`. -/
def outputChange (next : ℕ) (head : Head) (modes : List ℕ) (old conf : Output) : List Event :=
  let vrr := if old.vrrEnabled ≠ conf.vrrEnabled then vrrEvents head conf else []
  let change := if old.modes ≠ conf.modes then modesChange next head modes conf else ([], modes)
  vrr ++ change.1 ++ currentModeChange head change.2 old conf ++ logicalChange head old conf

namespace Client

variable {c c' : Client} {o : ℕ} {old conf : Output} {head : Head} {modes modes' : List ℕ}
variable {events : List Event}

/-- A head is sent events and has other modes after it; nothing else changes. -/
structure Tells (c c' : Client) (o : ℕ) (head : Head) (events : List Event) (modes : List ℕ) :
    Prop where
  same : c.Same c'
  log : c'.log = c.log ++ events.map .event
  heads : c'.heads = c.heads
  head : c'.head o = some (head, modes)
  other : ∀ o', o' ≠ o → c'.head o' = c.head o'

theorem Tells.trans {c'' : Client} {events' : List Event} (h : c.Tells c' o head events modes)
    (h' : c'.Tells c'' o head events' modes') : c.Tells c'' o head (events ++ events') modes' where
  same := h.same.trans h'.same
  log := by simp [h.log, h'.log]
  heads := h'.heads.trans h.heads
  head := h'.head
  other o' ho := (h'.other o' ho).trans (h.other o' ho)

theorem tells_send (h : c.head o = some (head, modes)) (hout : ∀ e ∈ events, e.outcome = none) :
    c.Tells (c.send events) o head events modes :=
  ⟨same_send hout, rfl, rfl, h, fun _ _ => rfl⟩

theorem tells_nil (h : c.head o = some (head, modes)) : c.Tells c o head [] modes :=
  ⟨.refl c, by simp, rfl, h, fun _ _ => rfl⟩

theorem tells_setModes (hc : c.head o = some (head, modes)) (h : c.Same (c'.setModes o head modes'))
    (hlog : c'.log = c.log ++ events.map .event) (hheads : c'.heads = c.heads)
    (hdata : c'.data = c.data) :
    c.Tells (c'.setModes o head modes') o head events modes' := by
  cases hd : c.data with
  | none => simp [Client.head, hd] at hc
  | some d =>
    refine ⟨h, hlog, hheads, ?_, fun o' ho => ?_⟩
    · simp [Client.head, setModes, hdata, hd]
    · simp [Client.head, setModes, hdata, hd, ho]

theorem tells_notifyModes (h : c.head o = some (head, modes)) :
    c.Tells (c.notifyModes o conf) o head (modesChange c.nextObject head modes conf).1
      (modesChange c.nextObject head modes conf).2 := by
  have hsame : c.Same (c.notifyModes o conf) := same_notifyModes
  unfold notifyModes at hsame ⊢
  rw [h] at hsame ⊢
  unfold modesChange
  dsimp only at hsame ⊢
  split_ifs at hsame ⊢ with hadded hremoved
  · exact tells_setModes h hsame rfl rfl rfl
  · exact tells_setModes h hsame rfl rfl rfl
  · have hle : modes.length ≤ min modes.length conf.modes.length := Nat.le_of_not_lt hremoved
    rw [drop_of_length_le hle, take_of_length_le hle, map_nil, append_nil]
    exact tells_send h outcome_reusedModesEvents

theorem tells_notifyCurrentMode (h : c.head o = some (head, modes)) :
    c.Tells (c.notifyCurrentMode o old conf) o head (currentModeChange head modes old conf) modes := by
  have hsame : c.Same (c.notifyCurrentMode o old conf) := same_notifyCurrentMode
  unfold notifyCurrentMode at hsame ⊢
  unfold currentModeChange
  rw [h] at hsame ⊢
  dsimp only at hsame ⊢
  cases hold : old.currentMode <;> cases hconf : conf.currentMode <;>
    simp only [hold, hconf] at hsame ⊢
  · exact tells_nil h
  · split_ifs at hsame ⊢
    · exact ⟨hsame, rfl, rfl, h, fun _ _ => rfl⟩
    · exact tells_nil h
  · exact ⟨hsame, rfl, rfl, h, fun _ _ => rfl⟩
  · split_ifs at hsame ⊢
    · exact ⟨hsame, rfl, rfl, h, fun _ _ => rfl⟩
    · exact tells_nil h

theorem tells_notifyLogical (h : c.head o = some (head, modes)) :
    c.Tells (c.notifyLogical o old conf) o head (logicalChange head old conf) modes := by
  have hsame : c.Same (c.notifyLogical o old conf) := same_notifyLogical
  unfold notifyLogical at hsame ⊢
  unfold logicalChange
  rw [h] at hsame ⊢
  dsimp only at hsame ⊢
  cases hold : old.logical <;> cases hconf : conf.logical <;> simp only [hold, hconf] at hsame ⊢
  · exact tells_nil h
  · exact ⟨hsame, rfl, rfl, h, fun _ _ => rfl⟩
  · exact tells_nil h
  · exact ⟨hsame, rfl, rfl, h, fun _ _ => rfl⟩

/-- The mode objects of the head after a change. -/
def modesAfter (next : ℕ) (head : Head) (modes : List ℕ) (old conf : Output) : List ℕ :=
  if old.modes ≠ conf.modes then (modesChange next head modes conf).2 else modes

theorem tells_notifyOutput (h : c.head o = some (head, modes)) :
    c.Tells (c.notifyOutput o old conf) o head (outputChange c.nextObject head modes old conf)
      (modesAfter c.nextObject head modes old conf) := by
  have hvrr : c.Tells (if old.vrrEnabled ≠ conf.vrrEnabled then c.notifyVrr o conf else c) o head
      (if old.vrrEnabled ≠ conf.vrrEnabled then vrrEvents head conf else []) modes := by
    split_ifs
    · have hsame : c.Same (c.notifyVrr o conf) := same_notifyVrr
      unfold notifyVrr at hsame ⊢
      rw [h] at hsame ⊢
      exact ⟨hsame, rfl, rfl, h, fun _ _ => rfl⟩
    · exact tells_nil h
  have hnext : (if old.vrrEnabled ≠ conf.vrrEnabled then c.notifyVrr o conf else c).nextObject =
      c.nextObject := by
    unfold notifyVrr
    rw [h]
    split_ifs <;> rfl
  set c₁ := if old.vrrEnabled ≠ conf.vrrEnabled then c.notifyVrr o conf else c with hc₁
  set change := if old.modes ≠ conf.modes then modesChange c.nextObject head modes conf
    else ([], modes) with hchange
  have hmodes : c₁.Tells (if old.modes ≠ conf.modes then c₁.notifyModes o conf else c₁) o head
      change.1 change.2 := by
    rw [hchange]
    split_ifs
    · rw [← hnext]
      exact tells_notifyModes hvrr.head
    · exact tells_nil hvrr.head
  have hafter : modesAfter c.nextObject head modes old conf = change.2 := by
    rw [hchange, modesAfter]
    split_ifs <;> rfl
  rw [hafter]
  exact ((hvrr.trans hmodes).trans (tells_notifyCurrentMode hmodes.head)).trans
    (tells_notifyLogical (tells_notifyCurrentMode hmodes.head).head)

theorem notifyOutput_of_head_none (h : c.head o = none) : c.notifyOutput o old conf = c := by
  simp [notifyOutput, notifyVrr, notifyModes, notifyCurrentMode, notifyLogical, h]

end Client

/-- Whether an event begins or ends a head. -/
def Event.bounds : Event → Bool
  | .head _ _ | .headFinished _ => true
  | _ => false

section Bounds

variable {next o : ℕ} {head : Head} {modes : List ℕ} {old conf : Output} {e : Event}

theorem bounds_refreshEvents {id : ℕ} {mode : Mode} (he : e ∈ refreshEvents id mode) :
    e.bounds = false := by
  unfold refreshEvents at he
  split at he <;> simp at he
  subst he
  rfl

theorem bounds_modesChange (he : e ∈ (modesChange next head modes conf).1) : e.bounds = false := by
  have hreused : ∀ e ∈ Client.reusedModesEvents modes conf.modes, e.bounds = false := by
    intro e he
    obtain ⟨⟨id, mode⟩, -, he⟩ := mem_flatMap.mp he
    rcases mem_cons.mp he with rfl | he
    · rfl
    · exact bounds_refreshEvents he
  unfold modesChange at he
  dsimp only at he
  split at he <;> rcases mem_append.mp he with he | he
  · exact hreused e he
  · obtain ⟨⟨id, mode⟩, -, he⟩ := mem_flatMap.mp he
    rcases mem_append.mp he with he | he
    · simp only [mem_cons, not_mem_nil, or_false] at he
      rcases he with rfl | rfl <;> rfl
    · exact bounds_refreshEvents he
  · exact hreused e he
  · obtain ⟨id, -, rfl⟩ := List.mem_map.mp he
    rfl

theorem bounds_currentModeChange (he : e ∈ currentModeChange head modes old conf) :
    e.bounds = false := by
  have hcurrent : ∀ i, ∀ e ∈ Client.currentModeEvents head modes i, e.bounds = false := by
    intro i e he
    obtain ⟨id, -, rfl⟩ := List.mem_map.mp he
    rfl
  unfold currentModeChange at he
  split at he
  · split at he
    · exact hcurrent _ e he
    · cases he
  · obtain rfl := mem_singleton.mp he
    rfl
  · split at he
    · rcases mem_cons.mp he with rfl | he
      · rfl
      · exact hcurrent _ e he
    · cases he
  · cases he

theorem bounds_logicalChange (he : e ∈ logicalChange head old conf) : e.bounds = false := by
  unfold logicalChange at he
  split at he
  · unfold Client.movedEvents at he
    split_ifs at he <;> simp at he <;> rcases he with rfl | rfl | rfl <;> rfl
  · simp only [logicalEvents, mem_cons, not_mem_nil, or_false] at he
    rcases he with rfl | rfl | rfl <;> rfl
  · cases he
  · cases he

theorem bounds_outputChange (he : e ∈ outputChange next head modes old conf) : e.bounds = false := by
  unfold outputChange at he
  simp only [mem_append] at he
  rcases he with ((he | he) | he) | he
  · unfold vrrEvents at he
    split_ifs at he <;> simp at he
    subst he
    rfl
  · split_ifs at he
    · exact bounds_modesChange he
    · cases he
  · exact bounds_currentModeChange he
  · exact bounds_logicalChange he

/-- A mode object that the head did not have before is announced. -/
theorem mode_mem_outputChange {id : ℕ} (h : id ∈ Client.modesAfter next head modes old conf) :
    id ∈ modes ∨ .mode head.id id ∈ outputChange next head modes old conf := by
  unfold Client.modesAfter at h
  split_ifs at h with hchanged
  · have hmem : id ∈ modes ∨ .mode head.id id ∈ (modesChange next head modes conf).1 := by
      unfold modesChange at h ⊢
      dsimp only at h ⊢
      split_ifs at h ⊢ with hadded
      · rcases mem_append.mp h with h | h
        · exact .inl h
        · right
          apply mem_append_right
          obtain ⟨i, hi, hid⟩ := getElem_of_mem h
          have hi' : i < (conf.modes.drop (min modes.length conf.modes.length)).length := by
            simpa using hi
          apply mem_flatMap.mpr
          refine ⟨(id, (conf.modes.drop (min modes.length conf.modes.length))[i]), ?_, by simp⟩
          rw [← hid]
          exact mem_iff_getElem.mpr ⟨i, by simpa using hi, by simp⟩
      · exact .inl (mem_of_mem_take h)
    rcases hmem with hmem | hmem
    · exact .inl hmem
    · right
      unfold outputChange
      simp only [if_pos hchanged, mem_append]
      exact .inl (.inl (.inr hmem))
  · exact .inl h

theorem mode_mem_newModesEvents {h index : ℕ} {cm : Option ℕ} {ids : List ℕ} {ms : List Mode}
    (hlen : ids.length = ms.length) {id : ℕ} (hid : id ∈ ids) :
    .mode h id ∈ newModesEvents h cm index ids ms := by
  induction ids generalizing index ms with
  | nil => cases hid
  | cons id' ids ih =>
    cases ms with
    | nil => simp at hlen
    | cons mode ms =>
      rcases mem_cons.mp hid with rfl | hid
      · simp [newModesEvents, newModeEvents]
      · exact mem_append_right _ (ih (by simpa using hlen) hid)

/-- A new head begins with the announcement that the client gets from its manager. -/
theorem bounds_newHeadEvents {manager : Manager} (he : e ∈ newHeadEvents manager head modes conf)
    (hb : e.bounds = true) : e = .head manager.id head.id := by
  have hmodes : ∀ index ids ms, e ∉ newModesEvents head.id conf.currentMode index ids ms := by
    intro index ids ms he
    induction ids generalizing index ms with
    | nil => simp [newModesEvents] at he
    | cons id ids ih =>
      cases ms with
      | nil => simp [newModesEvents] at he
      | cons mode ms =>
        rcases mem_append.mp he with he | he
        · unfold newModeEvents at he
          simp only [mem_append] at he
          rcases he with ((he | he) | he) | he
          · simp only [mem_cons, not_mem_nil, or_false] at he
            rcases he with rfl | rfl <;> cases hb
          · split_ifs at he <;> simp at he
            subst he
            cases hb
          · rw [bounds_refreshEvents he] at hb
            cases hb
          · split_ifs at he <;> simp at he
            subst he
            cases hb
        · exact ih _ _ he
  unfold newHeadEvents at he
  simp only [mem_append] at he
  rcases he with ((he | he) | he) | he
  · simp only [mem_cons, not_mem_nil, or_false] at he
    rcases he with rfl | rfl | rfl
    · rfl
    · cases hb
    · cases hb
  · unfold physicalSizeEvents at he
    split at he
    · split_ifs at he <;> simp at he
      subst he
      cases hb
    · cases he
  · exact absurd he (hmodes _ _ _)
  · unfold headStateEvents vendorEvents vrrEvents at he
    simp only [mem_append] at he
    rcases he with ((he | he) | (he | he) | he) | he
    · obtain ⟨l, -, he⟩ := mem_flatMap.mp he
      simp only [logicalEvents, mem_cons, not_mem_nil, or_false] at he
      rcases he with rfl | rfl | rfl <;> cases hb
    · obtain rfl := mem_singleton.mp he
      cases hb
    all_goals
      split_ifs at he <;> simp at he
      first | subst he | obtain ⟨s, -, rfl⟩ := he
      cases hb

end Bounds

namespace Client

/-- A head object of a manager that is neither destroyed nor finished, and its output. -/
def Live (c : Client) (m h o : ℕ) : Prop :=
  c.heads.get h = some o ∧ .head m h ∈ c.events ∧ .headFinished h ∉ c.events

/-- Each manager that is not stopped is the one of the client's entry, which keeps its live heads. -/
structure ManagersInv (cur : ℕ → Option Output) (c : Client) : Prop where
  served : ∀ m, c.managers.get m = some false → ∃ d, c.data = some d ∧ d.manager.id = m
  dom : ∀ o, (c.head o).isSome → (cur o).isSome
  tracked : ∀ m h o, c.managers.get m = some false → c.Live m h o →
    ∃ head modes, c.head o = some (head, modes) ∧ head.id = h
  announced : ∀ o head modes, c.head o = some (head, modes) →
    ∀ id ∈ modes, .mode head.id id ∈ c.events
  manager_lt : ∀ m, (c.managers.get m).isSome → m < c.nextObject
  data_lt : ∀ d, c.data = some d → d.manager.id < c.nextObject
  head_lt : ∀ m h, .head m h ∈ c.events → m < c.nextObject ∧ h < c.nextObject

variable {c c' : Client} {o : ℕ} {old conf : Output} {head : Head} {modes modes' : List ℕ}
variable {events : List Event} {cur cur' : ℕ → Option Output}

theorem managersInv_initial : ManagersInv cur .initial := by
  refine ⟨fun m h => ?_, fun o h => ?_, fun m h o hm => ?_, fun o head modes h => ?_, fun m h => ?_,
    fun d h => ?_, fun m h he => ?_⟩
  · simp [Client.initial] at h
  · simp [Client.initial, Client.head] at h
  · simp [Client.initial] at hm
  · simp [Client.initial, Client.head] at h
  · simp [Client.initial] at h
  · simp [Client.initial] at h
  · simp [Client.initial, Client.events] at he

theorem ManagersInv.mono (h : c.ManagersInv cur)
    (hcur : ∀ o, (c.head o).isSome → (cur o).isSome → (cur' o).isSome) : c.ManagersInv cur' :=
  { h with dom := fun o ho => hcur o ho (h.dom o ho) }

theorem events_of_log (hlog : c'.log = c.log ++ events.map .event) :
    c'.events = c.events ++ events := by
  simp [Client.events, hlog, filterMap_map]

/-- What changes the entry keeps its manager. -/
theorem manager_of_data (h : (c'.data.map fun d => (d.confs, d.manager)) =
    c.data.map fun d => (d.confs, d.manager)) :
    c'.data.map (·.manager) = c.data.map (·.manager) := by
  have := congrArg (Option.map Prod.snd) h
  simpa [Option.map_map, Function.comp_def] using this

theorem data_of_manager (h : c'.data.map (·.manager) = c.data.map (·.manager)) {d : ClientData}
    (hd : c.data = some d) : ∃ d', c'.data = some d' ∧ d'.manager = d.manager := by
  rw [hd, map_some] at h
  exact of_map h

/-- A change of one head that does not begin or end one. -/
theorem ManagersInv.tells (h : c.ManagersInv cur) (hhead : c.head o = some (head, modes))
    (ht : c.Tells c' o head events modes') (hbounds : ∀ e ∈ events, e.bounds = false)
    (hmodes : ∀ id ∈ modes', id ∈ modes ∨ .mode head.id id ∈ events) : c'.ManagersInv cur := by
  have hevents : c'.events = c.events ++ events := events_of_log ht.log
  have hmanager := manager_of_data ht.same.data
  have hnew : ∀ m h, Event.head m h ∈ c'.events → .head m h ∈ c.events := by
    intro m h he
    rw [hevents] at he
    rcases mem_append.mp he with he | he
    · exact he
    · simpa [Event.bounds] using hbounds _ he
  refine ⟨fun m hm => ?_, fun o' ho' => ?_, fun m h' o' hm hlive => ?_,
    fun o' head' ids hget id hid => ?_, fun m hm => ?_, fun d hd => ?_, fun m h' he => ?_⟩
  · obtain ⟨d, hd, hid⟩ := h.served m (ht.same.managers ▸ hm)
    obtain ⟨d', hd', hid'⟩ := data_of_manager hmanager hd
    exact ⟨d', hd', by rw [hid', hid]⟩
  · by_cases ho : o' = o
    · subst ho
      exact h.dom o' (by simp [hhead])
    · exact h.dom o' (ht.other o' ho ▸ ho')
  · obtain ⟨hget, hannounced, hfinished⟩ := hlive
    have hfinished' : Event.headFinished h' ∉ c.events := fun he =>
      hfinished (hevents ▸ mem_append_left _ he)
    obtain ⟨head', ids, hget', hid⟩ := h.tracked m h' o' (ht.same.managers ▸ hm)
      ⟨ht.heads ▸ hget, hnew m h' hannounced, hfinished'⟩
    by_cases ho : o' = o
    · subst ho
      rw [hhead] at hget'
      obtain ⟨rfl, rfl⟩ := pair_inj hget'
      exact ⟨head, modes', ht.head, hid⟩
    · exact ⟨head', ids, (ht.other o' ho).trans hget', hid⟩
  · rw [hevents]
    by_cases ho : o' = o
    · subst ho
      rw [ht.head] at hget
      obtain ⟨rfl, rfl⟩ := pair_inj hget
      rcases hmodes id hid with hold | hold
      · exact mem_append_left _ (h.announced o' head modes hhead id hold)
      · exact mem_append_right _ hold
    · rw [ht.other o' ho] at hget
      exact mem_append_left _ (h.announced o' head' ids hget id hid)
  · exact Nat.lt_of_lt_of_le (h.manager_lt m (ht.same.managers ▸ hm)) ht.same.nextObject
  · obtain ⟨d', hd', hid⟩ := data_of_manager hmanager.symm hd
    exact hid ▸ Nat.lt_of_lt_of_le (h.data_lt d' hd') ht.same.nextObject
  · obtain ⟨h₁, h₂⟩ := h.head_lt m h' (hnew m h' he)
    have := ht.same.nextObject
    omega

theorem ManagersInv.notifyOutput (h : c.ManagersInv cur) :
    (c.notifyOutput o old conf).ManagersInv cur := by
  cases hhead : c.head o with
  | none => rwa [notifyOutput_of_head_none hhead]
  | some entry =>
    exact h.tells hhead (tells_notifyOutput hhead) (fun e he => bounds_outputChange he)
      fun id hid => mode_mem_outputChange hid

theorem ManagersInv.notifyNewHead (h : c.ManagersInv cur) (hnone : c.head o = none) :
    (c.notifyNewHead o conf).ManagersInv (update cur o (some conf)) := by
  have hsame : c.Same (c.notifyNewHead o conf) := same_notifyNewHead
  cases hd : c.data with
  | none =>
    have hc : c.notifyNewHead o conf = c := by simp [Client.notifyNewHead, hd]
    rw [hc]
    refine h.mono fun o' ho' => ?_
    simp [Client.head, hd] at ho'
  | some d =>
    have hc : c.notifyNewHead o conf =
        { (sendNewHead c d o conf).1 with data := some (sendNewHead c d o conf).2 } := by
      simp [Client.notifyNewHead, hd]
    set head : Head := ⟨c.nextObject, d.manager.version⟩ with hhead
    set ids := List.range' (c.nextObject + 1) conf.modes.length with hids
    have hget : ∀ o', (c.notifyNewHead o conf).head o' =
        if o' = o then some (head, ids) else c.head o' := by
      intro o'
      rw [hc]
      simp only [Client.head, sendNewHead, bind_some, hd]
      rw [get_insert]
    have hheads : (c.notifyNewHead o conf).heads = c.heads.insert c.nextObject o := by
      rw [hc]
      rfl
    have hnext : (c.notifyNewHead o conf).nextObject = c.nextObject + 1 + conf.modes.length := by
      rw [hc]
      rfl
    have hevents : (c.notifyNewHead o conf).events =
        c.events ++ newHeadEvents d.manager head ids conf := by
      apply events_of_log
      rw [hc]
      rfl
    have hnew : ∀ m h', Event.head m h' ∈ newHeadEvents d.manager head ids conf →
        m = d.manager.id ∧ h' = c.nextObject := by
      intro m h' he
      have heq := bounds_newHeadEvents he rfl
      exact ⟨(Event.head.inj heq).1, (Event.head.inj heq).2⟩
    have hdata : (c.notifyNewHead o conf).data = some (sendNewHead c d o conf).2 := by rw [hc]
    refine ⟨fun m hm => ?_, fun o' ho' => ?_, fun m h' o' hm hlive => ?_,
      fun o' head' ids' hget' id hid => ?_, fun m hm => ?_, fun d' hd' => ?_, fun m h' he => ?_⟩
    · obtain ⟨d', hd', hid⟩ := h.served m (hsame.managers ▸ hm)
      obtain rfl := some.inj (hd.symm.trans hd')
      exact ⟨_, hdata, hid⟩
    · rw [hget] at ho'
      by_cases ho : o' = o
      · simp [ho]
      · rw [if_neg ho] at ho'
        simpa [ho] using h.dom o' ho'
    · obtain ⟨hobject, hannounced, hfinished⟩ := hlive
      rw [hheads, get_insert] at hobject
      rw [hevents] at hannounced hfinished
      by_cases hh : h' = c.nextObject
      · rw [if_pos hh] at hobject
        obtain rfl := some.inj hobject
        exact ⟨head, ids, by simp [hget], hh.symm⟩
      · rw [if_neg hh] at hobject
        have hannounced' : Event.head m h' ∈ c.events := by
          rcases mem_append.mp hannounced with he | he
          · exact he
          · exact absurd (hnew m h' he).2 hh
        obtain ⟨head', ids', hget', hid⟩ := h.tracked m h' o' (hsame.managers ▸ hm)
          ⟨hobject, hannounced', fun he => hfinished (mem_append_left _ he)⟩
        have ho : o' ≠ o := by
          rintro rfl
          rw [hnone] at hget'
          cases hget'
        exact ⟨head', ids', by rw [hget, if_neg ho, hget'], hid⟩
    · rw [hget] at hget'
      rw [hevents]
      split_ifs at hget' with ho
      · obtain ⟨rfl, rfl⟩ := pair_inj hget'
        apply mem_append_right
        unfold newHeadEvents
        refine mem_append_left _ (mem_append_right _ ?_)
        exact mode_mem_newModesEvents (by simp [hids]) hid
      · exact mem_append_left _ (h.announced o' head' ids' hget' id hid)
    · have := h.manager_lt m (hsame.managers ▸ hm)
      omega
    · obtain rfl := some.inj (hdata.symm.trans hd')
      have : d.manager.id < c.nextObject := h.data_lt d hd
      change d.manager.id < _
      omega
    · rw [hevents] at he
      rcases mem_append.mp he with he | he
      · have := h.head_lt m h' he
        omega
      · obtain ⟨rfl, rfl⟩ := hnew m h' he
        have := h.data_lt d hd
        omega

theorem ManagersInv.notifyRemovedHead (h : c.ManagersInv cur) :
    (c.notifyRemovedHead o).ManagersInv (update cur o none) := by
  cases hhead : c.head o with
  | none =>
    have hc : c.notifyRemovedHead o = c := by simp [Client.notifyRemovedHead, hhead]
    rw [hc]
    refine h.mono fun o' ho' hcur => ?_
    have ho : o' ≠ o := by
      rintro rfl
      simp [hhead] at ho'
    simpa [ho] using hcur
  | some entry =>
    obtain ⟨head, ids⟩ := entry
    have hc : c.notifyRemovedHead o =
        send { c with data := c.data.map fun d => { d with heads := d.heads.remove o } }
          (ids.map .modeFinished ++ [.headFinished head.id]) := by
      simp [Client.notifyRemovedHead, hhead]
    have hget : ∀ o', (c.notifyRemovedHead o).head o' = if o' = o then none else c.head o' := by
      intro o'
      rw [hc]
      cases hd : c.data with
      | none => simp [Client.head, Client.send, hd]
      | some d => simp [Client.head, Client.send, hd]
    have hevents : (c.notifyRemovedHead o).events =
        c.events ++ (ids.map .modeFinished ++ [.headFinished head.id]) := by
      apply events_of_log
      rw [hc]
      rfl
    have hold : ∀ m h', Event.head m h' ∈ (c.notifyRemovedHead o).events → .head m h' ∈ c.events := by
      intro m h' he
      simpa [hevents] using he
    have hmanager : (c.notifyRemovedHead o).data.map (·.manager) = c.data.map (·.manager) := by
      rw [hc]
      simp only [Client.send, Option.map_map]
      rfl
    have hmanagers : (c.notifyRemovedHead o).managers = c.managers := by rw [hc]; rfl
    have hheads : (c.notifyRemovedHead o).heads = c.heads := by rw [hc]; rfl
    have hnext : (c.notifyRemovedHead o).nextObject = c.nextObject := by rw [hc]; rfl
    refine ⟨fun m hm => ?_, fun o' ho' => ?_, fun m h' o' hm hlive => ?_,
      fun o' head' ids' hget' id hid => ?_, fun m hm => ?_, fun d hd => ?_, fun m h' he => ?_⟩
    · obtain ⟨d, hd, hid⟩ := h.served m (hmanagers ▸ hm)
      obtain ⟨d', hd', hid'⟩ := data_of_manager hmanager hd
      exact ⟨d', hd', by rw [hid', hid]⟩
    · rw [hget] at ho'
      split_ifs at ho' with ho
      · simp at ho'
      · simpa [ho] using h.dom o' ho'
    · obtain ⟨hobject, hannounced, hfinished⟩ := hlive
      rw [hheads] at hobject
      obtain ⟨head', ids', hget', hid⟩ := h.tracked m h' o' (hmanagers ▸ hm)
        ⟨hobject, hold m h' hannounced, fun he => hfinished (by simp [hevents, he])⟩
      have ho : o' ≠ o := by
        rintro rfl
        rw [hhead] at hget'
        obtain ⟨rfl, rfl⟩ := pair_inj hget'
        exact hfinished (by simp [hevents, hid])
      exact ⟨head', ids', by rw [hget, if_neg ho, hget'], hid⟩
    · rw [hget] at hget'
      split_ifs at hget' with ho
      rw [hevents]
      exact mem_append_left _ (h.announced o' head' ids' hget' id hid)
    · rw [hnext]
      exact h.manager_lt m (hmanagers ▸ hm)
    · obtain ⟨d', hd', hid⟩ := data_of_manager hmanager.symm hd
      rw [hnext, ← hid]
      exact h.data_lt d' hd'
    · rw [hnext]
      exact h.head_lt m h' (hold m h' he)

/-- What leaves heads and managers alone. -/
theorem ManagersInv.frame (h : c.ManagersInv cur) (hmanagers : c'.managers = c.managers)
    (hmanager : c'.data.map (·.manager) = c.data.map (·.manager))
    (hhead : ∀ o, c'.head o = c.head o) (hheads : c'.heads = c.heads)
    (hnext : c.nextObject ≤ c'.nextObject) (hevents : c'.events = c.events ++ events)
    (hbounds : ∀ e ∈ events, e.bounds = false) : c'.ManagersInv cur := by
  have hold : ∀ m h', Event.head m h' ∈ c'.events → .head m h' ∈ c.events := by
    intro m h' he
    rw [hevents] at he
    rcases mem_append.mp he with he | he
    · exact he
    · simpa [Event.bounds] using hbounds _ he
  refine ⟨fun m hm => ?_, fun o' ho' => h.dom o' (hhead o' ▸ ho'), fun m h' o' hm hlive => ?_,
    fun o' head' ids' hget' id hid => ?_, fun m hm => ?_, fun d hd => ?_, fun m h' he => ?_⟩
  · obtain ⟨d, hd, hid⟩ := h.served m (hmanagers ▸ hm)
    obtain ⟨d', hd', hid'⟩ := data_of_manager hmanager hd
    exact ⟨d', hd', by rw [hid', hid]⟩
  · obtain ⟨hobject, hannounced, hfinished⟩ := hlive
    rw [hhead]
    exact h.tracked m h' o' (hmanagers ▸ hm) ⟨hheads ▸ hobject, hold m h' hannounced,
      fun he => hfinished (hevents ▸ mem_append_left _ he)⟩
  · rw [hevents]
    exact mem_append_left _ (h.announced o' head' ids' (hhead o' ▸ hget') id hid)
  · exact Nat.lt_of_lt_of_le (h.manager_lt m (hmanagers ▸ hm)) hnext
  · obtain ⟨d', hd', hid⟩ := data_of_manager hmanager.symm hd
    exact hid ▸ Nat.lt_of_lt_of_le (h.data_lt d' hd') hnext
  · have := h.head_lt m h' (hold m h' he)
    omega

/-! A whole change of the state. -/

variable {currentState newState : HashMap ℕ Output}

theorem ManagersInv.notifyEntries (entries : List (Σ _ : ℕ, Output)) (h : c.ManagersInv cur)
    (hn : (entries.map Sigma.fst).Nodup) (hcur : ∀ e ∈ entries, cur e.1 = currentState.get e.1) :
    (entries.foldl (fun c e => c.notifyEntry currentState e.1 e.2) c).ManagersInv
      (entries.foldl (fun cur e => update cur e.1 (some e.2)) cur) := by
  induction entries generalizing c cur with
  | nil => exact h
  | cons e entries ih =>
    obtain ⟨he, hn⟩ := nodup_cons.mp hn
    have hfirst : (c.notifyEntry currentState e.1 e.2).ManagersInv (update cur e.1 (some e.2)) := by
      unfold notifyEntry
      split
      · refine h.notifyOutput.mono fun o' _ ho' => ?_
        by_cases ho : o' = e.1
        · simp [ho]
        · simpa [ho] using ho'
      · rename_i hget
        apply h.notifyNewHead
        by_contra hne
        have := h.dom e.1 (isSome_iff_ne_none.mpr hne)
        rw [hcur e (by simp), hget] at this
        cases this
    refine ih hfirst hn fun e' he' => ?_
    have hne : e'.1 ≠ e.1 := fun heq => he (heq ▸ List.mem_map_of_mem he')
    exact (Function.update_of_ne hne ..).trans (hcur e' (by simp [he']))

theorem ManagersInv.notifyGone (newState : HashMap ℕ Output) (entries : List (Σ _ : ℕ, Output))
    (h : c.ManagersInv cur) :
    (entries.foldl (fun c e => c.notifyGone newState e.1) c).ManagersInv fun o =>
      if o ∈ entries.map Sigma.fst ∧ newState.get o = none then none else cur o := by
  induction entries generalizing c cur with
  | nil => simpa using h
  | cons e entries ih =>
    have hfirst : (c.notifyGone newState e.1).ManagersInv
        (if newState.get e.1 = none then update cur e.1 none else cur) := by
      unfold Client.notifyGone
      by_cases hnone : newState.get e.1 = none
      · simpa [hnone] using h.notifyRemovedHead
      · simpa [hnone] using h
    have hrest := ih hfirst
    rw [foldl_cons]
    refine hrest.mono fun o _ ho => ?_
    simp only [map_cons, mem_cons]
    by_cases hoe : o = e.1
    · subst hoe
      by_cases hnone : newState.get e.1 = none
      · simp [hnone] at ho
      · simpa [hnone] using ho
    · have hcur : (if newState.get e.1 = none then update cur e.1 none else cur) o = cur o := by
        split_ifs
        · exact Function.update_of_ne hoe ..
        · rfl
      rw [hcur] at ho
      simp only [hoe, false_or]
      exact ho

theorem ManagersInv.notifyClient (ord : IterOrder) (newState : HashMap ℕ Output)
    {st : OutputManagementManagerState} (h : c.ManagersInv st.currentState.get) :
    (st.notifyClient ord newState c).ManagersInv newState.get := by
  have hentries := h.notifyEntries (ord.iter newState) (nodup_keys_iter ord newState)
    fun _ _ => rfl
  rw [foldl_update_iter] at hentries
  have hgone := hentries.notifyGone newState (ord.iter st.currentState)
  refine hgone.mono fun o _ ho => ?_
  cases hget : newState.get o with
  | some conf => rfl
  | none =>
    cases hcur : st.currentState.get o with
    | none => simp [hget, hcur] at ho
    | some old =>
      have hentry : (⟨o, old⟩ : Σ _ : ℕ, Output) ∈ ord.iter st.currentState :=
        (mem_iter ord).mpr hcur
      have hmem := List.mem_map_of_mem (f := Sigma.fst) hentry
      simp [hget, hmem] at ho

end Client

end Macniri.OutputManagement
