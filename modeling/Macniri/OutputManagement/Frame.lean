import Macniri.OutputManagement.State

/-! What the changes of the output state leave alone in a client. -/
namespace Macniri.OutputManagement

open List

/-- The configuration object whose outcome an event reports. -/
def Event.outcome : Event → Option ℕ
  | .succeeded conf | .failed conf | .cancelled conf => some conf
  | _ => none

namespace Client

/-- The two clients differ in their heads and modes, and in what they were told about them. -/
structure Same (c c' : Client) : Prop where
  connected : c'.connected = c.connected
  managers : c'.managers = c.managers
  confs : c'.confs = c.confs
  confHeads : c'.confHeads = c.confHeads
  data : (c'.data.map fun d => (d.confs, d.manager)) = c.data.map fun d => (d.confs, d.manager)
  nextObject : c.nextObject ≤ c'.nextObject
  log : ∃ events : List Event, c'.log = c.log ++ events.map .event ∧ ∀ e ∈ events, Event.outcome e = none

variable {c c' c'' : Client} {o : ℕ} {old conf : Output} {events : List Event}

theorem Same.refl (c : Client) : c.Same c :=
  ⟨rfl, rfl, rfl, rfl, rfl, Nat.le_refl _, [], by simp⟩

theorem Same.trans (h : c.Same c') (h' : c'.Same c'') : c.Same c'' := by
  obtain ⟨events, hlog, hevents⟩ := h.log
  obtain ⟨events', hlog', hevents'⟩ := h'.log
  refine ⟨h'.connected.trans h.connected, h'.managers.trans h.managers, h'.confs.trans h.confs,
    h'.confHeads.trans h.confHeads, h'.data.trans h.data, Nat.le_trans h.nextObject h'.nextObject,
    events ++ events', by simp [hlog, hlog'], fun e he => ?_⟩
  rcases mem_append.mp he with he | he
  · exact hevents e he
  · exact hevents' e he

theorem same_send (h : ∀ e ∈ events, Event.outcome e = none) : c.Same (c.send events) :=
  ⟨rfl, rfl, rfl, rfl, rfl, Nat.le_refl _, events, rfl, h⟩

theorem same_setModes {head : Head} {modes : List ℕ} : c.Same (c.setModes o head modes) := by
  refine ⟨rfl, rfl, rfl, rfl, ?_, Nat.le_refl _, [], by simp [setModes], by simp⟩
  simp only [setModes, Option.map_map]
  rfl

theorem same_notifyVrr : c.Same (c.notifyVrr o conf) := by
  unfold notifyVrr
  split
  · exact .refl c
  · apply same_send
    unfold vrrEvents
    split <;> simp [Event.outcome]

theorem outcome_refreshEvents {id : ℕ} {mode : Mode} :
    ∀ e ∈ refreshEvents id mode, Event.outcome e = none := by
  unfold refreshEvents
  split <;> simp [Event.outcome]

theorem outcome_reusedModesEvents {modes : List ℕ} {newModes : List Mode} :
    ∀ e ∈ reusedModesEvents modes newModes, Event.outcome e = none := by
  intro e he
  obtain ⟨⟨id, mode⟩, -, he⟩ := mem_flatMap.mp he
  rcases mem_cons.mp he with rfl | he
  · rfl
  · exact outcome_refreshEvents e he

theorem outcome_addedModesEvents {head : ℕ} {ids : List ℕ} {modes : List Mode} :
    ∀ e ∈ addedModesEvents head ids modes, Event.outcome e = none := by
  intro e he
  obtain ⟨⟨id, mode⟩, -, he⟩ := mem_flatMap.mp he
  rcases mem_append.mp he with he | he
  · simp only [mem_cons, not_mem_nil, or_false] at he
    rcases he with rfl | rfl <;> rfl
  · exact outcome_refreshEvents e he

theorem same_notifyModes : c.Same (c.notifyModes o conf) := by
  unfold notifyModes
  split
  · exact .refl c
  · dsimp only
    split
    · refine .trans ?_ same_setModes
      have hnext : ∀ n, c.Same { c with nextObject := c.nextObject + n } := fun n =>
        ⟨rfl, rfl, rfl, rfl, rfl, Nat.le_add_right .., [], by simp⟩
      refine (hnext _).trans (same_send fun e he => ?_)
      rcases mem_append.mp he with he | he
      · exact outcome_reusedModesEvents e he
      · exact outcome_addedModesEvents e he
    · split
      · refine .trans (same_send fun e he => ?_) same_setModes
        rcases mem_append.mp he with he | he
        · exact outcome_reusedModesEvents e he
        · obtain ⟨id, -, rfl⟩ := List.mem_map.mp he
          rfl
      · exact same_send outcome_reusedModesEvents

theorem outcome_currentModeEvents {head : Head} {modes : List ℕ} {index : ℕ} :
    ∀ e ∈ currentModeEvents head modes index, Event.outcome e = none := by
  intro e he
  obtain ⟨id, -, rfl⟩ := List.mem_map.mp he
  rfl

theorem same_notifyCurrentMode : c.Same (c.notifyCurrentMode o old conf) := by
  unfold notifyCurrentMode
  split
  · exact .refl c
  · split
    · split
      · exact same_send outcome_currentModeEvents
      · exact .refl c
    · exact same_send (by simp [Event.outcome])
    · split
      · refine same_send fun e he => ?_
        rcases mem_cons.mp he with rfl | he
        · rfl
        · exact outcome_currentModeEvents e he
      · exact .refl c
    · exact .refl c

theorem same_notifyLogical : c.Same (c.notifyLogical o old conf) := by
  unfold notifyLogical
  split
  · exact .refl c
  · split
    · apply same_send
      intro e he
      unfold movedEvents at he
      split_ifs at he <;> simp at he <;> rcases he with rfl | rfl | rfl <;> rfl
    · exact same_send (by simp [logicalEvents, Event.outcome])
    · exact .refl c
    · exact .refl c

theorem same_notifyOutput : c.Same (c.notifyOutput o old conf) := by
  have hvrr : c.Same (if old.vrrEnabled ≠ conf.vrrEnabled then c.notifyVrr o conf else c) := by
    split
    · exact same_notifyVrr
    · exact .refl c
  have hmodes : ∀ c : Client, c.Same (if old.modes ≠ conf.modes then c.notifyModes o conf else c) := by
    intro c
    split
    · exact same_notifyModes
    · exact .refl c
  exact ((hvrr.trans (hmodes _)).trans same_notifyCurrentMode).trans same_notifyLogical

theorem outcome_newModesEvents {head : ℕ} {currentMode : Option ℕ} :
    ∀ (index : ℕ) (ids : List ℕ) (modes : List Mode),
      ∀ e ∈ newModesEvents head currentMode index ids modes, Event.outcome e = none
  | _, [], _ => by simp [newModesEvents]
  | _, _ :: _, [] => by simp [newModesEvents]
  | index, id :: ids, mode :: modes => by
    intro e he
    rcases mem_append.mp he with he | he
    · unfold newModeEvents at he
      simp only [mem_append] at he
      rcases he with ((he | he) | he) | he
      · simp only [mem_cons, not_mem_nil, or_false] at he
        rcases he with rfl | rfl <;> rfl
      · split_ifs at he <;> simp at he
        subst he
        rfl
      · exact outcome_refreshEvents e he
      · split_ifs at he <;> simp at he
        subst he
        rfl
    · exact outcome_newModesEvents (index + 1) ids modes e he

theorem outcome_headStateEvents {head : Head} :
    ∀ e ∈ headStateEvents head conf, Event.outcome e = none := by
  intro e he
  unfold headStateEvents vendorEvents vrrEvents at he
  simp only [mem_append] at he
  rcases he with ((he | he) | (he | he) | he) | he
  · obtain ⟨l, -, he⟩ := mem_flatMap.mp he
    simp only [logicalEvents, mem_cons, not_mem_nil, or_false] at he
    rcases he with rfl | rfl | rfl <;> rfl
  · simp only [mem_cons, not_mem_nil, or_false] at he
    subst he
    rfl
  · split_ifs at he <;> simp at he
    subst he
    rfl
  · split_ifs at he <;> simp at he
    subst he
    rfl
  · split_ifs at he <;> simp at he
    obtain ⟨s, -, rfl⟩ := he
    rfl
  · split_ifs at he <;> simp at he
    subst he
    rfl

theorem outcome_newHeadEvents {manager : Manager} {head : Head} {modes : List ℕ} :
    ∀ e ∈ newHeadEvents manager head modes conf, Event.outcome e = none := by
  intro e he
  unfold newHeadEvents at he
  simp only [mem_append] at he
  rcases he with ((he | he) | he) | he
  · simp only [mem_cons, not_mem_nil, or_false] at he
    rcases he with rfl | rfl | rfl <;> rfl
  · unfold physicalSizeEvents at he
    split at he
    · split_ifs at he <;> simp at he
      subst he
      rfl
    · simp at he
  · exact outcome_newModesEvents _ _ _ e he
  · exact outcome_headStateEvents e he

/-- A new head changes only the heads of the entry it is sent for. -/
theorem same_sendNewHead (c : Client) (d : ClientData) (o : ℕ) (conf : Output) :
    c.Same { (sendNewHead c d o conf).1 with data := c.data } ∧
      (sendNewHead c d o conf).2.confs = d.confs ∧
      (sendNewHead c d o conf).2.manager = d.manager ∧
      (sendNewHead c d o conf).1.data = c.data :=
  ⟨⟨rfl, rfl, rfl, rfl, rfl, by simp [sendNewHead, send]; omega, _, rfl, outcome_newHeadEvents⟩,
    rfl, rfl, rfl⟩

theorem same_sendNewHeads (entries : List (Σ _ : ℕ, Output)) (c : Client) (d : ClientData) :
    let out := entries.foldl (fun (c, d) e => sendNewHead c d e.1 e.2) (c, d)
    c.Same { out.1 with data := c.data } ∧ out.2.confs = d.confs ∧ out.2.manager = d.manager := by
  induction entries generalizing c d with
  | nil => exact ⟨.refl c, rfl, rfl⟩
  | cons e entries ih =>
    obtain ⟨hsame, hconfs, hmanager, hdata⟩ := same_sendNewHead c d e.1 e.2
    obtain ⟨hsame', hconfs', hmanager'⟩ := ih (sendNewHead c d e.1 e.2).1 (sendNewHead c d e.1 e.2).2
    exact ⟨hsame.trans hsame', hconfs'.trans hconfs, hmanager'.trans hmanager⟩

theorem same_notifyNewHead : c.Same (c.notifyNewHead o conf) := by
  unfold notifyNewHead
  split
  · exact .refl c
  · rename_i d hd
    obtain ⟨hsame, hconfs, hmanager, -⟩ := same_sendNewHead c d o conf
    exact { hsame with data := by simp [hd, hconfs, hmanager] }

theorem same_notifyEntry {currentState : HashMap ℕ Output} :
    c.Same (c.notifyEntry currentState o conf) := by
  unfold notifyEntry
  split
  · exact same_notifyOutput
  · exact same_notifyNewHead

theorem same_notifyGone {newState : HashMap ℕ Output} : c.Same (c.notifyGone newState o) := by
  unfold notifyGone notifyRemovedHead
  split
  · split
    · exact .refl c
    · have hremove : c.Same { c with
          data := c.data.map fun d => { d with heads := d.heads.remove o } } := by
        refine ⟨rfl, rfl, rfl, rfl, ?_, Nat.le_refl _, [], by simp⟩
        simp only [Option.map_map]
        rfl
      refine hremove.trans (same_send fun e he => ?_)
      · rcases mem_append.mp he with he | he
        · obtain ⟨id, -, rfl⟩ := List.mem_map.mp he
          rfl
        · obtain rfl := mem_singleton.mp he
          rfl
  · exact .refl c

theorem same_foldl {α : Type} {f : Client → α → Client} (h : ∀ (c : Client) x, c.Same (f c x)) (xs : List α) :
    c.Same (xs.foldl f c) := by
  induction xs generalizing c with
  | nil => exact .refl c
  | cons x xs ih => exact (h c x).trans ih

/-- The loops of `notify_changes` over the outputs. -/
theorem same_notifyClient (ord : IterOrder) (st : OutputManagementManagerState)
    (newState : HashMap ℕ Output) (c : Client) : c.Same (st.notifyClient ord newState c) :=
  (same_foldl (fun _ _ => same_notifyEntry) _).trans (same_foldl (fun _ _ => same_notifyGone) _)

end Client

end Macniri.OutputManagement
