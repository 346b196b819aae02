import Mathlib.Data.List.Count
import Mathlib.Logic.Function.Basic

/-! Transactions between clients: clones that are counted, a deadline, and who is notified at the end. -/
namespace Macniri.Window

open Option List

inductive Deadline where
  | notRegistered
  | registered
  deriving DecidableEq, Repr

structure Inner (κ : Type) where
  /-- Whether the transaction is completed. -/
  completed : Bool
  /-- Notifications to send out upon completing the transaction. -/
  notifications : Option (List κ)

/-- What the clones of a transaction share. -/
structure Shared (κ : Type) where
  /-- The number of clones; nothing is left of the transaction at zero. -/
  strong : ℕ
  inner : Inner κ
  deadline : Deadline

/-- All transactions, with the event loop and the channel that they use. -/
structure Transactions (κ : Type) where
  shared : ℕ → Shared κ
  next : ℕ
  /-- The deadline timers in the event loop. -/
  timers : List ℕ
  /-- The pings to remove a timer that were not handled yet. -/
  pings : List ℕ
  /-- What was sent over `blocker_cleared_tx`. -/
  channel : List κ

inductive BlockerState where
  | pending
  | released
  deriving DecidableEq, Repr

namespace Transactions

variable {κ : Type}

def empty : Transactions κ := ⟨fun _ => ⟨0, ⟨false, none⟩, .notRegistered⟩, 0, [], [], []⟩

def new (T : Transactions κ) : Transactions κ × ℕ :=
  ({ T with
    shared := Function.update T.shared T.next ⟨1, ⟨false, none⟩, .notRegistered⟩
    next := T.next + 1 }, T.next)

def isCompleted (T : Transactions κ) (t : ℕ) : Bool := (T.shared t).inner.completed

/-- Returns whether this is the last instance of this transaction. -/
def isLast (T : Transactions κ) (t : ℕ) : Bool := (T.shared t).strong == 1

def clone (T : Transactions κ) (t : ℕ) : Transactions κ :=
  { T with shared := Function.update T.shared t { T.shared t with strong := (T.shared t).strong + 1 } }

/-- Adds a notification for when this transaction completes. -/
def addNotification (T : Transactions κ) (t : ℕ) (client : κ) : Transactions κ :=
  if T.isCompleted t then T
  else
    let inner := (T.shared t).inner
    { T with
      shared := Function.update T.shared t { T.shared t with
        inner := { inner with notifications := some (inner.notifications.getD [] ++ [client]) } } }

def registerDeadlineTimer (T : Transactions κ) (t : ℕ) : Transactions κ :=
  match (T.shared t).deadline with
  | .notRegistered =>
    { T with
      timers := T.timers ++ [t]
      shared := Function.update T.shared t { T.shared t with deadline := .registered } }
  | .registered => T

def complete (T : Transactions κ) (t : ℕ) : Transactions κ :=
  { T with
    channel := T.channel ++ (T.shared t).inner.notifications.getD []
    shared := Function.update T.shared t { T.shared t with inner := ⟨true, none⟩ } }

/-- Drop a clone; the last one completes the transaction and removes the timer. -/
def drop (T : Transactions κ) (t : ℕ) : Transactions κ :=
  let T :=
    if T.isLast t then
      let T := T.complete t
      match (T.shared t).deadline with
      | .registered => { T with pings := T.pings ++ [t] }
      | .notRegistered => T
    else T
  { T with shared := Function.update T.shared t { T.shared t with strong := (T.shared t).strong - 1 } }

def dropAll (T : Transactions κ) (ts : List ℕ) : Transactions κ := ts.foldl drop T

/-- The deadline timer; it may still run after the last clone is gone. -/
def deadline (T : Transactions κ) (t : ℕ) : Option (Transactions κ) :=
  if t ∈ T.timers then
    let T := { T with timers := T.timers.erase t }
    if (T.shared t).strong = 0 then some T else some (T.complete t)
  else none

/-- The ping source, which removes the timer. -/
def ping (T : Transactions κ) (t : ℕ) : Option (Transactions κ) :=
  if t ∈ T.pings then some { T with pings := T.pings.erase t, timers := T.timers.erase t } else none

/-- The state of a blocker, which does not count as a clone. -/
def blockerState (T : Transactions κ) (t : ℕ) : BlockerState :=
  if (T.shared t).strong = 0 then .released
  else if T.isCompleted t then .released
  else .pending

theorem strong_registerDeadlineTimer (T : Transactions κ) (t : ℕ) :
    ((T.registerDeadlineTimer t).shared t).strong = (T.shared t).strong := by
  unfold registerDeadlineTimer
  split <;> simp

theorem isCompleted_registerDeadlineTimer (T : Transactions κ) (t : ℕ) :
    (T.registerDeadlineTimer t).isCompleted t = T.isCompleted t := by
  unfold registerDeadlineTimer isCompleted
  split <;> simp

theorem deadline_registerDeadlineTimer (T : Transactions κ) (t : ℕ) :
    ((T.registerDeadlineTimer t).shared t).deadline = .registered := by
  unfold registerDeadlineTimer
  split
  · simp
  · assumption

/-- Dropping the last clone. -/
theorem drop_of_last {T : Transactions κ} {t : ℕ} (h : (T.shared t).strong = 1) :
    ∃ pings, (pings = [] ∨ pings = [t]) ∧ T.drop t = { T with
      channel := (T.complete t).channel
      pings := T.pings ++ pings
      shared := Function.update T.shared t ⟨0, ⟨true, none⟩, (T.shared t).deadline⟩ } := by
  cases hd : (T.shared t).deadline with
  | notRegistered =>
    refine ⟨[], .inl rfl, ?_⟩
    simp [Transactions.drop, isLast, h, complete, hd]
  | registered =>
    refine ⟨[t], .inr rfl, ?_⟩
    simp [Transactions.drop, isLast, h, complete, hd]

theorem drop_of_not_last {T : Transactions κ} {t : ℕ} (h : (T.shared t).strong ≠ 1) : T.drop t =
    { T with
      shared := Function.update T.shared t
        { T.shared t with strong := (T.shared t).strong - 1 } } := by
  simp [Transactions.drop, isLast, h]

/-! What holds of all transactions between steps: `H` are the clones that are held, `B` the blockers
that were added with the client to notify, and `F` those whose deadline fired. -/

variable [DecidableEq κ] {T : Transactions κ} {H H' : List ℕ} {B : List (κ × ℕ)} {F : List ℕ}
variable {t : ℕ} {c : κ}

structure Inv (T : Transactions κ) (H : List ℕ) (B : List (κ × ℕ)) (F : List ℕ) : Prop where
  strong : ∀ t, (T.shared t).strong = H.count t
  held : ∀ t ∈ H, t < T.next
  timers : ∀ t ∈ T.timers, t < T.next
  fired : ∀ t ∈ F, t < T.next
  blockers : ∀ b ∈ B, b.2 < T.next
  pings : ∀ t ∈ T.pings, t ∉ H ∧ t < T.next
  completed : ∀ t ∈ H, T.isCompleted t = true ↔ t ∈ F
  notified : ∀ t, T.isCompleted t = true → (T.shared t).inner.notifications = none
  notifications : ∀ t ∈ H, T.isCompleted t = false →
    ∀ c, ((T.shared t).inner.notifications.getD []).count c = B.count (c, t)
  timer : ∀ t ∈ H, T.isCompleted t = false → (T.shared t).deadline = .registered → t ∈ T.timers
  registered : ∀ b ∈ B, b.2 ∈ H → T.isCompleted b.2 = false →
    (T.shared b.2).deadline = .registered
  channel : ∀ c, T.channel.count c = B.countP fun b => b.1 = c ∧ (b.2 ∈ H → b.2 ∈ F)

theorem inv_empty : (empty : Transactions κ).Inv [] [] [] where
  strong _ := rfl
  held := by simp
  timers := by simp [empty]
  fired := by simp
  blockers := by simp
  pings := by simp [empty]
  completed := by simp
  notified _ h := by cases h
  notifications := by simp
  timer := by simp
  registered := by simp
  channel _ := rfl

/-- Only the number of the clones changes, and none of them comes or goes altogether. -/
theorem Inv.recount {T' : Transactions κ} (h : T.Inv H B F)
    (hinner : ∀ u, (T'.shared u).inner = (T.shared u).inner)
    (hdeadline : ∀ u, (T'.shared u).deadline = (T.shared u).deadline)
    (hrest : T'.next = T.next ∧ T'.timers = T.timers ∧ T'.pings = T.pings ∧ T'.channel = T.channel)
    (hmem : ∀ u, u ∈ H' ↔ u ∈ H) (hstrong : ∀ u, (T'.shared u).strong = H'.count u) :
    T'.Inv H' B F := by
  obtain ⟨hnext, htimers, hpings, hchannel⟩ := hrest
  have hcompleted : ∀ u, T'.isCompleted u = T.isCompleted u := by
    intro u
    rw [isCompleted, isCompleted, hinner]
  constructor
  · exact hstrong
  · simpa only [hmem, hnext] using h.held
  · simpa only [htimers, hnext] using h.timers
  · simpa only [hnext] using h.fired
  · simpa only [hnext] using h.blockers
  · simpa only [hmem, hpings, hnext] using h.pings
  · simpa only [hmem, hcompleted] using h.completed
  · simpa only [hcompleted, hinner] using h.notified
  · simpa only [hmem, hcompleted, hinner] using h.notifications
  · simpa only [hmem, hcompleted, hdeadline, htimers] using h.timer
  · simpa only [hmem, hcompleted, hdeadline] using h.registered
  · simpa only [hmem, hchannel] using h.channel

/-- Where the clones are does not matter. -/
theorem Inv.perm (h : T.Inv H B F) (hp : H.Perm H') : T.Inv H' B F :=
  h.recount (fun _ => rfl) (fun _ => rfl) ⟨rfl, rfl, rfl, rfl⟩ (fun _ => hp.mem_iff.symm)
    fun u => (h.strong u).trans (hp.count_eq u)

theorem Inv.strong_eq_zero_iff (h : T.Inv H B F) : (T.shared t).strong = 0 ↔ t ∉ H := by
  rw [h.strong, count_eq_zero]

theorem Inv.blockerState_eq_pending_iff (h : T.Inv H B F) :
    T.blockerState t = .pending ↔ t ∈ H ∧ t ∉ F := by
  unfold blockerState
  split_ifs with hzero hcompleted
  · simp [h.strong_eq_zero_iff.mp hzero]
  · have hmem : t ∈ H := by simpa [h.strong_eq_zero_iff] using hzero
    simp [hmem, (h.completed t hmem).mp hcompleted]
  · have hmem : t ∈ H := by simpa [h.strong_eq_zero_iff] using hzero
    simp [hmem, ← h.completed t hmem, hcompleted]

theorem Inv.released_iff (h : T.Inv H B F) : T.blockerState t = .released ↔ (t ∈ H → t ∈ F) := by
  have hiff := h.blockerState_eq_pending_iff (t := t)
  cases hstate : T.blockerState t with
  | pending => simp_all
  | released =>
    rw [hstate] at hiff
    simp only [reduceCtorEq, false_iff, not_and, not_not] at hiff
    simpa using hiff

theorem Inv.clone (h : T.Inv H B F) (ht : t ∈ H) : (T.clone t).Inv (t :: H) B F := by
  refine h.recount (fun u => ?_) (fun u => ?_) ⟨rfl, rfl, rfl, rfl⟩ (fun u => ?_) fun u => ?_
  · by_cases hu : u = t <;> simp [Transactions.clone, hu]
  · by_cases hu : u = t <;> simp [Transactions.clone, hu]
  · simp only [mem_cons, or_iff_right_iff_imp]
    rintro rfl
    exact ht
  · by_cases hu : u = t
    · simp [Transactions.clone, hu, h.strong]
    · simp [Transactions.clone, hu, h.strong, Ne.symm hu]

theorem Inv.new (h : T.Inv H B F) : T.new.1.Inv (T.next :: H) B F := by
  have hfresh : T.next ∉ H := fun hm => Nat.lt_irrefl _ (h.held _ hm)
  have hother : ∀ u, u ≠ T.next → T.new.1.shared u = T.shared u := fun u hu => by
    simp [Transactions.new, hu]
  have hself : T.new.1.shared T.next = ⟨1, ⟨false, none⟩, .notRegistered⟩ := by
    simp [Transactions.new]
  have hcompleted : ∀ u, u ≠ T.next → T.new.1.isCompleted u = T.isCompleted u := fun u hu => by
    rw [isCompleted, isCompleted, hother u hu]
  have hblocker : ∀ b ∈ B, b.2 ≠ T.next := fun b hb => Nat.ne_of_lt (h.blockers b hb)
  have hlt : ∀ u, u < T.next → u < T.new.1.next := fun u hu => Nat.lt_succ_of_lt hu
  constructor
  · intro u
    by_cases hu : u = T.next
    · rw [hu, hself, count_cons_self, count_eq_zero.mpr hfresh]
    · rw [hother u hu, count_cons_of_ne (Ne.symm hu), h.strong]
  · intro u hu
    rcases mem_cons.mp hu with rfl | hu
    · exact Nat.lt_succ_self _
    · exact hlt u (h.held u hu)
  · exact fun u hu => hlt u (h.timers u hu)
  · exact fun u hu => hlt u (h.fired u hu)
  · exact fun b hb => hlt _ (h.blockers b hb)
  · intro u hu
    obtain ⟨hnot, hnext⟩ := h.pings u hu
    refine ⟨fun hm => ?_, hlt u hnext⟩
    rcases mem_cons.mp hm with rfl | hm
    · exact Nat.lt_irrefl _ hnext
    · exact hnot hm
  · intro u hu
    by_cases heq : u = T.next
    · have : u ∉ F := fun hf => Nat.lt_irrefl _ (heq ▸ h.fired u hf)
      rw [heq] at this ⊢
      simp [isCompleted, hself, this]
    · rw [hcompleted u heq]
      exact h.completed u ((mem_cons.mp hu).resolve_left heq)
  · intro u
    by_cases heq : u = T.next
    · simp [heq, isCompleted, hself]
    · rw [hcompleted u heq, hother u heq]
      exact h.notified u
  · intro u hu
    by_cases heq : u = T.next
    · intro _ c
      rw [heq, hself]
      simp only [getD_none, count_nil]
      exact (count_eq_zero.mpr fun hm => hblocker _ hm rfl).symm
    · rw [hcompleted u heq, hother u heq]
      exact h.notifications u ((mem_cons.mp hu).resolve_left heq)
  · intro u hu
    by_cases heq : u = T.next
    · simp [heq, hself]
    · rw [hcompleted u heq, hother u heq]
      exact h.timer u ((mem_cons.mp hu).resolve_left heq)
  · intro b hb hm
    have heq := hblocker b hb
    rw [hcompleted _ heq, hother _ heq]
    exact h.registered b hb ((mem_cons.mp hm).resolve_left heq)
  · intro c
    refine (h.channel c).trans (countP_congr fun b hb => ?_)
    simp [hblocker b hb]

theorem Inv.registerDeadlineTimer (h : T.Inv H B F) (ht : t < T.next) :
    (T.registerDeadlineTimer t).Inv H B F := by
  unfold Transactions.registerDeadlineTimer
  split
  · have hinner : ∀ u, (Function.update T.shared t
        { T.shared t with deadline := .registered } u).inner = (T.shared u).inner := fun u => by
      by_cases hu : u = t <;> simp [hu]
    constructor
    · intro u
      by_cases hu : u = t <;> simp [hu, h.strong]
    · exact h.held
    · intro u hu
      rcases mem_append.mp hu with hu | hu
      · exact h.timers u hu
      · rwa [mem_singleton.mp hu]
    · exact h.fired
    · exact h.blockers
    · exact h.pings
    · simpa only [isCompleted, hinner] using h.completed
    · simpa only [isCompleted, hinner] using h.notified
    · simpa only [isCompleted, hinner] using h.notifications
    · intro u hu
      by_cases heq : u = t
      · simp [heq]
      · simp only [isCompleted, Function.update_of_ne heq]
        exact fun hc hd => mem_append_left _ (h.timer u hu hc hd)
    · intro b hb hm
      by_cases heq : b.2 = t
      · simp [heq]
      · simp only [isCompleted, Function.update_of_ne heq]
        exact h.registered b hb hm
    · exact h.channel
  · exact h

/-- A commit that is blocked asks for a notification of its client. -/
theorem Inv.addNotification (h : T.Inv H B F) (ht : t ∈ H) (hc : T.isCompleted t = false)
    (hd : (T.shared t).deadline = .registered) :
    (T.addNotification t c).Inv H (B ++ [(c, t)]) F := by
  have hother : ∀ u, u ≠ t → (T.addNotification t c).shared u = T.shared u := fun u hu => by
    simp [Transactions.addNotification, hc, hu]
  have hcompleted : ∀ u, (T.addNotification t c).isCompleted u = T.isCompleted u := fun u => by
    rw [isCompleted, isCompleted]
    by_cases hu : u = t <;> simp [Transactions.addNotification, hc, hu]
  have hrest : (T.addNotification t c).next = T.next ∧ (T.addNotification t c).timers = T.timers ∧
      (T.addNotification t c).pings = T.pings ∧ (T.addNotification t c).channel = T.channel := by
    simp [Transactions.addNotification, hc]
  obtain ⟨hnext, htimers, hpings, hchannel⟩ := hrest
  have hdeadline : ∀ u, ((T.addNotification t c).shared u).deadline = (T.shared u).deadline :=
    fun u => by
      by_cases hu : u = t <;> simp [Transactions.addNotification, hc, hu]
  have hnotF : t ∉ F := fun hf => by simp [(h.completed t ht).mpr hf] at hc
  constructor
  · intro u
    rw [← h.strong]
    by_cases hu : u = t <;> simp [Transactions.addNotification, hc, hu]
  · simpa only [hnext] using h.held
  · simpa only [htimers, hnext] using h.timers
  · simpa only [hnext] using h.fired
  · intro b hb
    rw [hnext]
    rcases mem_append.mp hb with hb | hb
    · exact h.blockers b hb
    · rw [mem_singleton.mp hb]
      exact h.held t ht
  · simpa only [hpings, hnext] using h.pings
  · simpa only [hcompleted] using h.completed
  · intro u hu
    by_cases heq : u = t
    · rw [heq, hcompleted, hc] at hu
      cases hu
    · rw [hcompleted] at hu
      rw [hother u heq]
      exact h.notified u hu
  · intro u hu hcu d
    rw [hcompleted] at hcu
    rw [count_append]
    by_cases heq : u = t
    · subst heq
      simp [Transactions.addNotification, hc, h.notifications u hu hcu, count_cons]
    · rw [hother u heq, h.notifications u hu hcu]
      simp [Ne.symm heq]
  · simpa only [hcompleted, hdeadline, htimers] using h.timer
  · intro b hb hm
    rw [hcompleted, hdeadline]
    rcases mem_append.mp hb with hb | hb
    · exact h.registered b hb hm
    · obtain rfl := mem_singleton.mp hb
      exact fun _ => hd
  · intro d
    rw [hchannel, h.channel, countP_append]
    simp [ht, hnotF]

/-- The blockers of one more transaction are released. -/
theorem countP_released {p : ℕ → Prop} [DecidablePred p] (ht : ¬ p t) :
    B.countP (fun b => b.1 = c ∧ (p b.2 ∨ b.2 = t)) =
      B.countP (fun b => b.1 = c ∧ p b.2) + B.count (c, t) := by
  induction B with
  | nil => rfl
  | cons b B ih =>
    obtain ⟨d, u⟩ := b
    rw [countP_cons, countP_cons, count_cons, ih]
    by_cases hd : d = c
    · by_cases hu : u = t
      · subst hd hu
        simp [ht]
        omega
      · by_cases hp : p u
        · simp [hd, hu, hp]
          omega
        · simp [hd, hu, hp]
    · simp [hd]

/-- Completing a transaction notifies the clients that it blocks. -/
theorem Inv.channel_complete (h : T.Inv H B F) (ht : t ∈ H) :
    (T.complete t).channel.count c =
      B.countP fun b => b.1 = c ∧ ((b.2 ∈ H → b.2 ∈ F) ∨ b.2 = t) := by
  rw [Transactions.complete, count_append, h.channel]
  cases hcompleted : T.isCompleted t with
  | false =>
    have hnot : ¬ (t ∈ H → t ∈ F) := fun hf => by
      simp [(h.completed t ht).mpr (hf ht)] at hcompleted
    rw [h.notifications t ht hcompleted]
    exact (countP_released (p := fun u => u ∈ H → u ∈ F) hnot).symm
  | true =>
    rw [h.notified t hcompleted]
    have hf := (h.completed t ht).mp hcompleted
    simp only [getD_none, count_nil, Nat.add_zero]
    refine countP_congr fun b _ => ?_
    by_cases hb : b.2 = t <;> simp [hb, hf]

theorem Inv.drop (h : T.Inv (t :: H) B F) : (T.drop t).Inv H B F := by
  have hstrong : (T.shared t).strong = H.count t + 1 := by rw [h.strong, count_cons_self]
  by_cases ht : t ∈ H
  · have hpos := count_pos_iff.mpr ht
    rw [drop_of_not_last (by omega)]
    refine h.recount (fun u => ?_) (fun u => ?_) ⟨rfl, rfl, rfl, rfl⟩ (fun u => ?_) fun u => ?_
    · by_cases hu : u = t <;> simp [hu]
    · by_cases hu : u = t <;> simp [hu]
    · simp only [mem_cons, iff_or_self]
      rintro rfl
      exact ht
    · by_cases hu : u = t
      · simp [hu, hstrong]
      · simp [hu, h.strong, Ne.symm hu]
  · have hzero := count_eq_zero.mpr ht
    obtain ⟨pings, hpings, hdrop⟩ := drop_of_last (T := T) (t := t) (by omega)
    have hne : ∀ u ∈ H, u ≠ t := fun u hu heq => ht (heq ▸ hu)
    rw [hdrop]
    constructor
    · intro u
      by_cases hu : u = t
      · simp [hu, hzero]
      · simp [hu, h.strong, Ne.symm hu]
    · exact fun u hu => h.held u (mem_cons_of_mem _ hu)
    · exact h.timers
    · exact h.fired
    · exact h.blockers
    · intro u hu
      rcases mem_append.mp hu with hu | hu
      · obtain ⟨hnot, hnext⟩ := h.pings u hu
        exact ⟨fun hm => hnot (mem_cons_of_mem _ hm), hnext⟩
      · have : u = t := by
          rcases hpings with rfl | rfl
          · cases hu
          · exact mem_singleton.mp hu
        subst this
        exact ⟨ht, h.held u (mem_cons_self ..)⟩
    · intro u hu
      simp only [isCompleted, Function.update_of_ne (hne u hu)]
      exact h.completed u (mem_cons_of_mem _ hu)
    · intro u
      by_cases heq : u = t
      · simp [heq]
      · simp only [isCompleted, Function.update_of_ne heq]
        exact h.notified u
    · intro u hu
      simp only [isCompleted, Function.update_of_ne (hne u hu)]
      exact h.notifications u (mem_cons_of_mem _ hu)
    · intro u hu
      simp only [isCompleted, Function.update_of_ne (hne u hu)]
      exact h.timer u (mem_cons_of_mem _ hu)
    · intro b hb hm
      simp only [isCompleted, Function.update_of_ne (hne _ hm)]
      exact h.registered b hb (mem_cons_of_mem _ hm)
    · intro c
      rw [h.channel_complete (mem_cons_self ..)]
      refine countP_congr fun b _ => ?_
      by_cases heq : b.2 = t <;> simp [heq, ht]

theorem Inv.dropAll {ts : List ℕ} (h : T.Inv (ts ++ H) B F) : (T.dropAll ts).Inv H B F := by
  induction ts generalizing T with
  | nil => exact h
  | cons t ts ih => exact ih h.drop

theorem Inv.deadline {T' : Transactions κ} (h : T.Inv H B F) (hd : T.deadline t = some T') :
    T'.Inv H B (F ++ [t]) := by
  unfold Transactions.deadline at hd
  split at hd
  case isFalse => cases hd
  case isTrue hmem =>
    have hnext := h.timers t hmem
    have hfired : ∀ u ∈ F ++ [t], u < T.next := fun u hu => by
      rcases mem_append.mp hu with hu | hu
      · exact h.fired u hu
      · rwa [mem_singleton.mp hu]
    have htimer : ∀ u, u ≠ t → u ∈ T.timers → u ∈ T.timers.erase t := fun u hu hm =>
      (mem_erase_of_ne hu).mpr hm
    dsimp only at hd
    split at hd
    case isTrue hzero =>
      obtain rfl := some.inj hd
      have ht : t ∉ H := h.strong_eq_zero_iff.mp hzero
      have hne : ∀ u ∈ H, u ≠ t := fun u hu heq => ht (heq ▸ hu)
      constructor
      · exact h.strong
      · exact h.held
      · exact fun u hu => h.timers u (mem_of_mem_erase hu)
      · exact hfired
      · exact h.blockers
      · exact h.pings
      · intro u hu
        simpa [isCompleted, hne u hu] using h.completed u hu
      · exact h.notified
      · exact h.notifications
      · exact fun u hu hc hdl => htimer u (hne u hu) (h.timer u hu hc hdl)
      · exact h.registered
      · intro c
        rw [h.channel]
        refine countP_congr fun b _ => ?_
        by_cases heq : b.2 = t <;> simp [heq, ht]
    case isFalse hpos =>
      obtain rfl := some.inj hd
      have ht : t ∈ H := by
        by_contra hnot
        exact hpos (h.strong_eq_zero_iff.mpr hnot)
      constructor
      · intro u
        by_cases hu : u = t <;> simp [complete, hu, h.strong]
      · exact h.held
      · exact fun u hu => h.timers u (mem_of_mem_erase hu)
      · exact hfired
      · exact h.blockers
      · exact h.pings
      · intro u hu
        by_cases heq : u = t
        · simp [complete, isCompleted, heq]
        · simpa [complete, isCompleted, heq] using h.completed u hu
      · intro u
        by_cases heq : u = t
        · simp [complete, heq]
        · simpa [complete, isCompleted, heq] using h.notified u
      · intro u hu
        by_cases heq : u = t
        · simp [complete, isCompleted, heq]
        · simpa [complete, isCompleted, heq] using h.notifications u hu
      · intro u hu
        by_cases heq : u = t
        · simp [complete, isCompleted, heq]
        · simp only [complete, isCompleted, Function.update_of_ne heq]
          exact fun hc hdl => htimer u heq (h.timer u hu hc hdl)
      · intro b hb hm
        by_cases heq : b.2 = t
        · simp [complete, isCompleted, heq]
        · simpa [complete, isCompleted, heq] using h.registered b hb hm
      · intro c
        refine (h.channel_complete ht).trans (countP_congr fun b _ => ?_)
        by_cases heq : b.2 = t <;> simp [heq]

theorem Inv.ping {T' : Transactions κ} (h : T.Inv H B F) (hp : T.ping t = some T') :
    T'.Inv H B F := by
  unfold Transactions.ping at hp
  split at hp
  case isFalse => cases hp
  case isTrue hmem =>
    obtain rfl := some.inj hp
    obtain ⟨ht, -⟩ := h.pings t hmem
    refine ⟨h.strong, h.held, fun u hu => h.timers u (mem_of_mem_erase hu), h.fired, h.blockers,
      fun u hu => h.pings u (mem_of_mem_erase hu), h.completed, h.notified, h.notifications,
      fun u hu hc hd => ?_, h.registered, h.channel⟩
    have hne : u ≠ t := fun heq => ht (heq ▸ hu)
    exact (mem_erase_of_ne hne).mpr (h.timer u hu hc hd)

end Transactions

end Macniri.Window
