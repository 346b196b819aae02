import Macniri.Window.PreCommit

/-! Which commits are blocked, until when, and that their clients hear of it. -/
namespace Macniri.Window

open Option List

open ToplevelSurface

variable {τ ρ κ : Type} [ToplevelSurface τ ρ]

/-- The deadlines that fired. -/
def fired (xs : List (Event τ κ)) : List ℕ :=
  xs.filterMap fun
    | .deadline t => some t
    | _ => none

theorem mem_fired {xs : List (Event τ κ)} {t : ℕ} : t ∈ fired xs ↔ Event.deadline t ∈ xs := by
  unfold fired
  rw [mem_filterMap]
  constructor
  · rintro ⟨e, he, ht⟩
    cases e <;> simp at ht
    exact ht ▸ he
  · exact fun h => ⟨_, h, rfl⟩

namespace Mapped

variable {w w' : Mapped τ}

/-- The transactions of a window come in the order of their serials, which were all sent. -/
structure Ordered (w : Mapped τ) : Prop where
  sorted : w.pendingTransactions.Pairwise (·.1 < ·.1)
  sent : ∀ e ∈ w.pendingTransactions, ∃ c, lastConfigure w.toplevel = some c ∧ e.1 ≤ c.serial

theorem Ordered.congr (h : w.Ordered) (hpending : w'.pendingTransactions = w.pendingTransactions)
    (hlast : lastConfigure w'.toplevel = lastConfigure w.toplevel) : w'.Ordered := by
  refine ⟨hpending ▸ h.sorted, fun e he => ?_⟩
  rw [hlast]
  exact h.sent e (hpending ▸ he)

theorem Ordered.lt_of_mem_dropWhile {s : ℕ} {e : ℕ × ℕ} (h : w.Ordered)
    (he : e ∈ w.pendingTransactions.dropWhile (·.1 ≤ s)) : s < e.1 := by
  have hsorted : (w.pendingTransactions.dropWhile (·.1 ≤ s)).Pairwise (·.1 < ·.1) :=
    h.sorted.sublist (dropWhile_sublist _)
  have hhead := head?_dropWhile_not (fun e : ℕ × ℕ => decide (e.1 ≤ s)) w.pendingTransactions
  generalize w.pendingTransactions.dropWhile (fun e => decide (e.1 ≤ s)) = l at he hsorted hhead
  cases l with
  | nil => cases he
  | cons first l =>
    have hfirst : s < first.1 := by simpa using hhead
    rcases mem_cons.mp he with rfl | he
    · exact hfirst
    · have := (pairwise_cons.mp hsorted).1 e he
      omega

theorem mem_transactions_of_respondsTo {s t : ℕ} (h : w.respondsTo s = some t) :
    t ∈ w.transactions := by
  have hmem := mem_of_getLast? h
  obtain ⟨e, he, rfl⟩ := List.mem_map.mp hmem
  exact mem_append_right _ (List.mem_map_of_mem ((takeWhile_sublist _).subset he))

theorem ordered_configure (h : w.Ordered) : w.configure.Ordered := by
  let t := if w.sizeOnce = some .useWindowSize then
      withPendingState w.toplevel fun state => { state with size := some w.geometry }
    else w.toplevel
  have ht : lastConfigure t = lastConfigure w.toplevel := by
    unfold t
    split_ifs
    · exact lastConfigure_with
    · rfl
  have hpending : w.configure.pendingTransactions = w.pendingTransactions ++
      w.transactionForNextConfigure.toList.map fun transaction => ((sendConfigure t).2, transaction) := rfl
  have hlast : lastConfigure w.configure.toplevel = some ⟨pending t, (sendConfigure t).2⟩ :=
    lastConfigure_send
  have hold : ∀ e ∈ w.pendingTransactions, e.1 < (sendConfigure t).2 := by
    intro e he
    obtain ⟨c, hc, hle⟩ := h.sent e he
    have := lastConfigure_lt_send (ht.trans hc)
    omega
  refine ⟨?_, fun e he => ⟨_, hlast, ?_⟩⟩
  · rw [hpending, pairwise_append]
    refine ⟨h.sorted, ?_, fun e he e' he' => ?_⟩
    · cases w.transactionForNextConfigure <;> simp
    · obtain ⟨t', -, rfl⟩ := List.mem_map.mp he'
      exact hold e he
  · rw [hpending] at he
    rcases mem_append.mp he with he | he
    · exact Nat.le_of_lt (hold e he)
    · obtain ⟨t', -, rfl⟩ := List.mem_map.mp he
      exact Nat.le_refl _

theorem ordered_step [DecidableEq ρ] {a : Action} (h : w.Ordered) (hw : w.step a = some w') :
    w'.Ordered := by
  cases a with
  | requestSize size mode animate transaction =>
    obtain rfl := some.inj hw
    exact h.congr rfl lastConfigure_with
  | requestSizeOnce size animate =>
    obtain rfl := some.inj hw
    cases hs : w.alreadySent size with
    | some serial =>
      obtain ⟨once, -, hw⟩ := requestSizeOnce_of_sent animate hs
      rw [hw]
      exact h.congr rfl rfl
    | none =>
      rw [requestSizeOnce_of_not_sent hs]
      exact h.congr rfl lastConfigure_with
  | requestWindowedFullscreen value =>
    obtain rfl := some.inj hw
    unfold requestWindowedFullscreen
    split
    · exact h
    · exact h.congr rfl lastConfigure_with
  | sendPendingConfigure =>
    obtain rfl := some.inj hw
    obtain ⟨t, ht, hlast, -⟩ := hasPendingChanges_eq (w := w)
    have hchecked : w.hasPendingChanges.2.Ordered := by
      rw [ht]
      exact h.congr rfl hlast
    cases hchanged : w.hasPendingChanges.1 with
    | true =>
      have hsent := ordered_configure hchecked
      refine hsent.congr ?_ ?_
      · simp [sendPendingConfigure, hchanged]
      · simp [sendPendingConfigure, hchanged]
    | false =>
      refine hchecked.congr ?_ ?_
      · simp [sendPendingConfigure, hchanged]
      · simp [sendPendingConfigure, hchanged]
  | ackConfigure serial =>
    obtain ⟨t, ht, rfl⟩ := of_map hw
    exact h.congr rfl (lastConfigure_ack ht)
  | commit geometry =>
    obtain rfl := some.inj hw
    refine h.congr ?_ ?_
    · unfold Mapped.commit
      dsimp only
      split <;> rfl
    · rw [toplevel_commit, lastConfigure_commit]

end Mapped

namespace State

variable {s s' : State τ κ} [DecidableEq κ] [DecidableEq ρ] {F : List ℕ} {xs : List (Event τ κ)}

theorem inv_window {i : ℕ} {a : Action} (h : s.Inv F) (hs : s.window i a = some s') : s'.Inv F := by
  obtain ⟨w, hw, hs⟩ := of_bind hs
  obtain ⟨w', hw', hs⟩ := of_bind hs
  split at hs
  case isFalse => cases hs
  case isTrue hhanded =>
    obtain rfl := some.inj hs
    have hclone : (a.handed.toList.foldl Transactions.clone s.transactions).Inv
        (a.handed.toList ++ s.holders) s.blockers F := by
      cases ha : a.handed with
      | none => exact h
      | some t =>
        rw [ha] at hhanded
        have ht : t ∈ s.handles := by simpa using hhanded
        exact h.clone (mem_append_left _ (mem_append_left _ ht))
    unfold Inv
    have hperm : (a.handed.toList ++ s.holders).Perm
        ((w.dropped a).toList ++ (w'.transactions ++ s.others i)) := by
      refine ((holders_perm hw).append_left _).trans ?_
      rw [← append_assoc, ← append_assoc]
      exact (Mapped.transactions_step hw').symm.append_right _
    exact (hclone.perm hperm).dropAll.perm (holders_set_perm hw w' _).symm

theorem inv_step {e : Event τ κ} (h : s.Inv (fired xs)) (hs : s.step e = some s') :
    s'.Inv (fired (xs ++ [e])) := by
  have hfired : (∀ t, e ≠ .deadline t) → fired (xs ++ [e]) = fired xs := by
    intro he
    cases e <;> simp_all [fired]
  cases e with
  | new =>
    obtain rfl := some.inj hs
    rw [hfired (by simp)]
    exact h.new
  | clone t =>
    rw [hfired (by simp)]
    simp only [step, ite_none_right_eq_some] at hs
    obtain ⟨ht, hs⟩ := hs
    obtain rfl := some.inj hs
    exact h.clone (mem_append_left _ (mem_append_left _ ht))
  | drop t =>
    rw [hfired (by simp)]
    simp only [step, ite_none_right_eq_some] at hs
    obtain ⟨ht, hs⟩ := hs
    obtain rfl := some.inj hs
    refine Transactions.Inv.drop (h.perm ?_)
    exact ((perm_cons_erase ht).append_right _).append_right _
  | registerDeadlineTimer t =>
    rw [hfired (by simp)]
    simp only [step, ite_none_right_eq_some] at hs
    obtain ⟨ht, hs⟩ := hs
    obtain rfl := some.inj hs
    exact h.registerDeadlineTimer (h.held t (mem_append_left _ (mem_append_left _ ht)))
  | map toplevel geometry =>
    obtain rfl := some.inj hs
    rw [hfired (by simp)]
    refine h.perm ?_
    simp [holders, Mapped.transactions, Mapped.new]
  | destroy i =>
    rw [hfired (by simp)]
    obtain ⟨w, hw, rfl⟩ := of_map hs
    exact (h.perm (holders_perm hw)).dropAll
  | window i a =>
    rw [hfired (by simp)]
    exact inv_window h hs
  | preCommit i client dmabuf =>
    rw [hfired (by simp)]
    exact inv_preCommit h hs
  | dmabufReady i =>
    rw [hfired (by simp)]
    obtain ⟨held, hheld, rfl⟩ := of_map hs
    obtain ⟨hi, rfl⟩ := List.getElem?_eq_some_iff.mp hheld
    refine Transactions.Inv.dropAll (h.perm ?_)
    have hperm := (getElem_cons_eraseIdx_perm hi).symm.flatMap_right Option.toList
    rw [flatMap_cons] at hperm
    refine (((hperm.append_left _).trans (perm_append_comm_assoc ..)).append_right _).trans ?_
    rw [append_assoc]
    exact Perm.refl _
  | deadline t =>
    obtain ⟨T, hT, rfl⟩ := of_map hs
    have hF : fired (xs ++ [.deadline t]) = fired xs ++ [t] := by simp [fired]
    rw [hF]
    exact h.deadline hT
  | ping t =>
    rw [hfired (by simp)]
    obtain ⟨T, hT, rfl⟩ := of_map hs
    exact h.ping hT
  | setDisableTransactions value =>
    obtain rfl := some.inj hs
    rw [hfired (by simp)]
    exact h

theorem inv_run (hs : run step init xs = some s) : s.Inv (fired xs) := by
  have h : s.Inv (fired ([] ++ xs)) :=
    run_invariant_prefixes (I := fun xs s => s.Inv (fired xs))
      (fun _ _ _ _ h hs => inv_step h hs) Transactions.inv_empty hs
  exact h

/-! The windows. -/

section Windows

variable {i : ℕ} {client : Option κ} {dmabuf : Bool} {w : Mapped τ}

omit [DecidableEq κ] [DecidableEq ρ] [ToplevelSurface τ ρ]

theorem windows_delay {held : Option ℕ} : (s.delay client dmabuf held).windows = s.windows := by
  unfold delay
  split_ifs <;> rfl

theorem blockers_delay {held : Option ℕ} : (s.delay client dmabuf held).blockers = s.blockers := by
  unfold delay
  split_ifs <;> rfl

theorem windows_block {t : ℕ} : (s.block client t).1.windows = s.windows := by
  unfold block
  split_ifs
  · dsimp only
    split
    · split_ifs <;> rfl
    · rfl
  · rfl

end Windows

section Ordered

variable {i : ℕ} {client : Option κ} {dmabuf : Bool} {w : Mapped τ}

omit [DecidableEq κ] [DecidableEq ρ]

/-- A commit only drops transactions from its own window. -/
theorem windows_preCommit {configure : ToplevelConfigure ρ} (hw : s.windows[i]? = some w)
    (hacked : lastAcked w.toplevel = some configure)
    (hs : s.preCommit i client dmabuf = some s') : s'.windows = s.windows.set i
      { w with pendingTransactions := w.pendingTransactions.dropWhile (·.1 ≤ configure.serial) } := by
  obtain ⟨-, hrest⟩ := takePendingTransaction_eq (s := configure.serial) (T := s.transactions)
    w.pendingTransactions none
  have htaking : (s.taking i w configure.serial).windows = s.windows.set i
      { w with pendingTransactions := w.pendingTransactions.dropWhile (·.1 ≤ configure.serial) } := by
    rw [← hrest]
    rfl
  rw [preCommit_eq hw hacked] at hs
  obtain rfl := some.inj hs
  rw [← htaking]
  split
  · rw [windows_delay, windows_block]
  · rw [windows_delay]

theorem ordered_preCommit (h : ∀ w ∈ s.windows, Mapped.Ordered w)
    (hs : s.preCommit i client dmabuf = some s') : ∀ w ∈ s'.windows, Mapped.Ordered w := by
  cases hw : s.windows[i]? with
  | none => simp [preCommit, hw] at hs
  | some w =>
    cases hacked : lastAcked w.toplevel with
    | none =>
      rw [preCommit_of_not_acked hw hacked] at hs
      obtain rfl := some.inj hs
      rw [windows_delay]
      exact h
    | some configure =>
      rw [windows_preCommit hw hacked hs]
      intro w' hw'
      rcases mem_or_eq_of_mem_set hw' with hw' | rfl
      · exact h w' hw'
      · have hord := h w (mem_of_getElem? hw)
        have hsub := dropWhile_sublist (l := w.pendingTransactions)
          fun e => decide (e.1 ≤ configure.serial)
        exact ⟨hord.sorted.sublist hsub, fun e he => hord.sent e (hsub.subset he)⟩

end Ordered

omit [DecidableEq κ] in
theorem ordered_step {e : Event τ κ} (h : ∀ w ∈ s.windows, Mapped.Ordered w)
    (hs : s.step e = some s') : ∀ w ∈ s'.windows, Mapped.Ordered w := by
  cases e with
  | map toplevel geometry =>
    obtain rfl := some.inj hs
    intro w hw
    rcases mem_append.mp hw with hw | hw
    · exact h w hw
    · rw [mem_singleton.mp hw]
      exact ⟨Pairwise.nil, by simp [Mapped.new]⟩
  | destroy i =>
    obtain ⟨w, hw, rfl⟩ := of_map hs
    exact fun w hw => h w (mem_of_mem_eraseIdx hw)
  | window i a =>
    obtain ⟨w, hw, hs⟩ := of_bind hs
    obtain ⟨w', hw', hs⟩ := of_bind hs
    split at hs
    case isFalse => cases hs
    case isTrue =>
      obtain rfl := some.inj hs
      intro v hv
      rcases mem_or_eq_of_mem_set hv with hv | rfl
      · exact h v hv
      · exact Mapped.ordered_step (h w (mem_of_getElem? hw)) hw'
  | preCommit i client dmabuf => exact ordered_preCommit h hs
  | new =>
    obtain rfl := some.inj hs
    exact h
  | setDisableTransactions value =>
    obtain rfl := some.inj hs
    exact h
  | clone t | drop t | registerDeadlineTimer t =>
    simp only [step, ite_none_right_eq_some] at hs
    obtain ⟨-, hs⟩ := hs
    obtain rfl := some.inj hs
    exact h
  | dmabufReady i =>
    obtain ⟨held, -, rfl⟩ := of_map hs
    exact h
  | deadline t | ping t =>
    obtain ⟨T, -, rfl⟩ := of_map hs
    exact h

omit [DecidableEq κ] in
theorem ordered_run (hs : run step init xs = some s) : ∀ w ∈ s.windows, Mapped.Ordered w :=
  run_invariant (I := fun s => ∀ w ∈ s.windows, Mapped.Ordered w) (fun _ _ _ h hs => ordered_step h hs)
    (by simp [init]) hs

/-! Commits. -/

variable {i : ℕ} {client : Option κ} {dmabuf : Bool} {w : Mapped τ}

/-- The commits of a window that wait for a transaction. -/
structure Blocks (s s' : State τ κ) (i : ℕ) (client : Option κ) (w : Mapped τ)
    (configure : ToplevelConfigure ρ) : Prop where
  blocker : ∃ added, s'.blockers = s.blockers ++ added ∧ added.length ≤ 1 ∧
    ∀ c t, (c, t) ∈ added ↔ client = some c ∧ w.respondsTo configure.serial = some t ∧
      s.disableTransactions = false ∧ s.transactions.isCompleted t = false ∧
      t ∈ s.otherHolders i w configure.serial
  passed : ∀ w', s'.windows[i]? = some w' → ∀ e ∈ w'.pendingTransactions, configure.serial < e.1

omit [DecidableEq ρ] in
theorem blocks_preCommit {F : List ℕ} {configure : ToplevelConfigure ρ} (h : s.Inv F)
    (hord : ∀ w ∈ s.windows, Mapped.Ordered w) (hw : s.windows[i]? = some w)
    (hacked : lastAcked w.toplevel = some configure)
    (hs : s.preCommit i client dmabuf = some s') : s.Blocks s' i client w configure := by
  constructor
  · have htaking := inv_taking configure.serial h hw
    have hholders := holders_taking configure.serial hw
    rw [preCommit_eq hw hacked] at hs
    cases htaken : w.respondsTo configure.serial with
    | none =>
      rw [htaken] at hs
      obtain rfl := some.inj hs
      refine ⟨[], ?_, by simp, by simp⟩
      rw [blockers_delay, append_nil]
      rfl
    | some t =>
      rw [htaken] at hs htaking
      obtain rfl := some.inj hs
      have ht : t ∈ s.holders := (holders_perm hw).mem_iff.mpr
        (mem_append_left _ (Mapped.mem_transactions_of_respondsTo htaken))
      have hcompleted : (s.taking i w configure.serial).transactions.isCompleted t =
          s.transactions.isCompleted t := by
        rw [Bool.eq_iff_iff, htaking.completed t (mem_cons_self ..), h.completed t ht]
      obtain ⟨added, hadded, hlength, hmem⟩ := blockers_block client htaking
      refine ⟨added, ?_, hlength, fun c u => ?_⟩
      · rw [blockers_delay]
        exact hadded
      · rw [hmem, hcompleted, hholders.mem_iff]
        constructor
        · rintro ⟨hclient, rfl, hrest⟩
          exact ⟨hclient, rfl, hrest⟩
        · rintro ⟨hclient, hu, hrest⟩
          obtain rfl := some.inj hu
          exact ⟨hclient, rfl, hrest⟩
  · intro w' hw' e he
    rw [windows_preCommit hw hacked hs] at hw'
    obtain ⟨hi, -⟩ := List.getElem?_eq_some_iff.mp hw
    rw [getElem?_set_self hi] at hw'
    obtain rfl := some.inj hw'
    exact (hord w (mem_of_getElem? hw)).lt_of_mem_dropWhile he

/-- In every run, a blocker is pending while someone holds a clone and the deadline did not fire; each
blocker is released with one notification of its client, and the deadline is there to release it; and a
commit is blocked if its transaction is not completed and someone else holds it. -/
theorem transactions_atomic (xs : List (Event τ κ)) (s : State τ κ)
    (hs : run step init xs = some s) :
    (∀ t, s.transactions.blockerState t = .pending ↔ t ∈ s.holders ∧ Event.deadline t ∉ xs) ∧
    (∀ c, s.transactions.channel.count c =
      s.blockers.countP fun b => b.1 = c ∧ s.transactions.blockerState b.2 = .released) ∧
    (∀ b ∈ s.blockers, s.transactions.blockerState b.2 = .pending → b.2 ∈ s.transactions.timers) ∧
    ∀ i client dmabuf s', s.preCommit i client dmabuf = some s' →
      ∃ w, s.windows[i]? = some w ∧ match lastAcked w.toplevel with
        | some configure => s.Blocks s' i client w configure
        | none => s'.blockers = s.blockers := by
  have hinv := inv_run hs
  have hpending : ∀ t, s.transactions.blockerState t = .pending ↔
      t ∈ s.holders ∧ Event.deadline t ∉ xs := by
    intro t
    rw [← mem_fired]
    exact hinv.blockerState_eq_pending_iff
  refine ⟨hpending, fun c => ?_, fun b hb hstate => ?_, fun i client dmabuf s' hs' => ?_⟩
  · rw [hinv.channel]
    exact countP_congr fun b _ => by simp [hinv.released_iff]
  · obtain ⟨hheld, hfired⟩ := hinv.blockerState_eq_pending_iff.mp hstate
    have hcompleted : s.transactions.isCompleted b.2 = false := by
      simpa [hfired] using hinv.completed b.2 hheld
    exact hinv.timer b.2 hheld hcompleted (hinv.registered b hb hheld hcompleted)
  · cases hw : s.windows[i]? with
    | none => simp [preCommit, hw] at hs'
    | some w =>
      refine ⟨w, rfl, ?_⟩
      split
      · next configure hacked => exact blocks_preCommit hinv (ordered_run hs) hw hacked hs'
      · next hacked =>
        rw [preCommit_of_not_acked hw hacked] at hs'
        obtain rfl := some.inj hs'
        exact blockers_delay

/-- Two windows are resized in one transaction, and the first of them acks. -/
def resizeTwo : List (Event Toplevel ℕ) :=
  let t : Toplevel := ⟨none, [], some ⟨⟨some ⟨100, 100⟩, false, false, ()⟩, 1⟩,
    some ⟨⟨some ⟨100, 100⟩, false, false, ()⟩, 1⟩⟩
  [.map t ⟨100, 100⟩, .map t ⟨100, 100⟩, .new,
    .window 0 (.requestSize ⟨200, 100⟩ .normal true (some 0)),
    .window 1 (.requestSize ⟨200, 100⟩ .normal true (some 0)), .drop 0,
    .window 0 .sendPendingConfigure, .window 1 .sendPendingConfigure, .window 0 (.ackConfigure 2)]

theorem transactions_atomic_resize : ∃ s, run step init resizeTwo = some s ∧
    s.transactions.blockerState 0 = .pending := by
  refine ⟨_, rfl, ?_⟩
  exact ((transactions_atomic resizeTwo _ rfl).1 0).mpr ⟨by decide, by simp [resizeTwo]⟩

/-- With `disable_transactions` no commit is blocked. -/
theorem not_blocked_if_disabled : ∃ s s' : State Toplevel ℕ, ∃ w,
    run step init (resizeTwo ++ [.setDisableTransactions true]) = some s ∧
    s.preCommit 0 (some 7) false = some s' ∧ s.windows[0]? = some w ∧
    w.respondsTo 2 = some 0 ∧ s.transactions.isCompleted 0 = false ∧ 0 ∈ s.otherHolders 0 w 2 ∧
    s'.blockers = [] := by
  exact ⟨_, _, _, rfl, rfl, rfl, rfl, rfl, by decide, rfl⟩

end State

end Macniri.Window
