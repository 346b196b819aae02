import Macniri.Window.Convergence
import Macniri.Window.Transaction
import Mathlib.Data.List.Perm.Basic

/-! Windows that share transactions, and the hook before a commit that blocks it. -/
namespace Macniri.Window

open Option List

open ToplevelSurface

variable {τ ρ κ : Type} [ToplevelSurface τ ρ]

/-- The clone that a request hands over. -/
def Action.handed : Action → Option ℕ
  | .requestSize _ _ _ transaction => transaction
  | _ => none

namespace Mapped

/-- The transactions that a window holds, in the order that they are dropped with it. -/
def transactions (w : Mapped τ) : List ℕ :=
  w.transactionForNextConfigure.toList ++ w.pendingTransactions.map Prod.snd

/-- The clone that is dropped in a step. -/
def dropped [DecidableEq ρ] (w : Mapped τ) : Action → Option ℕ
  | .requestSize _ _ _ transaction => transaction.bind fun _ => w.transactionForNextConfigure
  | .requestSizeOnce .. => w.transactionForNextConfigure
  | .sendPendingConfigure => if w.hasPendingChanges.1 then none else w.transactionForNextConfigure
  | _ => none

/-- `take_pending_transaction`: the last one that the commit responds to; `rv` is the one so far, which is
dropped for the next. -/
def takePendingTransaction (commitSerial : ℕ) (rv : Option ℕ) (T : Transactions κ) :
    List (ℕ × ℕ) → Option ℕ × Transactions κ × List (ℕ × ℕ)
  | [] => (rv, T, [])
  | (serial, transaction) :: rest =>
    if serial ≤ commitSerial then
      takePendingTransaction commitSerial (some transaction) (T.dropAll rv.toList) rest
    else (rv, T, (serial, transaction) :: rest)

/-- The transaction that a commit responds to. -/
def respondsTo (w : Mapped τ) (commitSerial : ℕ) : Option ℕ :=
  ((w.pendingTransactions.takeWhile (·.1 ≤ commitSerial)).map Prod.snd).getLast?

end Mapped

structure State (τ κ : Type) where
  transactions : Transactions κ
  windows : List (Mapped τ)
  /-- The clones that the code holds that is about to request sizes. -/
  handles : List ℕ
  /-- The `transaction_for_dmabuf` of each dmabuf that is waited for. -/
  dmabufs : List (Option ℕ)
  /-- The transaction blockers that were added to surfaces, with the client of the surface. -/
  blockers : List (κ × ℕ)
  disableTransactions : Bool

namespace State

def init : State τ κ := ⟨.empty, [], [], [], [], false⟩

/-- Everything that holds a clone. -/
def holders (s : State τ κ) : List ℕ :=
  s.handles ++ s.dmabufs.flatMap Option.toList ++ s.windows.flatMap Mapped.transactions

/-- Block the commit on its transaction, unless nobody else holds it; then hold on to the transaction. -/
def block (s : State τ κ) (client : Option κ) (t : ℕ) : State τ κ × Option ℕ :=
  -- Transaction can be already completed if it ran past the deadline.
  if !s.transactions.isCompleted t && !s.disableTransactions then
    -- Register the deadline even if this is the last pending.
    let T := s.transactions.registerDeadlineTimer t
    let isLast := T.isLast t
    match client with
    | some client =>
      if !isLast then
        -- Waiting for some other surface; register a notification and add a transaction blocker.
        ({ s with
          transactions := T.addNotification t client
          blockers := s.blockers ++ [(client, t)] }, some t)
      else ({ s with transactions := T }, some t)
    | none => ({ s with transactions := T }, some t)
  else ({ s with transactions := s.transactions.drop t }, none)

/-- Delay dropping the transaction until the dmabuf is ready. If there is none, this is dropped by the end
of the hook. -/
def delay (s : State τ κ) (client : Option κ) (dmabuf : Bool) (transactionForDmabuf : Option ℕ) :
    State τ κ :=
  if dmabuf && client.isSome then { s with dmabufs := s.dmabufs ++ [transactionForDmabuf] }
  else { s with transactions := s.transactions.dropAll transactionForDmabuf.toList }

/-- The pre-commit hook of window `i`; `dmabuf` is whether a source was inserted for its buffer, if it has
a client. -/
def preCommit (s : State τ κ) (i : ℕ) (client : Option κ) (dmabuf : Bool) : Option (State τ κ) :=
  s.windows[i]?.map fun w =>
    match lastAcked w.toplevel with
    | some configure =>
      let (taken, T, rest) := Mapped.takePendingTransaction configure.serial none s.transactions
        w.pendingTransactions
      let s := { s with
        transactions := T
        windows := s.windows.set i { w with pendingTransactions := rest } }
      match taken with
      | some t =>
        let (s, transactionForDmabuf) := s.block client t
        s.delay client dmabuf transactionForDmabuf
      | none => s.delay client dmabuf none
    | none => s.delay client dmabuf none

end State

inductive Event (τ κ : Type) where
  | new
  | clone (t : ℕ)
  | drop (t : ℕ)
  | registerDeadlineTimer (t : ℕ)
  | map (toplevel : τ) (geometry : Layout.ISize)
  | destroy (i : ℕ)
  | window (i : ℕ) (a : Action)
  | preCommit (i : ℕ) (client : Option κ) (dmabuf : Bool)
  | dmabufReady (i : ℕ)
  | deadline (t : ℕ)
  | ping (t : ℕ)
  | setDisableTransactions (value : Bool)

namespace State

variable [DecidableEq ρ]

/-- A window takes a step, with the clone that it is handed. -/
def window (s : State τ κ) (i : ℕ) (a : Action) : Option (State τ κ) := do
  let w ← s.windows[i]?
  let w' ← w.step a
  if a.handed.all (· ∈ s.handles) then
    let T := a.handed.toList.foldl Transactions.clone s.transactions
    some { s with
      transactions := T.dropAll (w.dropped a).toList
      windows := s.windows.set i w' }
  else none

def step (s : State τ κ) : Event τ κ → Option (State τ κ)
  | .new =>
    let (T, t) := s.transactions.new
    some { s with transactions := T, handles := t :: s.handles }
  | .clone t =>
    if t ∈ s.handles then
      some { s with transactions := s.transactions.clone t, handles := t :: s.handles }
    else none
  | .drop t =>
    if t ∈ s.handles then
      some { s with transactions := s.transactions.drop t, handles := s.handles.erase t }
    else none
  | .registerDeadlineTimer t =>
    if t ∈ s.handles then
      some { s with transactions := s.transactions.registerDeadlineTimer t }
    else none
  | .map toplevel geometry => some { s with windows := s.windows ++ [Mapped.new toplevel geometry] }
  | .destroy i => s.windows[i]?.map fun w =>
    { s with
      windows := s.windows.eraseIdx i
      transactions := s.transactions.dropAll w.transactions }
  | .window i a => s.window i a
  | .preCommit i client dmabuf => s.preCommit i client dmabuf
  | .dmabufReady i => s.dmabufs[i]?.map fun t =>
    { s with
      dmabufs := s.dmabufs.eraseIdx i
      transactions := s.transactions.dropAll t.toList }
  | .deadline t => (s.transactions.deadline t).map fun T => { s with transactions := T }
  | .ping t => (s.transactions.ping t).map fun T => { s with transactions := T }
  | .setDisableTransactions value => some { s with disableTransactions := value }

end State

/-! Who holds what. -/

namespace Mapped

variable {w w' : Mapped τ}

theorem transactions_configure : w.configure.pendingTransactions.map Prod.snd =
    w.pendingTransactions.map Prod.snd ++ w.transactionForNextConfigure.toList := by
  simp only [configure, map_append, List.map_map]
  cases w.transactionForNextConfigure <;> simp

theorem requestSizeOnce_transactions {size : Layout.ISize} {animate : Bool} :
    (w.requestSizeOnce size animate).transactionForNextConfigure = none ∧
      (w.requestSizeOnce size animate).pendingTransactions = w.pendingTransactions := by
  cases hs : w.alreadySent size with
  | some serial =>
    obtain ⟨once, -, hw⟩ := requestSizeOnce_of_sent animate hs
    rw [hw]
    exact ⟨rfl, rfl⟩
  | none =>
    rw [requestSizeOnce_of_not_sent hs]
    exact ⟨rfl, rfl⟩

variable [DecidableEq ρ]

/-- A step of a window keeps the clones that it holds, apart from those handed over and dropped. -/
theorem transactions_step {a : Action} (hw : w.step a = some w') :
    ((w.dropped a).toList ++ w'.transactions).Perm (a.handed.toList ++ w.transactions) := by
  unfold transactions
  cases a with
  | requestSize size mode animate transaction =>
    obtain rfl := some.inj hw
    have hnext : (w.requestSize size mode animate transaction).transactionForNextConfigure =
        transaction.or w.transactionForNextConfigure := rfl
    have hpending : (w.requestSize size mode animate transaction).pendingTransactions =
        w.pendingTransactions := rfl
    rw [hnext, hpending]
    cases transaction with
    | none => simp [dropped, Action.handed]
    | some t =>
      simp only [dropped, Action.handed, bind_some, some_or]
      exact perm_append_comm_assoc ..
  | requestSizeOnce size animate =>
    obtain rfl := some.inj hw
    rw [requestSizeOnce_transactions.1, requestSizeOnce_transactions.2]
    simp [dropped, Action.handed]
  | requestWindowedFullscreen value =>
    obtain rfl := some.inj hw
    have hsame : (w.requestWindowedFullscreen value).transactionForNextConfigure =
        w.transactionForNextConfigure ∧
        (w.requestWindowedFullscreen value).pendingTransactions = w.pendingTransactions := by
      unfold requestWindowedFullscreen
      split <;> exact ⟨rfl, rfl⟩
    rw [hsame.1, hsame.2]
    simp [dropped, Action.handed]
  | sendPendingConfigure =>
    obtain rfl := some.inj hw
    obtain ⟨t, ht, -⟩ := hasPendingChanges_eq (w := w)
    cases hchanged : w.hasPendingChanges.1 with
    | true =>
      have hnext : w.sendPendingConfigure.transactionForNextConfigure = none := rfl
      have hpending : w.sendPendingConfigure.pendingTransactions =
          w.hasPendingChanges.2.configure.pendingTransactions := by
        simp [sendPendingConfigure, hchanged]
      rw [hnext, hpending, transactions_configure, ht]
      simp only [dropped, hchanged, Action.handed, if_true, toList_none, nil_append]
      exact perm_append_comm
    | false =>
      have hnext : w.sendPendingConfigure.transactionForNextConfigure = none := rfl
      have hpending : w.sendPendingConfigure.pendingTransactions = w.pendingTransactions := by
        simp [sendPendingConfigure, hchanged, ht]
      rw [hnext, hpending]
      simp [dropped, hchanged, Action.handed]
  | ackConfigure serial =>
    obtain ⟨t, ht, rfl⟩ := of_map hw
    simp [dropped, Action.handed]
  | commit geometry =>
    obtain rfl := some.inj hw
    have hsame : (w.commit geometry).transactionForNextConfigure = w.transactionForNextConfigure ∧
        (w.commit geometry).pendingTransactions = w.pendingTransactions := by
      unfold Mapped.commit
      dsimp only
      split <;> exact ⟨rfl, rfl⟩
    rw [hsame.1, hsame.2]
    simp [dropped, Action.handed]

end Mapped

section Take

variable [DecidableEq κ] {T : Transactions κ} {B : List (κ × ℕ)} {F H : List ℕ} {s : ℕ}

omit [DecidableEq κ] in
/-- A commit takes the entries up to its serial; the last of them is returned. -/
theorem takePendingTransaction_eq (pending : List (ℕ × ℕ)) (rv : Option ℕ) :
    (Mapped.takePendingTransaction s rv T pending).1 =
        ((pending.takeWhile (·.1 ≤ s)).map Prod.snd).getLast?.or rv ∧
      (Mapped.takePendingTransaction s rv T pending).2.2 = pending.dropWhile (·.1 ≤ s) := by
  induction pending generalizing T rv with
  | nil => exact ⟨rfl, rfl⟩
  | cons e pending ih =>
    obtain ⟨serial, t⟩ := e
    unfold Mapped.takePendingTransaction
    split_ifs with hle
    · obtain ⟨htaken, hrest⟩ := ih (T := T.dropAll rv.toList) (some t)
      rw [htaken, hrest]
      simp only [hle, decide_true, takeWhile_cons_of_pos, dropWhile_cons_of_pos, map_cons,
        getLast?_cons, some_or, and_true]
      cases ((pending.takeWhile (·.1 ≤ s)).map Prod.snd).getLast? <;> rfl
    · simp [hle]

/-- The other entries are dropped. -/
theorem inv_takePendingTransaction (pending : List (ℕ × ℕ)) (rv : Option ℕ)
    (h : T.Inv (rv.toList ++ (pending.map Prod.snd ++ H)) B F) :
    (Mapped.takePendingTransaction s rv T pending).2.1.Inv
      ((Mapped.takePendingTransaction s rv T pending).1.toList ++
        ((Mapped.takePendingTransaction s rv T pending).2.2.map Prod.snd ++ H)) B F := by
  induction pending generalizing T rv with
  | nil => exact h
  | cons e pending ih =>
    obtain ⟨serial, t⟩ := e
    unfold Mapped.takePendingTransaction
    split_ifs with hle
    · exact ih (some t) h.dropAll
    · exact h

end Take

namespace State

variable {s s' : State τ κ} {i : ℕ} {w w' : Mapped τ}

/-- The clones that others hold than window `i`. -/
def others (s : State τ κ) (i : ℕ) : List ℕ :=
  s.handles ++ s.dmabufs.flatMap Option.toList ++ (s.windows.eraseIdx i).flatMap Mapped.transactions

theorem holders_perm (hw : s.windows[i]? = some w) :
    s.holders.Perm (w.transactions ++ s.others i) := by
  obtain ⟨hi, rfl⟩ := List.getElem?_eq_some_iff.mp hw
  have hperm := (getElem_cons_eraseIdx_perm hi).symm.flatMap_right Mapped.transactions
  rw [flatMap_cons] at hperm
  exact (hperm.append_left _).trans (perm_append_comm_assoc ..)

theorem holders_set_perm (hw : s.windows[i]? = some w) (w' : Mapped τ) (T : Transactions κ) :
    ({ s with transactions := T, windows := s.windows.set i w' } : State τ κ).holders.Perm
      (w'.transactions ++ s.others i) := by
  obtain ⟨hi, -⟩ := List.getElem?_eq_some_iff.mp hw
  have hperm := (set_perm_cons_eraseIdx hi w').flatMap_right Mapped.transactions
  rw [flatMap_cons] at hperm
  exact (hperm.append_left _).trans (perm_append_comm_assoc ..)

/-- The state of a commit after its transaction was taken. -/
def taking (s : State τ κ) (i : ℕ) (w : Mapped τ) (serial : ℕ) : State τ κ :=
  let (_, T, rest) := Mapped.takePendingTransaction serial none s.transactions w.pendingTransactions
  { s with
    transactions := T
    windows := s.windows.set i { w with pendingTransactions := rest } }

/-- Who else holds a transaction that window `i` commits to: the window itself for a later configure, or
someone else. -/
def otherHolders (s : State τ κ) (i : ℕ) (w : Mapped τ) (serial : ℕ) : List ℕ :=
  (w.pendingTransactions.dropWhile (·.1 ≤ serial)).map Prod.snd ++
    (w.transactionForNextConfigure.toList ++ s.others i)

theorem holders_taking (serial : ℕ) (hw : s.windows[i]? = some w) :
    (s.taking i w serial).holders.Perm (s.otherHolders i w serial) := by
  obtain ⟨-, hrest⟩ := takePendingTransaction_eq (s := serial) (T := s.transactions)
    w.pendingTransactions none
  refine (holders_set_perm hw _ _).trans ?_
  unfold Mapped.transactions otherHolders
  rw [hrest, append_assoc]
  exact perm_append_comm_assoc ..

variable {client : Option κ} {dmabuf : Bool} {t : ℕ}

theorem preCommit_eq {configure : ToplevelConfigure ρ} (hw : s.windows[i]? = some w)
    (hacked : lastAcked w.toplevel = some configure) :
    s.preCommit i client dmabuf = some (match w.respondsTo configure.serial with
      | some t =>
        ((s.taking i w configure.serial).block client t).1.delay client dmabuf
          ((s.taking i w configure.serial).block client t).2
      | none => (s.taking i w configure.serial).delay client dmabuf none) := by
  obtain ⟨htaken, -⟩ := takePendingTransaction_eq (s := configure.serial) (T := s.transactions)
    w.pendingTransactions none
  rw [or_none] at htaken
  simp only [preCommit, hw, hacked, map_some, htaken]
  rfl

theorem preCommit_of_not_acked (hw : s.windows[i]? = some w) (hacked : lastAcked w.toplevel = none) :
    s.preCommit i client dmabuf = some (s.delay client dmabuf none) := by
  simp only [preCommit, hw, hacked, map_some]

variable [DecidableEq κ] {F : List ℕ}

/-- The counts of clones are right, and what follows from that. -/
def Inv (s : State τ κ) (F : List ℕ) : Prop := s.transactions.Inv s.holders s.blockers F

theorem isLast_iff (h : s.transactions.Inv (t :: s.holders) s.blockers F) :
    (s.transactions.registerDeadlineTimer t).isLast t = true ↔ t ∉ s.holders := by
  unfold Transactions.isLast
  rw [Transactions.strong_registerDeadlineTimer, h.strong, count_cons_self, ← count_eq_zero]
  simp

theorem inv_block (h : s.transactions.Inv (t :: s.holders) s.blockers F) :
    (s.block client t).1.transactions.Inv ((s.block client t).2.toList ++ (s.block client t).1.holders)
      (s.block client t).1.blockers F := by
  unfold block
  split_ifs with hopen
  · have hcompleted : s.transactions.isCompleted t = false := by
      simp only [Bool.and_eq_true, Bool.not_eq_true'] at hopen
      exact hopen.1
    have hreg := h.registerDeadlineTimer (h.held t (mem_cons_self ..))
    dsimp only
    split
    · split_ifs
      · exact hreg.addNotification (mem_cons_self ..)
          ((Transactions.isCompleted_registerDeadlineTimer ..).trans hcompleted)
          (Transactions.deadline_registerDeadlineTimer ..)
      · exact hreg
    · exact hreg
  · exact h.drop

/-- A commit is blocked if its transaction is not completed and held by someone else. -/
theorem blockers_block (client : Option κ)
    (h : s.transactions.Inv (t :: s.holders) s.blockers F) :
    ∃ added, (s.block client t).1.blockers = s.blockers ++ added ∧ added.length ≤ 1 ∧
      ∀ c u, (c, u) ∈ added ↔ client = some c ∧ u = t ∧ s.disableTransactions = false ∧
        s.transactions.isCompleted t = false ∧ t ∈ s.holders := by
  have hlast := isLast_iff h
  unfold block
  split_ifs with hopen
  · simp only [Bool.and_eq_true, Bool.not_eq_true'] at hopen
    cases client with
    | none => exact ⟨[], by simp⟩
    | some client =>
      by_cases ht : t ∈ s.holders
      · have : (s.transactions.registerDeadlineTimer t).isLast t = false := by
          simpa [ht] using hlast
        refine ⟨[(client, t)], by simp [this], by simp, fun c u => ?_⟩
        simp [hopen, ht, eq_comm]
      · have : (s.transactions.registerDeadlineTimer t).isLast t = true := hlast.mpr ht
        refine ⟨[], by simp [this], by simp, fun c u => ?_⟩
        simp [ht]
  · refine ⟨[], by simp, by simp, fun c u => ?_⟩
    simp only [Bool.and_eq_true, Bool.not_eq_true', not_and] at hopen
    simp only [not_mem_nil, false_iff, not_and]
    exact fun _ _ hdisable hcompleted => absurd hdisable (hopen hcompleted)

theorem inv_delay {held : Option ℕ}
    (h : s.transactions.Inv (held.toList ++ s.holders) s.blockers F) :
    (s.delay client dmabuf held).Inv F := by
  unfold delay Inv
  split_ifs
  · refine h.perm ?_
    unfold holders
    simp only [flatMap_append, flatMap_cons, flatMap_nil, append_nil]
    have hperm : (held.toList ++ (s.handles ++ s.dmabufs.flatMap Option.toList)).Perm
        (s.handles ++ (s.dmabufs.flatMap Option.toList ++ held.toList)) :=
      perm_append_comm.trans (by rw [append_assoc])
    rw [← append_assoc]
    exact hperm.append_right _
  · exact h.dropAll

theorem inv_taking (serial : ℕ) (h : s.Inv F) (hw : s.windows[i]? = some w) :
    (s.taking i w serial).transactions.Inv
      ((w.respondsTo serial).toList ++ (s.taking i w serial).holders) s.blockers F := by
  have hperm : s.holders.Perm ((none : Option ℕ).toList ++ (w.pendingTransactions.map Prod.snd ++
      (w.transactionForNextConfigure.toList ++ s.others i))) := by
    refine (holders_perm hw).trans ?_
    unfold Mapped.transactions
    rw [append_assoc]
    exact perm_append_comm_assoc ..
  have htake := inv_takePendingTransaction (s := serial) _ _ (h.perm hperm)
  obtain ⟨htaken, hrest⟩ := takePendingTransaction_eq (s := serial) (T := s.transactions)
    w.pendingTransactions none
  rw [htaken, hrest, or_none] at htake
  exact htake.perm (Perm.append_left _ (holders_taking _ hw).symm)

theorem inv_preCommit (h : s.Inv F) (hs : s.preCommit i client dmabuf = some s') : s'.Inv F := by
  cases hw : s.windows[i]? with
  | none => simp [preCommit, hw] at hs
  | some w =>
    cases hacked : lastAcked w.toplevel with
    | none =>
      rw [preCommit_of_not_acked hw hacked] at hs
      obtain rfl := some.inj hs
      exact inv_delay h
    | some configure =>
      rw [preCommit_eq hw hacked] at hs
      have htaking := inv_taking configure.serial h hw
      cases htaken : w.respondsTo configure.serial with
      | none =>
        rw [htaken] at hs htaking
        obtain rfl := some.inj hs
        exact inv_delay htaking
      | some t =>
        rw [htaken] at hs htaking
        obtain rfl := some.inj hs
        exact inv_delay (inv_block htaking)

end State

end Macniri.Window
