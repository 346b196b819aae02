import Macniri.Window.Toplevel

/-! When the client ends up in the state that the window asks for. -/
namespace Macniri.Window

open Option List

open Layout (SizingMode)
open ToplevelSurface

variable {τ ρ : Type} [ToplevelSurface τ ρ]

namespace ToplevelSurface

variable {t t' : τ}

/-- The configure that was sent last, as far as it is known. -/
def lastConfigure (t : τ) : Option (ToplevelConfigure ρ) :=
  (pendingConfigures t).getLast?.or (lastAcked t)

theorem current_of_last {c : ToplevelConfigure ρ} (h : lastConfigure t = some c) :
    currentServerState t = c.state := by
  unfold lastConfigure at h
  cases hlast : (pendingConfigures t).getLast? with
  | none =>
    rw [hlast, none_or] at h
    exact current_of_acked t c (getLast?_eq_none_iff.mp hlast) h
  | some c' =>
    rw [hlast, some_or] at h
    exact current_of_pending t c (hlast.trans h)

theorem lastConfigure_ack {s : ℕ} (h : ackConfigure t s = some t') :
    lastConfigure t' = lastConfigure t := by
  obtain ⟨pre, c, post, hbefore, -, hafter, hacked, -⟩ := ack t t' s h
  unfold lastConfigure
  rw [hbefore, hafter, hacked]
  cases hpost : post.getLast? with
  | none =>
    obtain rfl := getLast?_eq_none_iff.mp hpost
    simp
  | some c' => simp [getLast?_append, getLast?_cons, hpost]

theorem isSome_lastConfigure_ack {s : ℕ} (h : ackConfigure t s = some t') :
    (lastConfigure t).isSome := by
  obtain ⟨pre, c, post, hbefore, -⟩ := ack t t' s h
  simp [lastConfigure, hbefore, getLast?_append, getLast?_cons]

theorem current_ack {s : ℕ} (h : ackConfigure t s = some t') :
    currentServerState t' = currentServerState t := by
  obtain ⟨c, hc⟩ := isSome_iff_exists.mp (isSome_lastConfigure_ack h)
  rw [current_of_last hc, current_of_last ((lastConfigure_ack h).trans hc)]

theorem serverPending_ack {s : ℕ} (h : ackConfigure t s = some t') :
    serverPending t' = serverPending t := by
  obtain ⟨_, _, _, -, -, -, -, hpending, -⟩ := ack t t' s h
  exact hpending

theorem committed_ack {s : ℕ} (h : ackConfigure t s = some t') : committed t' = committed t := by
  obtain ⟨_, _, _, -, -, -, -, -, hcommitted⟩ := ack t t' s h
  exact hcommitted

theorem pending_ack {s : ℕ} (h : ackConfigure t s = some t') : pending t' = pending t := by
  rw [pending, pending, serverPending_ack h, current_ack h]

theorem pending_commit : pending (commit t) = pending t := by
  rw [pending, pending, serverPending_commit, current_commit]

theorem lastConfigure_commit : lastConfigure (commit t) = lastConfigure t := by
  rw [lastConfigure, lastConfigure, configures_commit, acked_commit]

theorem lastConfigure_with {f : ToplevelState ρ → ToplevelState ρ} :
    lastConfigure (withPendingState t f) = lastConfigure t := by
  rw [lastConfigure, lastConfigure, configures_with, acked_with]

theorem pending_with {f : ToplevelState ρ → ToplevelState ρ} :
    pending (withPendingState t f) = f (pending t) := by
  rw [pending, serverPending_with, getD_some]
  rfl

theorem lastConfigure_send :
    lastConfigure (sendConfigure t).1 = some ⟨pending t, (sendConfigure t).2⟩ := by
  simp [lastConfigure, configures_send, pending]

theorem pending_send : pending (sendConfigure t).1 = pending t := by
  rw [pending, serverPending_send, getD_none, current_of_last lastConfigure_send]

theorem current_send : currentServerState (sendConfigure t).1 = pending t :=
  current_of_last lastConfigure_send

theorem lastConfigure_lt_send {c : ToplevelConfigure ρ} (h : lastConfigure t = some c) :
    c.serial < (sendConfigure t).2 := by
  unfold lastConfigure at h
  apply serial_send
  cases hlast : (pendingConfigures t).getLast? with
  | none =>
    rw [hlast, none_or] at h
    exact .inr (.inl h)
  | some c' =>
    rw [hlast, some_or] at h
    exact .inl h

end ToplevelSurface

/-- The client acks or commits. -/
def Action.IsClient : Action → Prop
  | .ackConfigure _ => True
  | .commit _ => True
  | _ => False

namespace Mapped

section Flags

variable {l l' : List (ℕ × Bool)} {v value : Bool} {s : ℕ}

theorem lastSent_append : lastSent (l ++ l') v = lastSent l' (lastSent l v) := by
  unfold lastSent
  rw [getLast?_append]
  cases l'.getLast? <;> rfl

theorem lastSent_store : lastSent (store l v value s) v = value := by
  unfold store
  split_ifs with h
  · simp [lastSent]
  · simpa using h

/-- The entries that a commit drops come before those that it keeps. -/
theorem filter_append_of_sorted (h : l.Pairwise (·.1 < ·.1)) :
    l.filter (·.1 ≤ s) ++ l.filter (¬ ·.1 ≤ s) = l := by
  induction l with
  | nil => rfl
  | cons e l ih =>
    obtain ⟨he, hl⟩ := pairwise_cons.mp h
    by_cases hs : e.1 ≤ s
    · simpa [hs] using ih hl
    · have hnone : l.filter (·.1 ≤ s) = [] := by
        rw [filter_eq_nil_iff]
        intro e' he' hle
        have := he e' he'
        simp at hle
        omega
      have hall : l.filter (¬ ·.1 ≤ s) = l := by
        have := ih hl
        rwa [hnone, nil_append] at this
      rw [filter_cons_of_neg (by simpa using hs), filter_cons_of_pos (by simpa using hs),
        hnone, hall]
      rfl

theorem lastSent_commitFlag (h : l.Pairwise (·.1 < ·.1)) :
    lastSent (commitFlag l v s).2 (commitFlag l v s).1 = lastSent l v := by
  conv_rhs => rw [← filter_append_of_sorted (s := s) h, lastSent_append]
  rfl

end Flags

/-- The values of both flags that were sent last are those that are asked for. -/
def SentPending (w : Mapped τ) : Prop :=
  lastSent w.uncommittedWindowedFullscreen w.isWindowedFullscreen = w.isPendingWindowedFullscreen ∧
    lastSent w.uncommittedMaximized w.isMaximized = w.isPendingMaximized

/-- The entries for a flag come in the order of their serials, which are those of configures that the
client did not commit to. -/
structure FlagInv (t : τ) (uncommitted : List (ℕ × Bool)) : Prop where
  sorted : uncommitted.Pairwise (·.1 < ·.1)
  le : ∀ e ∈ uncommitted, ∃ c, lastConfigure t = some c ∧ e.1 ≤ c.serial
  gt : ∀ e ∈ uncommitted, ∀ c, committed t = some c → c.serial < e.1

/-- The pending state differs from that of the last configure, also if the size of the window is to be
used instead of the pending one. -/
def Differs (w : Mapped τ) : Prop :=
  ∃ p, serverPending w.toplevel = some p ∧
    (p ≠ { currentServerState w.toplevel with size := p.size } ∨
      p.size ≠ (currentServerState w.toplevel).size ∧
        (w.sizeOnce = none ∨ w.sizeOnce = some .waitingForConfigure))

/-- What is asked for was sent, or the next `send_pending_configure` sends it. -/
structure ConvergenceInv (w : Mapped τ) : Prop where
  windowedFullscreen : FlagInv w.toplevel w.uncommittedWindowedFullscreen
  maximized : FlagInv w.toplevel w.uncommittedMaximized
  due : w.needsConfigure = true ∨ w.Differs ∨ w.SentPending

/-- A request that is not lost: a configure is due anyway, or because of this request, or the request
differs from the last configure, or it leaves both flags as they were sent last. -/
def Kept (w : Mapped τ) : Action → Prop
  | .requestSize size mode _ _ =>
    let windowedFullscreen := w.isPendingWindowedFullscreen && mode != .fullscreen
    let maximized := mode == .maximized
    let fullscreen := mode == .fullscreen || windowedFullscreen
    w.needsConfigure = true ∨ (mode = .fullscreen ∧ w.isWindowedFullscreen = true) ∨
      w.isMaximized ≠ maximized ∨
      currentServerState w.toplevel ≠ { pending w.toplevel with
        size := some size, fullscreen := fullscreen, maximized := maximized && !fullscreen } ∨
      (lastSent w.uncommittedWindowedFullscreen w.isWindowedFullscreen = windowedFullscreen ∧
        lastSent w.uncommittedMaximized w.isMaximized = maximized)
  | .requestSizeOnce size _ =>
    w.needsConfigure = true ∨ w.isMaximized = true ∨
      (w.alreadySent size = none ∧ currentServerState w.toplevel ≠ { pending w.toplevel with
        size := some size
        fullscreen := (pending w.toplevel).fullscreen && w.isPendingWindowedFullscreen
        maximized := false }) ∨
      (w.alreadySent size ≠ none ∧ pending w.toplevel ≠
        { currentServerState w.toplevel with size := (pending w.toplevel).size }) ∨
      (lastSent w.uncommittedWindowedFullscreen w.isWindowedFullscreen =
          w.isPendingWindowedFullscreen ∧
        lastSent w.uncommittedMaximized w.isMaximized = false)
  | _ => True

section FlagInv

variable {t t' : τ} {l : List (ℕ × Bool)} {v value : Bool} {s : ℕ}

theorem FlagInv.congr (h : FlagInv t l) (hlast : lastConfigure t' = lastConfigure t)
    (hcommitted : committed t' = committed t) : FlagInv t' l :=
  ⟨h.sorted, fun e he => hlast ▸ h.le e he, fun e he => hcommitted ▸ h.gt e he⟩

theorem FlagInv.store (h : FlagInv t l) :
    FlagInv (sendConfigure t).1 (store l v value (sendConfigure t).2) := by
  have hlt : ∀ e ∈ l, e.1 < (sendConfigure t).2 := by
    intro e he
    obtain ⟨c, hc, hle⟩ := h.le e he
    have := lastConfigure_lt_send hc
    omega
  have hold : ∀ e ∈ l, ∀ c, committed (sendConfigure t).1 = some c → c.serial < e.1 := by
    intro e he c hc
    rw [committed_send] at hc
    exact h.gt e he c hc
  unfold Mapped.store
  split_ifs with hne
  · refine ⟨?_, fun e he => ⟨_, lastConfigure_send, ?_⟩, fun e he c hc => ?_⟩
    · rw [pairwise_append]
      refine ⟨h.sorted, by simp, fun e he e' he' => ?_⟩
      obtain rfl := mem_singleton.mp he'
      exact hlt e he
    · rcases mem_append.mp he with he | he
      · exact Nat.le_of_lt (hlt e he)
      · obtain rfl := mem_singleton.mp he
        exact Nat.le_refl _
    · rcases mem_append.mp he with he | he
      · exact hold e he c hc
      · obtain rfl := mem_singleton.mp he
        rw [committed_send] at hc
        exact serial_send t c (.inr (.inr hc))
  · exact ⟨h.sorted, fun e he => ⟨_, lastConfigure_send, Nat.le_of_lt (hlt e he)⟩, hold⟩

theorem FlagInv.commit {c : ToplevelConfigure ρ} (h : FlagInv t l)
    (hc : committed (ToplevelSurface.commit t) = some c) :
    FlagInv (ToplevelSurface.commit t) (commitFlag l v c.serial).2 := by
  refine ⟨h.sorted.filter _, fun e he => ?_, fun e he c' hc' => ?_⟩
  · rw [lastConfigure_commit]
    exact h.le e (mem_of_mem_filter he)
  · obtain rfl := some.inj (hc.symm.trans hc')
    simpa using of_mem_filter he

theorem FlagInv.commit_none (h : FlagInv t l)
    (hc : committed (ToplevelSurface.commit t) = none) : FlagInv (ToplevelSurface.commit t) l := by
  refine ⟨h.sorted, fun e he => ?_, fun e _ c hc' => ?_⟩
  · rw [lastConfigure_commit]
    exact h.le e he
  · rw [hc] at hc'
    cases hc'

/-- Once the client committed to the last configure, no entry is left for either flag. -/
theorem FlagInv.eq_nil {c : ToplevelConfigure ρ} (h : FlagInv t l)
    (hlast : lastConfigure t = some c) (hcommitted : committed t = some c) : l = [] := by
  cases l with
  | nil => rfl
  | cons e l =>
    obtain ⟨c', hc', hle⟩ := h.le e (mem_cons_self ..)
    obtain rfl := some.inj (hlast.symm.trans hc')
    have hgt := h.gt e (mem_cons_self ..) c hcommitted
    omega

end FlagInv

variable {w w' : Mapped τ} {size : Layout.ISize} {mode : SizingMode} {animate : Bool}
variable {transaction : Option ℕ}

/-- The window starts out with what was sent as what is asked for, or with a configure due. -/
def Starts (w : Mapped τ) : Prop := w.SentPending ∨ w.Differs

theorem convergenceInv_new {t : τ} {geometry : Layout.ISize} (h : (new t geometry).Starts) :
    (new t geometry).ConvergenceInv := by
  have hnil : FlagInv t [] := ⟨Pairwise.nil, by simp, by simp⟩
  exact ⟨hnil, hnil, .inr h.symm⟩

/-! The requests. -/

theorem pending_requestSize : pending (w.requestSize size mode animate transaction).toplevel =
    { pending w.toplevel with
      size := some size
      fullscreen := mode == .fullscreen || (w.isPendingWindowedFullscreen && mode != .fullscreen)
      maximized := (mode == .maximized) &&
        !(mode == .fullscreen || (w.isPendingWindowedFullscreen && mode != .fullscreen)) } := by
  simp only [requestSize, setPending, pending_with]
  cases mode <;> cases w.isPendingWindowedFullscreen <;> simp

theorem serverPending_requestSize :
    serverPending (w.requestSize size mode animate transaction).toplevel =
      some (pending (w.requestSize size mode animate transaction).toplevel) := by
  simp only [requestSize, setPending, pending_with, serverPending_with]
  rfl

/-- A pending state that is not the last one sent will be sent, unless its size does not count. -/
theorem differs_of_ne {p : ToplevelState ρ} (hp : serverPending w.toplevel = some p)
    (hne : p ≠ currentServerState w.toplevel)
    (honce : w.sizeOnce = none ∨ w.sizeOnce = some .waitingForConfigure) : w.Differs := by
  refine ⟨p, hp, ?_⟩
  by_cases hstates : p = { currentServerState w.toplevel with size := p.size }
  · right
    refine ⟨fun hsize => hne ?_, honce⟩
    rw [hstates, hsize]
  · exact .inl hstates

theorem convergenceInv_requestSize (h : w.ConvergenceInv)
    (hk : w.Kept (.requestSize size mode animate transaction)) :
    (w.requestSize size mode animate transaction).ConvergenceInv := by
  have hlast : lastConfigure (w.requestSize size mode animate transaction).toplevel =
      lastConfigure w.toplevel := lastConfigure_with
  have hcommitted : committed (w.requestSize size mode animate transaction).toplevel =
      committed w.toplevel := committed_with ..
  have hcurrent : currentServerState (w.requestSize size mode animate transaction).toplevel =
      currentServerState w.toplevel := current_with ..
  refine ⟨h.windowedFullscreen.congr hlast hcommitted, h.maximized.congr hlast hcommitted, ?_⟩
  rcases hk with hk | ⟨rfl, hk⟩ | hk | hk | ⟨hk, hk'⟩
  · left
    simp [requestSize, setPending, hk]
  · left
    simp [requestSize, setPending, hk]
  · left
    simp [requestSize, setPending, hk]
  · right
    left
    refine differs_of_ne serverPending_requestSize ?_ (.inl rfl)
    rw [pending_requestSize, hcurrent]
    exact Ne.symm hk
  · right
    right
    exact ⟨hk, hk'⟩

/-- What `request_size_once` changes before it looks at the last configure. -/
def asFloating (w : Mapped τ) : Mapped τ :=
  { w with
    transactionForNextConfigure := none
    isPendingMaximized := false
    needsConfigure := w.needsConfigure || w.isMaximized }

theorem requestSizeOnce_of_sent (animate : Bool) {serial : ℕ}
    (hs : w.alreadySent size = some serial) :
    ∃ once, (once = .waitingForCommit serial ∨ once = .useWindowSize) ∧
      w.requestSizeOnce size animate = { w.asFloating with sizeOnce := some once } := by
  have hs' : w.asFloating.alreadySent size = some serial := hs
  unfold asFloating at hs'
  unfold requestSizeOnce asFloating
  simp only [hs']
  split
  · split
    · exact ⟨_, .inl rfl, rfl⟩
    · exact ⟨_, .inr rfl, rfl⟩
  · exact ⟨_, .inr rfl, rfl⟩

theorem requestSizeOnce_of_not_sent (hs : w.alreadySent size = none) :
    w.requestSizeOnce size animate =
      { w.asFloating.setPending size animate fun state =>
        { state with
          fullscreen := state.fullscreen && w.isPendingWindowedFullscreen
          maximized := false } with
        sizeOnce := some .waitingForConfigure } := by
  have hs' : w.asFloating.alreadySent size = none := hs
  unfold asFloating at hs'
  unfold requestSizeOnce asFloating
  simp only [hs']

theorem convergenceInv_requestSizeOnce (h : w.ConvergenceInv)
    (hk : w.Kept (.requestSizeOnce size animate)) :
    (w.requestSizeOnce size animate).ConvergenceInv := by
  cases hs : w.alreadySent size with
  | some serial =>
    obtain ⟨once, -, hw⟩ := requestSizeOnce_of_sent animate hs
    rw [hw]
    refine ⟨h.windowedFullscreen, h.maximized, ?_⟩
    rcases hk with hk | hk | ⟨hk, -⟩ | ⟨-, hk⟩ | ⟨hk, hk'⟩
    · left
      simp [asFloating, hk]
    · left
      simp [asFloating, hk]
    · rw [hs] at hk
      cases hk
    · right
      left
      cases hp : serverPending w.toplevel with
      | none =>
        rw [pending, hp, getD_none] at hk
        exact absurd rfl hk
      | some p =>
        rw [pending, hp, getD_some] at hk
        exact ⟨p, hp, .inl hk⟩
    · right
      right
      exact ⟨hk, hk'⟩
  | none =>
    rw [requestSizeOnce_of_not_sent hs]
    refine ⟨h.windowedFullscreen.congr lastConfigure_with (committed_with ..),
      h.maximized.congr lastConfigure_with (committed_with ..), ?_⟩
    rcases hk with hk | hk | ⟨-, hk⟩ | ⟨hk, -⟩ | ⟨hk, hk'⟩
    · left
      simp [setPending, asFloating, hk]
    · left
      simp [setPending, asFloating, hk]
    · right
      left
      refine differs_of_ne (serverPending_with ..) ?_ (.inr rfl)
      rw [setPending, current_with]
      exact Ne.symm hk
    · exact absurd hs hk
    · right
      right
      exact ⟨hk, hk'⟩

theorem convergenceInv_requestWindowedFullscreen {value : Bool} (h : w.ConvergenceInv) :
    (w.requestWindowedFullscreen value).ConvergenceInv := by
  unfold requestWindowedFullscreen
  split
  · exact h
  · exact ⟨h.windowedFullscreen.congr lastConfigure_with (committed_with ..),
      h.maximized.congr lastConfigure_with (committed_with ..), .inl rfl⟩

/-! The client. -/

theorem convergenceInv_ack {t : τ} {serial : ℕ} (h : w.ConvergenceInv)
    (ht : ackConfigure w.toplevel serial = some t) :
    ({ w with toplevel := t } : Mapped τ).ConvergenceInv := by
  refine ⟨h.windowedFullscreen.congr (lastConfigure_ack ht) (committed_ack ht),
    h.maximized.congr (lastConfigure_ack ht) (committed_ack ht), ?_⟩
  rcases h.due with hdue | ⟨p, hp, hdue⟩ | hdue
  · exact .inl hdue
  · right
    left
    refine ⟨p, (serverPending_ack ht).trans hp, ?_⟩
    rw [current_ack ht]
    exact hdue
  · exact .inr (.inr hdue)

theorem toplevel_commit {geometry : Layout.ISize} :
    (w.commit geometry).toplevel = ToplevelSurface.commit w.toplevel := by
  unfold Mapped.commit
  dsimp only
  split <;> rfl

theorem sentPending_commit {geometry : Layout.ISize}
    (hwindowed : w.uncommittedWindowedFullscreen.Pairwise (·.1 < ·.1))
    (hmaximized : w.uncommittedMaximized.Pairwise (·.1 < ·.1)) (h : w.SentPending) :
    (w.commit geometry).SentPending := by
  unfold Mapped.commit
  dsimp only
  split
  · exact h
  · exact ⟨(lastSent_commitFlag hwindowed).trans h.1, (lastSent_commitFlag hmaximized).trans h.2⟩

theorem differs_commit {geometry : Layout.ISize} (h : w.Differs) : (w.commit geometry).Differs := by
  obtain ⟨p, hp, hne⟩ := h
  refine ⟨p, ?_, ?_⟩
  · rw [toplevel_commit, serverPending_commit]
    exact hp
  · rw [toplevel_commit, current_commit]
    rcases hne with hne | ⟨hsize, honce⟩
    · exact .inl hne
    · refine .inr ⟨hsize, ?_⟩
      unfold Mapped.commit
      dsimp only
      split
      · exact honce
      · rcases honce with honce | honce <;> simp [onCommit, honce]

theorem convergenceInv_commit {geometry : Layout.ISize} (h : w.ConvergenceInv) :
    (w.commit geometry).ConvergenceInv := by
  have hdue : (w.commit geometry).needsConfigure = true ∨ (w.commit geometry).Differs ∨
      (w.commit geometry).SentPending := by
    rcases h.due with hdue | hdue | hdue
    · left
      rw [← hdue]
      unfold Mapped.commit
      dsimp only
      split <;> rfl
    · exact .inr (.inl (differs_commit hdue))
    · exact .inr (.inr (sentPending_commit h.windowedFullscreen.sorted h.maximized.sorted hdue))
  refine ⟨?_, ?_, hdue⟩
  all_goals
    unfold Mapped.commit
    dsimp only
    split
  · next hnone => exact h.windowedFullscreen.commit_none hnone
  · next c hc => exact h.windowedFullscreen.commit (v := w.isWindowedFullscreen) hc
  · next hnone => exact h.maximized.commit_none hnone
  · next c hc => exact h.maximized.commit (v := w.isMaximized) hc

/-! `send_pending_configure`. -/

theorem ignoreSize_eq : ∃ t : τ, w.ignoreSize = { w with toplevel := t } ∧
    lastConfigure t = lastConfigure w.toplevel ∧ committed t = committed w.toplevel := by
  unfold ignoreSize
  split_ifs
  · exact ⟨_, rfl, lastConfigure_with, committed_with ..⟩
  · exact ⟨_, rfl, rfl, rfl⟩

theorem ignoreSize_of_differs (h : w.Differs) :
    pending w.ignoreSize.toplevel ≠ currentServerState w.ignoreSize.toplevel := by
  obtain ⟨p, hp, hne⟩ := h
  have hpending : pending w.toplevel = p := by rw [pending, hp, getD_some]
  unfold ignoreSize
  split_ifs with honce
  · rw [pending_with, current_with, hpending]
    rcases hne with hne | ⟨-, hother⟩
    · intro heq
      apply hne
      rw [← heq]
    · rw [honce] at hother
      simp at hother
  · rw [hpending]
    intro heq
    rcases hne with hne | ⟨hne, -⟩
    · apply hne
      rw [heq]
    · rw [heq] at hne
      exact hne rfl

/-- Everything that is asked for was sent. -/
structure AllSent (w : Mapped τ) : Prop where
  windowedFullscreen : FlagInv w.toplevel w.uncommittedWindowedFullscreen
  maximized : FlagInv w.toplevel w.uncommittedMaximized
  sent : w.SentPending
  pending : pending w.toplevel = currentServerState w.toplevel

theorem allSent_configure (hwindowed : FlagInv w.toplevel w.uncommittedWindowedFullscreen)
    (hmaximized : FlagInv w.toplevel w.uncommittedMaximized) : w.configure.AllSent := by
  let t := if w.sizeOnce = some .useWindowSize then
      withPendingState w.toplevel fun state => { state with size := some w.geometry }
    else w.toplevel
  have ht : lastConfigure t = lastConfigure w.toplevel ∧ committed t = committed w.toplevel := by
    unfold t
    split_ifs
    · exact ⟨lastConfigure_with, committed_with ..⟩
    · exact ⟨rfl, rfl⟩
  refine ⟨(hwindowed.congr ht.1 ht.2).store, (hmaximized.congr ht.1 ht.2).store,
    ⟨lastSent_store, lastSent_store⟩, ?_⟩
  exact pending_send.trans current_send.symm

theorem AllSent.convergenceInv (h : w.AllSent) : w.ConvergenceInv :=
  ⟨h.windowedFullscreen, h.maximized, .inr (.inr h.sent)⟩

theorem AllSent.sizingMode_eq {c : ToplevelConfigure ρ} (h : w.AllSent)
    (hlast : lastConfigure w.toplevel = some c) (hcommitted : committed w.toplevel = some c) :
    w.sizingMode = w.pendingSizingMode := by
  obtain ⟨hwindowed, hmaximized⟩ := h.sent
  rw [h.windowedFullscreen.eq_nil hlast hcommitted] at hwindowed
  rw [h.maximized.eq_nil hlast hcommitted] at hmaximized
  change w.isWindowedFullscreen = _ at hwindowed
  change w.isMaximized = _ at hmaximized
  unfold sizingMode pendingSizingMode
  rw [hwindowed, hmaximized, hcommitted, h.pending, current_of_last hlast]

variable [DecidableEq ρ]

/-- Nothing but the size of the pending state changes in the check for pending changes. -/
theorem hasPendingChanges_snd :
    w.hasPendingChanges.2 = w ∨ w.hasPendingChanges.2 = w.ignoreSize := by
  unfold hasPendingChanges
  split_ifs
  · exact .inl rfl
  · exact .inl rfl
  · exact .inr rfl

theorem hasPendingChanges_eq : ∃ t : τ, w.hasPendingChanges.2 = { w with toplevel := t } ∧
    lastConfigure t = lastConfigure w.toplevel ∧ committed t = committed w.toplevel := by
  rcases hasPendingChanges_snd (w := w) with h | h
  · exact ⟨_, h, rfl, rfl⟩
  · rw [h]
    exact ignoreSize_eq

theorem not_due_of_unchanged (h : w.hasPendingChanges.1 = false) :
    w.needsConfigure = false ∧ ¬ w.Differs ∧
      pending w.hasPendingChanges.2.toplevel = currentServerState w.hasPendingChanges.2.toplevel := by
  unfold hasPendingChanges at h ⊢
  split_ifs at h ⊢ with hneeds hnone
  · refine ⟨by simpa using hneeds, ?_, ?_⟩
    · rintro ⟨p, hp, -⟩
      rw [hp] at hnone
      cases hnone
    · rw [pending, isNone_iff_eq_none.mp hnone, getD_none]
  · have heq : pending w.ignoreSize.toplevel = currentServerState w.ignoreSize.toplevel := by
      simpa using h
    exact ⟨by simpa using hneeds, fun hd => ignoreSize_of_differs hd heq, heq⟩

/-- Whatever is due is sent. -/
theorem allSent_sendPendingConfigure (h : w.ConvergenceInv) : w.sendPendingConfigure.AllSent := by
  obtain ⟨t, ht, hlast, hcommitted⟩ := hasPendingChanges_eq (w := w)
  have hwindowed := h.windowedFullscreen.congr hlast hcommitted
  have hmaximized := h.maximized.congr hlast hcommitted
  cases hchanged : w.hasPendingChanges.1 with
  | true =>
    have hsent : w.hasPendingChanges.2.configure.AllSent := by
      rw [ht]
      exact allSent_configure hwindowed hmaximized
    have heq : w.sendPendingConfigure = { w.hasPendingChanges.2.configure with
        animateNextConfigure := false
        transactionForNextConfigure := none } := by
      simp [sendPendingConfigure, hchanged]
    rw [heq]
    exact ⟨hsent.windowedFullscreen, hsent.maximized, hsent.sent, hsent.pending⟩
  | false =>
    obtain ⟨hneeds, hdiffers, hpending⟩ := not_due_of_unchanged hchanged
    have hsent : w.SentPending := by
      rcases h.due with hdue | hdue | hdue
      · rw [hneeds] at hdue
        cases hdue
      · exact absurd hdue hdiffers
      · exact hdue
    rw [ht] at hpending
    have heq : w.sendPendingConfigure = { w with
        toplevel := t
        interactiveResize :=
          if w.interactiveResize = some .waitingForLastConfigure then none else w.interactiveResize
        animateNextConfigure := false
        transactionForNextConfigure := none } := by
      simp [sendPendingConfigure, hchanged, ht]
    rw [heq]
    exact ⟨hwindowed, hmaximized, hsent, hpending⟩

/-! Runs. -/

theorem convergenceInv_step {a : Action} (h : w.ConvergenceInv) (hk : w.Kept a)
    (hw : w.step a = some w') : w'.ConvergenceInv := by
  cases a with
  | requestSize size mode animate transaction =>
    obtain rfl := some.inj hw
    exact convergenceInv_requestSize h hk
  | requestSizeOnce size animate =>
    obtain rfl := some.inj hw
    exact convergenceInv_requestSizeOnce h hk
  | requestWindowedFullscreen value =>
    obtain rfl := some.inj hw
    exact convergenceInv_requestWindowedFullscreen h
  | sendPendingConfigure =>
    obtain rfl := some.inj hw
    exact (allSent_sendPendingConfigure h).convergenceInv
  | ackConfigure serial =>
    obtain ⟨t, ht, rfl⟩ := of_map hw
    exact convergenceInv_ack h ht
  | commit geometry =>
    obtain rfl := some.inj hw
    exact convergenceInv_commit h

theorem allSent_step {a : Action} (h : w.AllSent) (ha : a.IsClient) (hw : w.step a = some w') :
    w'.AllSent := by
  have hinv := convergenceInv_step h.convergenceInv (by cases a <;> simp_all [Action.IsClient, Kept]) hw
  cases a with
  | ackConfigure serial =>
    obtain ⟨t, ht, rfl⟩ := of_map hw
    refine ⟨hinv.windowedFullscreen, hinv.maximized, h.sent, ?_⟩
    exact (pending_ack ht).trans (h.pending.trans (current_ack ht).symm)
  | commit geometry =>
    obtain rfl := some.inj hw
    refine ⟨hinv.windowedFullscreen, hinv.maximized, ?_, ?_⟩
    · exact sentPending_commit h.windowedFullscreen.sorted h.maximized.sorted h.sent
    · rw [toplevel_commit, pending_commit, current_commit]
      exact h.pending
  | requestSize | requestSizeOnce | requestWindowedFullscreen | sendPendingConfigure => cases ha

/-- If no request is lost, what was sent last is what is asked for, and the client ends up there. -/
theorem converges_of_kept (t : τ) (geometry : Layout.ISize) (xs : List Action) (w : Mapped τ)
    (hstart : (new t geometry).Starts) (hk : AllAlong step Kept (new t geometry) xs)
    (hw : run step (new t geometry) xs = some w) :
    w.sendPendingConfigure.SentPending ∧
      ∀ ys w', (∀ a ∈ ys, Action.IsClient a) → run step w.sendPendingConfigure ys = some w' →
        ∀ c, lastConfigure w'.toplevel = some c → committed w'.toplevel = some c →
          w'.sizingMode = w'.pendingSizingMode := by
  have hinv : w.ConvergenceInv :=
    run_invariant_of_allAlong (I := ConvergenceInv)
      (fun _ _ _ h hk hw => convergenceInv_step h hk hw) (convergenceInv_new hstart) hk hw
  have hsent := allSent_sendPendingConfigure hinv
  refine ⟨hsent.sent, fun ys w' hys hw' c hlast hcommitted => ?_⟩
  suffices w'.AllSent from this.sizingMode_eq hlast hcommitted
  clear hw hk hstart hinv
  generalize w.sendPendingConfigure = u at hsent hw'
  induction ys generalizing u with
  | nil => exact some.inj hw' ▸ hsent
  | cons a ys ih =>
    obtain ⟨v, hv, hrest⟩ := of_bind hw'
    exact ih (fun b hb => hys b (mem_cons_of_mem _ hb)) v
      (allSent_step hsent (hys a (mem_cons_self ..)) hv) hrest

/-- A window that committed to its first configure. -/
def mapped : Mapped Toplevel :=
  new ⟨none, [], some ⟨⟨some ⟨100, 100⟩, false, false, ()⟩, 1⟩,
    some ⟨⟨some ⟨100, 100⟩, false, false, ()⟩, 1⟩⟩ ⟨100, 100⟩

theorem converges_of_kept_maximized :
    mapped.Starts ∧ AllAlong step Kept mapped [.requestSize ⟨200, 200⟩ .maximized true none] ∧
      (mapped.requestSize ⟨200, 200⟩ .maximized true none).sendPendingConfigure.SentPending := by
  have hstart : mapped.Starts := .inl ⟨rfl, rfl⟩
  have hk : AllAlong step Kept mapped [.requestSize ⟨200, 200⟩ .maximized true none] :=
    ⟨.inr (.inr (.inl (by decide))), fun _ _ => trivial⟩
  exact ⟨hstart, hk, (converges_of_kept _ _ _ _ hstart hk rfl).1⟩

/-- Maximizing a windowed-fullscreen window and back before it commits: the second request is not
sent, since it agrees with the committed flag and with the state of the last configure. -/
def maximizeAndBack : List Action :=
  [.requestWindowedFullscreen true, .sendPendingConfigure, .ackConfigure 2, .commit ⟨100, 100⟩,
    .requestSize ⟨100, 100⟩ .maximized true none, .sendPendingConfigure,
    .requestSize ⟨100, 100⟩ .normal true none]

theorem not_converges : ∃ w w', run step mapped maximizeAndBack = some w ∧
    ¬ w.sendPendingConfigure.SentPending ∧
    run step w.sendPendingConfigure [.ackConfigure 3, .commit ⟨100, 100⟩] = some w' ∧
    committed w'.toplevel = lastConfigure w'.toplevel ∧
    w'.sizingMode = .maximized ∧ w'.pendingSizingMode = .normal := by
  refine ⟨_, _, rfl, ?_, rfl, rfl, rfl, rfl⟩
  intro h
  exact absurd h.2 (by decide)

end Mapped

end Macniri.Window
