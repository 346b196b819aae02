import Macniri.Window.Mapped

/-! A toplevel surface with no states other than fullscreen and maximized. -/
namespace Macniri.Window

open List

structure Toplevel where
  serverPending : Option (ToplevelState Unit)
  pendingConfigures : List (ToplevelConfigure Unit)
  lastAcked : Option (ToplevelConfigure Unit)
  committed : Option (ToplevelConfigure Unit)

namespace Toplevel

variable {t t' : Toplevel} {c : ToplevelConfigure Unit}

def lastState (t : Toplevel) : Option (ToplevelState Unit) :=
  (t.pendingConfigures.getLast?.or t.lastAcked).map (·.state)

def currentServerState (t : Toplevel) : ToplevelState Unit := t.lastState.getD ⟨none, false, false, ()⟩

/-- The serials that a new one has to be above of. -/
def serials (t : Toplevel) : List ℕ :=
  (t.pendingConfigures.getLast?.toList ++ t.lastAcked.toList ++ t.committed.toList).map (·.serial)

def nextSerial (t : Toplevel) : ℕ := t.serials.foldr max 0 + 1

def pending (t : Toplevel) : ToplevelState Unit := t.serverPending.getD t.currentServerState

def sendConfigure (t : Toplevel) : Toplevel × ℕ :=
  ({ t with
    serverPending := none
    pendingConfigures := t.pendingConfigures ++ [⟨t.pending, t.nextSerial⟩] }, t.nextSerial)

def ackConfigure (t : Toplevel) (serial : ℕ) : Option Toplevel :=
  match t.pendingConfigures.dropWhile (·.serial != serial) with
  | [] => none
  | c :: rest => some { t with pendingConfigures := rest, lastAcked := some c }

theorem lt_nextSerial (h : c.serial ∈ t.serials) : c.serial < t.nextSerial := by
  have hle : ∀ l : List ℕ, c.serial ∈ l → c.serial ≤ l.foldr max 0 := by
    intro l hl
    induction l with
    | nil => cases hl
    | cons n l ih =>
      rw [foldr_cons]
      rcases mem_cons.mp hl with rfl | hl
      · exact Nat.le_max_left ..
      · exact (ih hl).trans (Nat.le_max_right ..)
  exact Nat.lt_succ_of_le (hle _ h)

theorem ackConfigure_eq {serial : ℕ} (h : t.ackConfigure serial = some t') :
    ∃ pre c post, t.pendingConfigures = pre ++ c :: post ∧ c.serial = serial ∧
      t' = { t with pendingConfigures := post, lastAcked := some c } := by
  unfold ackConfigure at h
  split at h
  · cases h
  · next c rest hdrop =>
    obtain rfl := Option.some.inj h
    refine ⟨t.pendingConfigures.takeWhile (·.serial != serial), c, rest, ?_, ?_, rfl⟩
    · rw [← hdrop, takeWhile_append_dropWhile]
    · have hhead := head?_dropWhile_not (·.serial != serial) t.pendingConfigures
      rw [hdrop, head?_cons] at hhead
      simpa using hhead

end Toplevel

instance : ToplevelSurface Toplevel Unit where
  serverPending := Toplevel.serverPending
  currentServerState := Toplevel.currentServerState
  pendingConfigures := Toplevel.pendingConfigures
  lastAcked := Toplevel.lastAcked
  committed := Toplevel.committed
  withPendingState t f := { t with serverPending := some (f t.pending) }
  sendConfigure := Toplevel.sendConfigure
  ackConfigure := Toplevel.ackConfigure
  commit t := { t with committed := t.lastAcked }
  current_of_pending t c h := by simp [Toplevel.currentServerState, Toplevel.lastState, h]
  current_of_acked t c hnil h := by simp [Toplevel.currentServerState, Toplevel.lastState, hnil, h]
  serverPending_with _ _ := rfl
  current_with _ _ := rfl
  configures_with _ _ := rfl
  acked_with _ _ := rfl
  committed_with _ _ := rfl
  serverPending_send _ := rfl
  configures_send _ := rfl
  acked_send _ := rfl
  committed_send _ := rfl
  serial_send t c h := by
    apply Toplevel.lt_nextSerial
    rcases h with h | h | h <;> simp [Toplevel.serials, h]
  ack t t' s h := by
    obtain ⟨pre, c, post, hbefore, hserial, rfl⟩ := Toplevel.ackConfigure_eq h
    exact ⟨pre, c, post, hbefore, hserial, rfl, rfl, rfl, rfl⟩
  committed_commit _ := rfl
  acked_commit _ := rfl
  configures_commit _ := rfl
  serverPending_commit _ := rfl
  current_commit _ := rfl

end Macniri.Window
