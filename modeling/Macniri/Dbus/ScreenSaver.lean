import Macniri.Lib.Held
import Macniri.Lib.HashMap

/-! Keeping the session from idling: `org.freedesktop.ScreenSaver` and the inhibiting surfaces. -/
namespace Macniri

open Option HashMap

/-- The bus connection that asked for an inhibition. -/
abbrev OwnedUniqueName := String

/-- The interface's shared state; `monitorTask` says whether the clients are still being watched. -/
structure ScreenSaver where
  isInhibited : Bool
  isBroken : Bool
  inhibitors : HashMap UInt32 OwnedUniqueName
  counter : UInt32
  monitorTask : Bool

namespace ScreenSaver

variable {s : ScreenSaver} {m : HashMap UInt32 OwnedUniqueName} {counter cookie : UInt32}
  {sender : Option OwnedUniqueName} {n : Nat}

-- some clients do not like 0, so the counter starts from 1
def new : ScreenSaver := ⟨false, false, ∅, 1, true⟩

/-- The next key, which is never 0, and the counter after it. -/
def nextKey (counter : UInt32) : UInt32 × UInt32 :=
  if counter = 0 then (counter + 1, counter + 1 + 1) else (counter, counter + 1)

/-- Try `n` keys in turn; the vacant one, if any, and the counter after it. -/
def findCookie (inhibitors : HashMap UInt32 OwnedUniqueName) : Nat → UInt32 → Option UInt32 × UInt32
  | 0, counter => (none, counter)
  | n + 1, counter =>
    if inhibitors.get (nextKey counter).1 = none then (some (nextKey counter).1, (nextKey counter).2)
    else findCookie inhibitors n (nextKey counter).2

def inhibit (sender : Option OwnedUniqueName) (s : ScreenSaver) : Except String UInt32 × ScreenSaver :=
  match sender with
  | none => (.error "no sender", s)
  | some name =>
    match findCookie s.inhibitors 3 s.counter with
    | (some cookie, counter) =>
      (.ok cookie, { s with inhibitors := s.inhibitors.insert cookie name
                            isInhibited := true
                            counter := counter })
    | (none, counter) => (.error "no available cookie", { s with counter := counter })

def unInhibit (cookie : UInt32) (s : ScreenSaver) : Except String Unit × ScreenSaver :=
  if (s.inhibitors.get cookie).isSome then
    let inhibitors := s.inhibitors.remove cookie
    (.ok (), { s with inhibitors := inhibitors
                      isInhibited := if inhibitors.isEmpty then false else s.isInhibited })
  else (.error "invalid cookie", s)

/-- One signal of the stream, whose filter asks for an empty new owner. -/
def nameOwnerChanged (oldOwner newOwner : Option OwnedUniqueName) (s : ScreenSaver) : ScreenSaver :=
  match s.monitorTask, oldOwner, newOwner with
  | true, some name, none =>
    let inhibitors := s.inhibitors.retain fun _ owner => owner != name
    { s with inhibitors := inhibitors, isInhibited := !inhibitors.isEmpty }
  | _, _, _ => s

/-- The stream ends, or fails: then nobody would notice a client that is gone, so all are dropped. -/
def monitorEnds (failed : Bool) (s : ScreenSaver) : ScreenSaver :=
  match s.monitorTask, failed with
  | true, true =>
    { s with isBroken := true, isInhibited := false, inhibitors := ∅, monitorTask := false }
  | true, false => { s with monitorTask := false }
  | false, _ => s

/-- The flag that is shared with the compositor says whether an inhibitor stands. -/
def Flagged (s : ScreenSaver) : Prop := s.isInhibited = !s.inhibitors.isEmpty

theorem isEmpty_eq_false : m.isEmpty = false ↔ ∃ cookie owner, m.get cookie = some owner := by
  rw [Bool.eq_false_iff, Ne, isEmpty_eq_true]
  simp [ne_none_iff_exists', -not_forall, not_forall]

theorem get_findCookie (h : (findCookie m n counter).1 = some cookie) : m.get cookie = none := by
  induction n generalizing counter with
  | zero => cases h
  | succ n ih =>
    unfold findCookie at h
    by_cases hkey : m.get (nextKey counter).1 = none
    · rw [if_pos hkey] at h
      obtain rfl := some.inj h
      exact hkey
    · rw [if_neg hkey] at h
      exact ih h

/-- A call is granted a vacant cookie or changes nothing that a client can see. -/
theorem inhibit_cases (sender : Option OwnedUniqueName) (s : ScreenSaver) :
    (∃ name cookie, sender = some name ∧ s.inhibitors.get cookie = none ∧
      (s.inhibit sender).1 = .ok cookie ∧ (s.inhibit sender).2.isInhibited = true ∧
      (s.inhibit sender).2.inhibitors = s.inhibitors.insert cookie name) ∨
    (∃ error, (s.inhibit sender).1 = .error error) ∧
      (s.inhibit sender).2.isInhibited = s.isInhibited ∧
      (s.inhibit sender).2.inhibitors = s.inhibitors := by
  cases sender with
  | none => exact Or.inr ⟨⟨_, rfl⟩, rfl, rfl⟩
  | some name =>
    cases hfind : findCookie s.inhibitors 3 s.counter with
    | mk found counter =>
      cases found with
      | none => exact Or.inr (by simp [inhibit, hfind])
      | some cookie =>
        have hvacant : s.inhibitors.get cookie = none := get_findCookie (by rw [hfind])
        exact Or.inl ⟨name, cookie, rfl, hvacant, by simp [inhibit, hfind]⟩

theorem flagged_inhibit (h : s.Flagged) : (s.inhibit sender).2.Flagged := by
  unfold Flagged
  rcases s.inhibit_cases sender with ⟨name, cookie, -, -, -, hflag, hins⟩ | ⟨-, hflag, hins⟩
  · rw [hflag, hins, isEmpty_eq_false.mpr ⟨cookie, name, by simp⟩]
    rfl
  · rw [hflag, hins, h]

theorem flagged_unInhibit (h : s.Flagged) : (s.unInhibit cookie).2.Flagged := by
  unfold unInhibit
  cases hget : s.inhibitors.get cookie with
  | none => simpa [hget] using h
  | some owner =>
    have hflag : s.isInhibited = true := by
      rw [h, isEmpty_eq_false.mpr ⟨cookie, owner, hget⟩]
      rfl
    simp [Flagged, hflag]

theorem flagged_nameOwnerChanged {oldOwner newOwner : Option OwnedUniqueName} (h : s.Flagged) :
    (s.nameOwnerChanged oldOwner newOwner).Flagged := by
  unfold nameOwnerChanged
  split
  · rfl
  · exact h

theorem flagged_monitorEnds {failed : Bool} (h : s.Flagged) : (s.monitorEnds failed).Flagged := by
  unfold monitorEnds
  split
  · rfl
  · exact h
  · exact h

end ScreenSaver

/-- What the compositor keeps of the inhibitors, and what it last told the idle notifier. -/
structure IdleInhibit where
  screenSaver : ScreenSaver
  idleInhibitingSurfaces : Finset ℕ
  isInhibited : Bool

namespace IdleInhibit

inductive Event
  | inhibit (sender : Option OwnedUniqueName)
  | unInhibit (cookie : UInt32)
  | nameOwnerChanged (oldOwner newOwner : Option OwnedUniqueName)
  | monitorEnds (failed : Bool)
  | inhibitSurface (surface : ℕ)
  | uninhibitSurface (surface : ℕ)
  /-- A refresh, with the surfaces that are alive and those that have a primary scanout output. -/
  | refresh (isAlive isScannedOut : ℕ → Bool)

def new : IdleInhibit := ⟨.new, ∅, false⟩

def refreshIdleInhibit (isAlive isScannedOut : ℕ → Bool) (s : IdleInhibit) :
    IdleInhibit :=
  let surfaces := s.idleInhibitingSurfaces.filter fun surface => isAlive surface = true
  { s with idleInhibitingSurfaces := surfaces
           isInhibited := s.screenSaver.isInhibited ||
             decide (∃ surface ∈ surfaces, isScannedOut surface = true) }

def step (s : IdleInhibit) : Event → IdleInhibit
  | .inhibit sender => { s with screenSaver := (s.screenSaver.inhibit sender).2 }
  | .unInhibit cookie => { s with screenSaver := (s.screenSaver.unInhibit cookie).2 }
  | .nameOwnerChanged oldOwner newOwner =>
    { s with screenSaver := s.screenSaver.nameOwnerChanged oldOwner newOwner }
  | .monitorEnds failed => { s with screenSaver := s.screenSaver.monitorEnds failed }
  | .inhibitSurface surface =>
    { s with idleInhibitingSurfaces := insert surface s.idleInhibitingSurfaces }
  | .uninhibitSurface surface =>
    { s with idleInhibitingSurfaces := s.idleInhibitingSurfaces.erase surface }
  | .refresh isAlive isScannedOut => s.refreshIdleInhibit isAlive isScannedOut

def run (events : List Event) : IdleInhibit := events.foldl step new

/-- The event grants the cookie to the client. -/
def Grants (s : IdleInhibit) (e : Event) (k : UInt32 × OwnedUniqueName) : Prop :=
  e = .inhibit (some k.2) ∧ (s.screenSaver.inhibit (some k.2)).1 = .ok k.1

/-- The event takes the cookie back: any client hands it in, its owner is seen to disappear, or the
watch over the clients fails. -/
def Revokes (s : IdleInhibit) (e : Event) (k : UInt32 × OwnedUniqueName) : Prop :=
  e = .unInhibit k.1 ∨
    s.screenSaver.monitorTask = true ∧ (e = .nameOwnerChanged (some k.2) none ∨ e = .monitorEnds true)

/-- The event takes the surface out: it is uninhibited or found dead. -/
def Withdraws (_ : IdleInhibit) (e : Event) (surface : ℕ) : Prop :=
  e = .uninhibitSurface surface ∨
    ∃ isAlive isScannedOut, e = .refresh isAlive isScannedOut ∧ isAlive surface = false

/-- Step lemma for the cookies. -/
theorem get_step (s : IdleInhibit) (e : Event) (k : UInt32 × OwnedUniqueName) :
    (s.step e).screenSaver.inhibitors.get k.1 = some k.2 ↔
      s.Grants e k ∨ s.screenSaver.inhibitors.get k.1 = some k.2 ∧ ¬ s.Revokes e k := by
  obtain ⟨cookie, owner⟩ := k
  cases e with
  | inhibit sender =>
    rcases s.screenSaver.inhibit_cases sender with
      ⟨name, new, rfl, hvacant, hok, -, hins⟩ | ⟨⟨error, herr⟩, -, hins⟩
    · by_cases hcookie : cookie = new
      · subst hcookie
        simp only [step, hins, Grants, Revokes, get_insert, hvacant]
        constructor
        · intro h
          obtain rfl : name = owner := by simpa using h
          exact Or.inl ⟨rfl, hok⟩
        · rintro (⟨h, -⟩ | ⟨h, -⟩)
          · simpa using h
          · cases h
      · simp only [step, hins, Grants, Revokes, get_insert, if_neg hcookie]
        constructor
        · exact fun h => Or.inr ⟨h, by simp⟩
        · rintro (⟨h, hgrant⟩ | ⟨h, -⟩)
          · obtain rfl : name = owner := by simpa using h
            rw [hok] at hgrant
            exact absurd (Except.ok.inj hgrant).symm hcookie
          · exact h
    · simp only [step, hins, Grants, Revokes]
      constructor
      · exact fun h => Or.inr ⟨h, by simp⟩
      · rintro (⟨h, hgrant⟩ | ⟨h, -⟩)
        · obtain rfl : sender = some owner := by simpa using h
          rw [herr] at hgrant
          cases hgrant
        · exact h
  | unInhibit given =>
    by_cases hgiven : given = cookie
    · subst hgiven
      cases hget : s.screenSaver.inhibitors.get given <;>
        simp [step, ScreenSaver.unInhibit, Grants, Revokes, hget]
    · have hne : cookie ≠ given := fun h => hgiven h.symm
      cases hget : s.screenSaver.inhibitors.get given <;>
        simp [step, ScreenSaver.unInhibit, Grants, Revokes, hget, hgiven, hne]
  | nameOwnerChanged oldOwner newOwner =>
    cases hwatch : s.screenSaver.monitorTask <;> cases oldOwner <;> cases newOwner <;>
      simp [step, ScreenSaver.nameOwnerChanged, Grants, Revokes, hwatch, filter_eq_some_iff]
    rename_i name
    exact fun _ => ⟨fun h heq => h heq.symm, fun h heq => h heq.symm⟩
  | monitorEnds failed =>
    cases hwatch : s.screenSaver.monitorTask <;> cases failed <;>
      simp [step, ScreenSaver.monitorEnds, Grants, Revokes, hwatch]
  | inhibitSurface surface => simp [step, Grants, Revokes]
  | uninhibitSurface surface => simp [step, Grants, Revokes]
  | refresh isAlive isScannedOut => simp [step, refreshIdleInhibit, Grants, Revokes]

/-- Step lemma for the surfaces. -/
theorem mem_step (s : IdleInhibit) (e : Event) (surface : ℕ) :
    surface ∈ (s.step e).idleInhibitingSurfaces ↔
      e = .inhibitSurface surface ∨
        surface ∈ s.idleInhibitingSurfaces ∧ ¬ s.Withdraws e surface := by
  cases e with
  | inhibitSurface other =>
    have hswap : other = surface ↔ surface = other := eq_comm
    simp [step, Withdraws, hswap]
  | uninhibitSurface other =>
    have hswap : other = surface ↔ surface = other := eq_comm
    simp [step, Withdraws, hswap, and_comm]
  | refresh isAlive isScannedOut => simp [step, refreshIdleInhibit, Withdraws]
  | _ => simp [step, Withdraws]

theorem flagged_step {s : IdleInhibit} (h : s.screenSaver.Flagged) (e : Event) :
    (s.step e).screenSaver.Flagged := by
  cases e with
  | inhibit sender => exact ScreenSaver.flagged_inhibit h
  | unInhibit cookie => exact ScreenSaver.flagged_unInhibit h
  | nameOwnerChanged oldOwner newOwner => exact ScreenSaver.flagged_nameOwnerChanged h
  | monitorEnds failed => exact ScreenSaver.flagged_monitorEnds h
  | inhibitSurface surface => exact h
  | uninhibitSurface surface => exact h
  | refresh isAlive isScannedOut => exact h

theorem flagged_run (events : List Event) : (run events).screenSaver.Flagged := by
  induction events using List.reverseRecOn with
  | nil => rfl
  | append_singleton events e ih =>
    rw [run, List.foldl_append]
    exact flagged_step ih e

/-- After a refresh the idle notifier is inhibited exactly when some cookie was granted and not
revoked since, or some surface was inhibited, not withdrawn since, and is alive and scanned out. -/
theorem inhibited_iff_held (events : List Event) (isAlive isScannedOut : ℕ → Bool) :
    (run (events ++ [.refresh isAlive isScannedOut])).isInhibited = true ↔
      (∃ k, Held step Grants Revokes new events k) ∨
      ∃ surface,
        Held step (fun _ e surface => e = .inhibitSurface surface) Withdraws new events surface ∧
          isAlive surface = true ∧ isScannedOut surface = true := by
  have hcookies : (run events).screenSaver.isInhibited = true ↔
      ∃ k, Held step Grants Revokes new events k := by
    have hheld (k : UInt32 × OwnedUniqueName) :
        (run events).screenSaver.inhibitors.get k.1 = some k.2 ↔
          Held step Grants Revokes new events k :=
      holds_iff_held (I := fun _ => True)
        (fun (s : IdleInhibit) (k : UInt32 × OwnedUniqueName) =>
          s.screenSaver.inhibitors.get k.1 = some k.2)
        trivial (fun _ _ => id) (by simp [new, ScreenSaver.new]) fun s e _ => get_step s e k
    simp only [← hheld, Prod.exists]
    rw [flagged_run events, Bool.not_eq_true', ScreenSaver.isEmpty_eq_false]
  have hsurfaces (surface : ℕ) : surface ∈ (run events).idleInhibitingSurfaces ↔
      Held step (fun _ e surface => e = .inhibitSurface surface) Withdraws new events surface :=
    holds_iff_held (I := fun _ => True)
      (fun (s : IdleInhibit) surface => surface ∈ s.idleInhibitingSurfaces)
      trivial (fun _ _ => id) (by simp [new]) fun s e _ => mem_step s e surface
  have hrefresh : run (events ++ [.refresh isAlive isScannedOut]) =
      (run events).refreshIdleInhibit isAlive isScannedOut := by
    rw [run, List.foldl_append]
    rfl
  rw [hrefresh]
  simp only [refreshIdleInhibit, Bool.or_eq_true, decide_eq_true_eq, Finset.mem_filter, hcookies,
    hsurfaces, and_assoc]

end IdleInhibit

end Macniri
