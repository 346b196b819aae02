import Mathlib.Data.PNat.Basic
import Mathlib.Tactic.Ring

/-! The frame clock of an output: when the next frame will be presented. -/
namespace Macniri

open Option

/-! Times are in nanoseconds. An operation that overflows has no value. -/

namespace Duration

def nanosPerSec : ℕ := 1000000000

def max : ℕ := (2 ^ 64 - 1) * nanosPerSec + (nanosPerSec - 1)

def add (a b : ℕ) : Option ℕ := if a + b ≤ max then some (a + b) else none

def sub (a b : ℕ) : Option ℕ := if b ≤ a then some (a - b) else none

def asSecs (d : ℕ) : ℕ := d / nanosPerSec

def subsecNanos (d : ℕ) : ℕ := d % nanosPerSec

theorem two_pow_le_max : 2 ^ 65 ≤ max := by decide

theorem add_eq {a b : ℕ} (h : a + b ≤ max) : add a b = some (a + b) := if_pos h

theorem asSecs_mul_add (d : ℕ) : asSecs d * nanosPerSec + subsecNanos d = d :=
  Nat.div_add_mod' d nanosPerSec

end Duration

namespace U64

def add (a b : ℕ) : Option ℕ := if a + b < 2 ^ 64 then some (a + b) else none

def mul (a b : ℕ) : Option ℕ := if a * b < 2 ^ 64 then some (a * b) else none

theorem add_eq {a b : ℕ} (h : a + b < 2 ^ 64) : add a b = some (a + b) := if_pos h

theorem mul_eq {a b : ℕ} (h : a * b < 2 ^ 64) : mul a b = some (a * b) := if_pos h

end U64

/-- The nanoseconds of a duration as an `u64`. -/
def Duration.asNanos (d : ℕ) : Option ℕ := do
  let secs ← U64.mul (asSecs d) nanosPerSec
  U64.add secs (subsecNanos d)

theorem Duration.asNanos_eq {d : ℕ} (h : d < 2 ^ 64) : asNanos d = some d := by
  have hns := asSecs_mul_add d
  unfold asNanos
  rw [U64.mul_eq (by omega), bind_eq_bind, bind_some, U64.add_eq (by omega), hns]

structure FrameClock where
  lastPresentationTime : Option ℕ
  refreshIntervalNs : Option ℕ+
  vrr : Bool
  deriving DecidableEq

namespace FrameClock

/-- The refresh interval has to be less than a second, and not zero. -/
def new (refreshInterval : Option ℕ) (vrr : Bool) : Option FrameClock :=
  match refreshInterval with
  | none => some ⟨none, none, vrr⟩
  | some interval =>
    if Duration.asSecs interval = 0 then
      if h : 0 < Duration.subsecNanos interval then
        some ⟨none, some ⟨Duration.subsecNanos interval, h⟩, vrr⟩
      else none
    else none

def setVrr (c : FrameClock) (vrr : Bool) : FrameClock :=
  if c.vrr = vrr then c else { c with vrr, lastPresentationTime := none }

def presented (c : FrameClock) (presentationTime : ℕ) : FrameClock :=
  -- Not interested in these.
  if presentationTime = 0 then c else { c with lastPresentationTime := some presentationTime }

/-- The time that is taken for the current one. -/
def afterEarlyVblank (now lastPresentationTime interval : ℕ) : Option ℕ :=
  if now ≤ lastPresentationTime then do
    -- Got an early VBlank.
    let later ← Duration.add now interval
    if later < lastPresentationTime then Duration.add lastPresentationTime interval else some later
  else some now

/-- The time from the last presentation to the next one. -/
def toNextNs (sinceLast interval : ℕ) : Option ℕ := do
  let sinceLastNs ← Duration.asNanos sinceLast
  let frames ← U64.add (sinceLastNs / interval) 1
  U64.mul frames interval

def nextPresentationTime (c : FrameClock) (now : ℕ) : Option ℕ :=
  match c.refreshIntervalNs, c.lastPresentationTime with
  | some interval, some last => do
    let now ← afterEarlyVblank now last interval
    let sinceLast ← Duration.sub now last
    let toNextNs ← toNextNs sinceLast interval
    -- More than one frame passed: assume that we can present immediately.
    if c.vrr ∧ interval < toNextNs then some now else Duration.add last toNextNs
  | _, _ => some now

/-- The first refresh after `now` and after the last presentation. -/
def IsNextRefresh (last interval now next : ℕ) : Prop :=
  ∃ k, 1 ≤ k ∧ next = last + k * interval ∧ now < next ∧
    ∀ j, 1 ≤ j → now < last + j * interval → k ≤ j

variable {c : FrameClock} {interval : ℕ+} {last now next : ℕ}

theorem lt_add_mul_iff (hlast : last ≤ now) (j : ℕ) :
    now < last + j * interval ↔ (now - last) / interval < j := by
  rw [Nat.div_lt_iff_lt_mul interval.pos]
  omega

theorem isNextRefresh_iff : IsNextRefresh last interval now next ↔
    next = last + ((now - last) / interval + 1) * interval := by
  have hbound (j : ℕ) (hj : 1 ≤ j) : now < last + j * interval ↔ (now - last) / interval < j := by
    rcases Nat.le_total last now with hle | hle
    · exact lt_add_mul_iff hle j
    · have hpos := Nat.mul_pos hj interval.pos
      rw [Nat.sub_eq_zero_of_le hle, Nat.zero_div]
      omega
  constructor
  · rintro ⟨k, hk, rfl, hlt, hleast⟩
    have hle := hleast _ (Nat.succ_pos _) ((hbound _ (Nat.succ_pos _)).mpr (Nat.lt_succ_self _))
    have hge := (hbound k hk).mp hlt
    have heq : k = (now - last) / interval + 1 := by omega
    rw [heq]
  · rintro rfl
    refine ⟨_, Nat.succ_pos _, rfl, (hbound _ (Nat.succ_pos _)).mpr (Nat.lt_succ_self _), ?_⟩
    exact fun j hj hlt => (hbound j hj).mp hlt

theorem toNextNs_eq {since : ℕ} (h : since + interval < 2 ^ 64) :
    toNextNs since interval = some ((since / interval + 1) * interval) := by
  have hmul : (since / interval + 1) * interval ≤ since + interval := by
    rw [Nat.add_mul, Nat.one_mul]
    exact Nat.add_le_add_right (Nat.div_mul_le_self _ _) _
  have hframes : since / interval ≤ since := Nat.div_le_self _ _
  have hpos := interval.pos
  have hone : U64.add (since / interval) 1 = some (since / interval + 1) := U64.add_eq (by omega)
  unfold toNextNs
  rw [Duration.asNanos_eq (by omega), bind_eq_bind, bind_some, hone, bind_some,
    U64.mul_eq (by omega)]

/-- The rest of the computation, for a time that is not before the last presentation. -/
theorem nextPresentationTime_of_since (hinterval : c.refreshIntervalNs = some interval)
    (hlast : c.lastPresentationTime = some last) (hvrr : c.vrr = false) {since : ℕ}
    (hsince : afterEarlyVblank now last interval = some (last + since))
    (hbound : since + interval < 2 ^ 64) (htime : last < 2 ^ 63) :
    c.nextPresentationTime now = some (last + (since / interval + 1) * interval) := by
  have hmul : (since / interval + 1) * interval ≤ since + interval := by
    rw [Nat.add_mul, Nat.one_mul]
    exact Nat.add_le_add_right (Nat.div_mul_le_self _ _) _
  have hsub : Duration.sub (last + since) last = some since := by
    rw [Duration.sub, if_pos (Nat.le_add_right _ _), Nat.add_sub_cancel_left]
  have htotal : Duration.add last ((since / interval + 1) * interval) =
      some (last + (since / interval + 1) * interval) :=
    Duration.add_eq (by have := Duration.two_pow_le_max; omega)
  unfold nextPresentationTime
  rw [hinterval, hlast]
  dsimp only
  rw [hsince, bind_eq_bind, bind_some, hsub, bind_some, toNextNs_eq hbound,
    bind_some, hvrr, if_neg fun hvrr => Bool.false_ne_true hvrr.1, htotal]

/-- The next presentation in each case: one refresh too late if the time is the last presentation,
or more than one refresh before it. -/
theorem nextPresentationTime_eq (hinterval : c.refreshIntervalNs = some interval)
    (hlast : c.lastPresentationTime = some last) (hvrr : c.vrr = false)
    (hbound : (interval : ℕ) < 2 ^ 63) (htime : last < 2 ^ 63) (hnow : now < 2 ^ 63) :
    c.nextPresentationTime now = some (if now = last ∨ now + interval < last
      then last + 2 * interval else last + ((now - last) / interval + 1) * interval) := by
  have hpos := interval.pos
  have hadd (a : ℕ) (ha : a < 2 ^ 63) : Duration.add a interval = some (a + interval) :=
    Duration.add_eq (by have := Duration.two_pow_le_max; omega)
  have hwhole : (interval : ℕ) / interval = 1 := Nat.div_self hpos
  by_cases hearly : now ≤ last
  · have hvblank : afterEarlyVblank now last interval =
        if now + interval < last then some (last + interval) else some (now + interval) := by
      rw [afterEarlyVblank, if_pos hearly, hadd now hnow, hadd last htime]
      rfl
    by_cases htwo : now + interval < last
    · rw [if_pos htwo] at hvblank
      rw [nextPresentationTime_of_since hinterval hlast hvrr hvblank (by omega) htime, hwhole,
        if_pos (.inr htwo)]
    · rw [if_neg htwo] at hvblank
      have hsince : afterEarlyVblank now last interval = some (last + (now + interval - last)) := by
        rw [hvblank]
        congr 1
        omega
      rw [nextPresentationTime_of_since hinterval hlast hvrr hsince (by omega) htime]
      by_cases hsame : now = last
      · have hone : now + interval - last = interval := by omega
        rw [hone, hwhole, if_pos (.inl hsame)]
      · have hzero : (now + interval - last) / interval = 0 := Nat.div_eq_of_lt (by omega)
        have hnone : (now - last) / interval = 0 := by
          rw [Nat.sub_eq_zero_of_le hearly, Nat.zero_div]
        rw [hzero, hnone, if_neg (not_or.mpr ⟨hsame, htwo⟩)]
  · have hsince : afterEarlyVblank now last interval = some (last + (now - last)) := by
      rw [afterEarlyVblank, if_neg hearly]
      congr 1
      omega
    rw [nextPresentationTime_of_since hinterval hlast hvrr hsince (by omega) htime,
      if_neg (by omega)]

/-- The next refresh is found unless the last presentation is right now, or more than one refresh
ahead. -/
theorem nextPresentationTime_iff (hinterval : c.refreshIntervalNs = some interval)
    (hlast : c.lastPresentationTime = some last) (hvrr : c.vrr = false)
    (hbound : (interval : ℕ) < 2 ^ 63) (htime : last < 2 ^ 63) (hnow : now < 2 ^ 63) :
    ∃ next, c.nextPresentationTime now = some next ∧ now < next ∧ last < next ∧
      (IsNextRefresh last interval now next ↔ now ≠ last ∧ last ≤ now + interval) ∧
      (now ≠ last ∧ last ≤ now + interval → ∀ now' next', now ≤ now' → now' < 2 ^ 63 →
        c.nextPresentationTime now' = some next' → next ≤ next') := by
  have hpos := interval.pos
  have hlater (t : ℕ) (ht : last ≤ t) : t < last + ((t - last) / interval + 1) * interval :=
    (lt_add_mul_iff ht _).mpr (Nat.lt_succ_self _)
  have hmul (k : ℕ) : (interval : ℕ) ≤ (k + 1) * interval := Nat.le_mul_of_pos_left _ (Nat.succ_pos k)
  have hdiv (t : ℕ) (ht : t ≤ last) : (t - last) / (interval : ℕ) = 0 := by
    rw [Nat.sub_eq_zero_of_le ht, Nat.zero_div]
  refine ⟨_, nextPresentationTime_eq hinterval hlast hvrr hbound htime hnow, ?_⟩
  by_cases hlate : now = last ∨ now + interval < last
  · rw [if_pos hlate, isNextRefresh_iff, hdiv now (by omega)]
    refine ⟨by omega, by omega, ⟨fun heq => ?_, fun hcond => ?_⟩, fun hcond => ?_⟩
    · omega
    · omega
    · omega
  · rw [if_neg hlate, isNextRefresh_iff]
    refine ⟨?_, ?_, ⟨fun _ => by omega, fun _ => rfl⟩, fun _ now' next' hle hnow' hnext' => ?_⟩
    · rcases Nat.le_total last now with hge | hge
      · exact hlater now hge
      · have := hmul ((now - last) / interval)
        omega
    · have := hmul ((now - last) / interval)
      omega
    · rw [nextPresentationTime_eq hinterval hlast hvrr hbound htime hnow'] at hnext'
      obtain rfl := some.inj hnext'
      split
      · rename_i hlate'
        have hzero := hdiv now (by omega)
        rw [hzero]
        omega
      · have hmono : (now - last) / interval ≤ (now' - last) / interval :=
          Nat.div_le_div_right (Nat.sub_le_sub_right hle last)
        exact Nat.add_le_add_left (Nat.mul_le_mul_right _ (Nat.succ_le_succ hmono)) _

/-- The clock of a 60 Hz output, a second after the start. -/
def at60Hz : FrameClock := ⟨some 1000000000, some 16666667, false⟩

theorem nextPresentationTime_at60Hz : ∃ next,
    at60Hz.nextPresentationTime 1020000000 = some next ∧
    IsNextRefresh 1000000000 (16666667 : ℕ+) 1020000000 next := by
  have hinterval : at60Hz.refreshIntervalNs = some 16666667 := rfl
  have hlast : at60Hz.lastPresentationTime = some 1000000000 := rfl
  have hnow : 1020000000 < 2 ^ 63 := by decide
  obtain ⟨next, hnext, -, -, hiff, -⟩ :=
    nextPresentationTime_iff hinterval hlast rfl (by decide) (by decide) hnow
  exact ⟨next, hnext, hiff.mpr ⟨by decide, by decide⟩⟩

/-- A presentation right now makes the next one two refreshes late, and so a later one than a
nanosecond afterwards. -/
theorem nextPresentationTime_skips :
    at60Hz.nextPresentationTime 1000000000 = some 1033333334 ∧
    ¬ IsNextRefresh 1000000000 (16666667 : ℕ+) 1000000000 1033333334 ∧
    at60Hz.nextPresentationTime 1000000001 = some 1016666667 := by
  have hinterval : at60Hz.refreshIntervalNs = some 16666667 := rfl
  have hlast : at60Hz.lastPresentationTime = some 1000000000 := rfl
  refine ⟨?_, fun hnext => ?_, ?_⟩
  · rw [nextPresentationTime_eq hinterval hlast rfl (by decide) (by decide) (by decide)]
    decide
  · have hnext := isNextRefresh_iff.mp hnext
    revert hnext
    decide
  · rw [nextPresentationTime_eq hinterval hlast rfl (by decide) (by decide) (by decide)]
    decide

end FrameClock

end Macniri
