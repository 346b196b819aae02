import Macniri.Layout.Basic
import Mathlib.Tactic.Linarith
import Mathlib.Tactic.LinearCombination

/-! The clock of the animations: the time is fetched on demand, and its rate can change. -/
namespace Macniri.Animation

/-- `Duration::MAX`, in nanoseconds. -/
def durationMax : ℚ := (2 ^ 64 - 1) * 1000000000 + 999999999

/-- `Duration::saturating_add`. -/
def saturatingAdd (a b : ℚ) : ℚ := min (a + b) durationMax

/-- `Duration::saturating_sub`. -/
def saturatingSub (a b : ℚ) : ℚ := max (a - b) 0

structure LazyClock where
  time : Option ℚ
  deriving DecidableEq

namespace LazyClock

def withTime (time : ℚ) : LazyClock := ⟨some time⟩

def clear (_ : LazyClock) : LazyClock := ⟨none⟩

def set (_ : LazyClock) (time : ℚ) : LazyClock := ⟨some time⟩

/-- The time; `monotonic` is fetched if there is none. -/
def now (c : LazyClock) (monotonic : ℚ) : ℚ × LazyClock :=
  (c.time.getD monotonic, ⟨some (c.time.getD monotonic)⟩)

end LazyClock

/-- Clock that can adjust its rate. -/
structure AdjustableClock where
  inner : LazyClock
  currentTime : ℚ
  lastSeenTime : ℚ
  rate : ℚ
  deriving DecidableEq

namespace AdjustableClock

def new (inner : LazyClock) (monotonic : ℚ) : AdjustableClock :=
  let (time, inner) := inner.now monotonic
  ⟨inner, time, time, 1⟩

def setRate (c : AdjustableClock) (rate : ℚ) : AdjustableClock :=
  { c with rate := Layout.clamp rate 0 1000 }

def now (c : AdjustableClock) (monotonic : ℚ) : ℚ × AdjustableClock :=
  let (time, inner) := c.inner.now monotonic
  if c.lastSeenTime = time then (c.currentTime, { c with inner })
  else
    let currentTime :=
      if c.lastSeenTime < time then saturatingAdd c.currentTime ((time - c.lastSeenTime) * c.rate)
      else saturatingSub c.currentTime ((c.lastSeenTime - time) * c.rate)
    (currentTime, { c with inner, currentTime, lastSeenTime := time })

end AdjustableClock

inductive ClockOp where
  | setUnadjusted (time : ℚ)
  /-- The time is fetched again when it is needed, and then it is `later`. -/
  | clear (later : ℚ)
  | setRate (rate : ℚ)
  | now
  deriving DecidableEq

/-- The shared clock, and the time that `get_monotonic_time` would return. -/
structure Clock where
  inner : AdjustableClock
  monotonic : ℚ
  deriving DecidableEq

namespace Clock

def withTime (time : ℚ) : Clock := ⟨.new (.withTime time) time, time⟩

def step (c : Clock) : ClockOp → Clock
  | .setUnadjusted time => { c with inner := { c.inner with inner := c.inner.inner.set time } }
  | .clear later => ⟨{ c.inner with inner := c.inner.inner.clear }, later⟩
  | .setRate rate => { c with inner := c.inner.setRate rate }
  | .now => { c with inner := (c.inner.now c.monotonic).2 }

def run : Clock → List ClockOp → Clock := List.foldl step

/-- What `now` returns. -/
def now (c : Clock) : ℚ := (c.inner.now c.monotonic).1

/-- What the calls of `now` return, in order. -/
def values : Clock → List ClockOp → List ℚ
  | _, [] => []
  | c, .now :: ops => c.now :: values (c.step .now) ops
  | c, op :: ops => values (c.step op) ops

/-- What `now_unadjusted` returns. -/
def nowUnadjusted (c : Clock) : ℚ := (c.inner.inner.now c.monotonic).1

/-- The calls of `now`, in order: the unadjusted time that is read, and the rate at that moment. -/
def readings : Clock → List ClockOp → List (ℚ × ℚ)
  | _, [] => []
  | c, .now :: ops => (c.nowUnadjusted, c.inner.rate) :: readings (c.step .now) ops
  | c, op :: ops => readings (c.step op) ops

/-- What `now` returns if it does not saturate. -/
def exact (c : Clock) : ℚ :=
  c.inner.currentTime + (c.nowUnadjusted - c.inner.lastSeenTime) * c.inner.rate

/-- No call of `now` saturates. -/
def Exact : Clock → List ClockOp → Prop
  | _, [] => True
  | c, .now :: ops => (0 ≤ c.exact ∧ c.exact ≤ durationMax) ∧ Exact (c.step .now) ops
  | c, op :: ops => Exact (c.step op) ops

end Clock

/-- The intervals between the times, each times the rate at its end. -/
def elapsed : ℚ → List (ℚ × ℚ) → ℚ
  | _, [] => 0
  | last, (time, rate) :: rest => (time - last) * rate + elapsed time rest

/-- The rate in force at the next call of `now`, if there is one. -/
def rateAtNow : ℚ → List ClockOp → Option ℚ
  | _, [] => none
  | rate, .now :: _ => some rate
  | _, .setRate rate :: ops => rateAtNow (Layout.clamp rate 0 1000) ops
  | rate, _ :: ops => rateAtNow rate ops

example : (Clock.withTime 0).values [.setRate (1 / 2), .setUnadjusted 100, .now, .setUnadjusted 200,
    .now, .setUnadjusted 150, .now, .setRate 2, .setUnadjusted 250, .now] = [50, 100, 75, 275] := by
  decide +kernel

variable {c c' : Clock} {ops pre post : List ClockOp}

namespace Clock

/-- One call of `now`. -/
theorem now_spec (h : 0 ≤ c.exact ∧ c.exact ≤ durationMax) : c.now = c.exact ∧
    c.step .now = ⟨⟨⟨some c.nowUnadjusted⟩, c.exact, c.nowUnadjusted, c.inner.rate⟩, c.monotonic⟩ := by
  obtain ⟨hzero, hmax⟩ := h
  have hvalue : c.inner.now c.monotonic =
      (c.exact, ⟨⟨some c.nowUnadjusted⟩, c.exact, c.nowUnadjusted, c.inner.rate⟩) := by
    unfold AdjustableClock.now
    have htime : c.inner.inner.now c.monotonic = (c.nowUnadjusted, ⟨some c.nowUnadjusted⟩) := rfl
    rw [htime]
    dsimp only
    split
    · rename_i hsame
      have hexact : c.exact = c.inner.currentTime := by
        rw [exact, hsame]
        ring
      rw [hexact, ← hsame]
    · split
      · have hsum : saturatingAdd c.inner.currentTime
            ((c.nowUnadjusted - c.inner.lastSeenTime) * c.inner.rate) = c.exact := min_eq_left hmax
        rw [hsum]
      · have hdiff : c.inner.currentTime - (c.inner.lastSeenTime - c.nowUnadjusted) * c.inner.rate =
            c.exact := by
          unfold exact
          ring
        rw [saturatingSub, hdiff, max_eq_left hzero]
  refine ⟨congrArg Prod.fst hvalue, ?_⟩
  rw [step, hvalue]

/-! The time is the sum over what was read. -/

/-- What has been added to the time so far. -/
theorem currentTime_run (h : c.Exact ops) : (c.run ops).inner.currentTime =
    c.inner.currentTime + elapsed c.inner.lastSeenTime (c.readings ops) := by
  induction ops generalizing c with
  | nil => exact (add_zero _).symm
  | cons op ops ih =>
    cases op with
    | setUnadjusted time => exact ih h
    | clear later => exact ih h
    | setRate rate => exact ih h
    | now =>
      obtain ⟨hfits, hrest⟩ := h
      obtain ⟨-, hstep⟩ := now_spec hfits
      have hrun := ih hrest
      rw [hstep] at hrun
      have htotal : (c.run (.now :: ops)).inner.currentTime =
          c.exact + elapsed c.nowUnadjusted (readings (c.step .now) ops) := by
        rw [hstep]
        exact (congrArg (fun d : Clock => (d.run ops).inner.currentTime) hstep).trans hrun
      rw [htotal, readings, elapsed, exact]
      ring

theorem exact_append : c.Exact (pre ++ post) ↔ c.Exact pre ∧ (c.run pre).Exact post := by
  induction pre generalizing c with
  | nil => exact (true_and _).symm ▸ Iff.rfl
  | cons op pre ih =>
    cases op with
    | setUnadjusted time => exact ih
    | clear later => exact ih
    | setRate rate => exact ih
    | now => exact (and_congr_right fun _ => ih).trans and_assoc.symm

/-- A call of `now` after some operations. -/
theorem now_run (h : c.Exact (ops ++ [.now])) : (c.run ops).now =
    c.inner.currentTime + elapsed c.inner.lastSeenTime (c.readings (ops ++ [.now])) := by
  have hfits : 0 ≤ (c.run ops).exact ∧ (c.run ops).exact ≤ durationMax := (exact_append.mp h).2.1
  obtain ⟨hnow, hstep⟩ := now_spec hfits
  have hlast : (c.run (ops ++ [.now])).inner.currentTime = (c.run ops).now := by
    rw [run, List.foldl_append]
    exact (congrArg (fun d : Clock => d.inner.currentTime) hstep).trans hnow.symm
  rw [← hlast, currentTime_run h]

/-! A call more. -/

/-- Two clocks that read the same time at the same rate. -/
structure Like (c c' : Clock) : Prop where
  monotonic : c'.monotonic = c.monotonic
  time : c'.nowUnadjusted = c.nowUnadjusted
  rate : c'.inner.rate = c.inner.rate

/-- What two clocks differ by is seen at the next call, and only there. -/
theorem values_eq_iff (hlike : Like c c') (h : c.Exact post) (h' : c'.Exact post) :
    c'.values post = c.values post ↔ ∀ rate, rateAtNow c.inner.rate post = some rate →
      c'.inner.currentTime - c'.inner.lastSeenTime * rate =
        c.inner.currentTime - c.inner.lastSeenTime * rate := by
  induction post generalizing c c' with
  | nil => exact ⟨fun _ _ hno => (nomatch hno), fun _ => rfl⟩
  | cons op post ih =>
    cases op with
    | setUnadjusted time => exact ih ⟨hlike.monotonic, rfl, hlike.rate⟩ h h'
    | clear later => exact ih ⟨rfl, rfl, hlike.rate⟩ h h'
    | setRate rate => exact ih ⟨hlike.monotonic, hlike.time, rfl⟩ h h'
    | now =>
      obtain ⟨hfits, -⟩ := h
      obtain ⟨hfits', -⟩ := h'
      obtain ⟨hnow, hstep⟩ := now_spec hfits
      obtain ⟨hnow', hstep'⟩ := now_spec hfits'
      have hexact : c'.exact = c.exact ↔ c'.inner.currentTime - c'.inner.lastSeenTime * c.inner.rate =
          c.inner.currentTime - c.inner.lastSeenTime * c.inner.rate := by
        unfold exact
        rw [hlike.time, hlike.rate]
        constructor
        · intro heq
          linear_combination heq
        · intro heq
          linear_combination heq
      constructor
      · intro hvalues rate hrate
        obtain rfl := Option.some.inj hrate
        have hhead : c'.now = c.now := (List.cons.inj hvalues).1
        rw [hnow, hnow'] at hhead
        exact hexact.mp hhead
      · intro hsame
        have heq := hexact.mpr (hsame _ rfl)
        have hsteps : c'.step .now = c.step .now := by
          rw [hstep, hstep', heq, hlike.time, hlike.rate, hlike.monotonic]
        rw [values, values, hnow, hnow', heq, hsteps]

/-- The time advances by what was read, at the rates at which it was read. A call more changes what
is read later exactly if it reads a time that was not read yet, and the rate is another one when the
time is read next. -/
theorem now_advances {time : ℚ} (h : (withTime time).Exact (pre ++ post))
    (h' : (withTime time).Exact (pre ++ .now :: post)) :
    ((withTime time).run pre).now =
      time + elapsed time ((withTime time).readings (pre ++ [.now])) ∧
    (((withTime time).run (pre ++ [.now])).values post = ((withTime time).run pre).values post ↔
      ((withTime time).run pre).inner.lastSeenTime = ((withTime time).run pre).nowUnadjusted ∨
      ∀ rate, rateAtNow ((withTime time).run pre).inner.rate post = some rate →
        rate = ((withTime time).run pre).inner.rate) := by
  obtain ⟨-, hpost⟩ := exact_append.mp h
  obtain ⟨hpre, hfits, hpost'⟩ := exact_append.mp h'
  refine ⟨now_run (exact_append.mpr ⟨hpre, hfits, trivial⟩), ?_⟩
  have hlast : (withTime time).run (pre ++ [.now]) = ((withTime time).run pre).step .now := by
    rw [run, List.foldl_append]
    rfl
  rw [hlast]
  generalize (withTime time).run pre = d at hpost hfits hpost'
  obtain ⟨-, hstep⟩ := now_spec hfits
  have hlike : Like d (d.step .now) := by
    rw [hstep]
    exact ⟨rfl, rfl, rfl⟩
  rw [values_eq_iff hlike hpost hpost', hstep]
  -- What was not read yet counts at the rate of the call, or at the next one.
  have hdiff (rate : ℚ) : d.exact - d.nowUnadjusted * rate =
      d.inner.currentTime - d.inner.lastSeenTime * rate ↔
      d.inner.lastSeenTime = d.nowUnadjusted ∨ rate = d.inner.rate := by
    have hfactor : (d.exact - d.nowUnadjusted * rate) -
        (d.inner.currentTime - d.inner.lastSeenTime * rate) =
        (d.inner.lastSeenTime - d.nowUnadjusted) * (rate - d.inner.rate) := by
      unfold exact
      ring
    rw [← sub_eq_zero, hfactor, mul_eq_zero, sub_eq_zero, sub_eq_zero]
  constructor
  · intro hall
    by_cases hread : d.inner.lastSeenTime = d.nowUnadjusted
    · exact .inl hread
    · exact .inr fun rate hrate => ((hdiff rate).mp (hall rate hrate)).resolve_left hread
  · rintro hcond rate hrate
    exact (hdiff rate).mpr (hcond.imp_right fun hrates => hrates rate hrate)

theorem now_advances_at_150 : ((withTime 0).run [.setRate (1 / 2), .setUnadjusted 150]).now =
    0 + elapsed 0 ((withTime 0).readings [.setRate (1 / 2), .setUnadjusted 150, .now]) :=
  have hunread : (withTime 0).Exact ([.setRate (1 / 2), .setUnadjusted 150] ++ [.setRate 2, .now]) :=
    ⟨by decide +kernel, trivial⟩
  (now_advances hunread ⟨by decide +kernel, by decide +kernel, trivial⟩).1

/-- The rate changes before the time is read: what has already passed counts twice. -/
theorem setRate_rescales_unread : ∃ pre post : List ClockOp, (withTime 0).Exact (pre ++ post) ∧
    (withTime 0).Exact (pre ++ .now :: post) ∧
    ((withTime 0).run (pre ++ [.now])).values post = [100] ∧
    ((withTime 0).run pre).values post = [200] :=
  ⟨[.setUnadjusted 100], [.setRate 2, .now], ⟨by decide +kernel, trivial⟩,
    ⟨by decide +kernel, by decide +kernel, trivial⟩, by decide +kernel, by decide +kernel⟩

end Clock

end Macniri.Animation
