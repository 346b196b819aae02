import Macniri.Layout.Basic
import Macniri.Lib.Truncate
import Mathlib.Tactic.LinearCombination
import Mathlib.Tactic.NormNum

/-! The tracker that makes ticks of scroll amounts. -/
namespace Macniri.Input

/-- `x as i16`. -/
def toI16 (x : ℚ) : ℤ := max (-32768) (min 32767 (truncate x))

/-- `x as i8`. -/
def toI8 (x : ℤ) : ℤ := x.bmod 256

structure ScrollTracker where
  tick : ℚ
  last : ℚ
  acc : ℚ
  deriving DecidableEq

namespace ScrollTracker

def new (tick : ℤ) : ScrollTracker := ⟨tick, 0, 0⟩

def changedDirection (t : ScrollTracker) (amount : ℚ) : Bool :=
  (0 < t.last && amount < 0) || (t.last < 0 && 0 < amount)

/-- What is accumulated with an amount, before the ticks are taken out. -/
def pending (t : ScrollTracker) (amount : ℚ) : ℚ :=
  (if t.changedDirection amount then 0 else t.acc) + amount

def ticksOf (tick acc : ℚ) : ℤ :=
  toI8 ((toI16 (Layout.clamp acc (-127 * tick) (127 * tick))).tdiv (toI16 tick))

def accumulate (t : ScrollTracker) (amount : ℚ) : ℤ × ScrollTracker :=
  let acc := t.pending amount
  if t.tick ≤ |acc| then (ticksOf t.tick acc, { t with last := amount, acc := truncRem acc t.tick })
  else (0, { t with last := amount, acc })

def reset (t : ScrollTracker) : ScrollTracker := { t with last := 0, acc := 0 }

end ScrollTracker

/-- A tracker since its reset, and the amounts since the last reversal. -/
structure Scroll where
  tracker : ScrollTracker
  /-- The last amount that is not zero. -/
  heading : ℚ
  amounts : ℚ
  ticks : ℤ
  /-- No call since the reversal exceeded 127 ticks. -/
  within : Bool

namespace Scroll

def start (tick : ℤ) : Scroll := ⟨(ScrollTracker.new tick).reset, 0, 0, 0, true⟩

/-- The amount goes in the other direction than the last one that is not zero. -/
def reverses (s : Scroll) (amount : ℚ) : Bool := s.heading * amount < 0

/-- The call does not exceed 127 ticks. -/
def fits (s : Scroll) (amount : ℚ) : Bool := |s.tracker.pending amount| < 128 * s.tracker.tick

def feed (s : Scroll) (amount : ℚ) : Scroll where
  tracker := (s.tracker.accumulate amount).2
  heading := if amount = 0 then s.heading else amount
  amounts := (if s.reverses amount then 0 else s.amounts) + amount
  ticks := (if s.reverses amount then 0 else s.ticks) + (s.tracker.accumulate amount).1
  within := (s.reverses amount || s.within) && s.fits amount

/-- What a call keeps. -/
structure Lawful (s : Scroll) (amount : ℚ) : Prop where
  bounded : amount ≠ 0 → |(s.feed amount).tracker.acc| < s.tracker.tick
  acc : 0 ≤ (s.feed amount).tracker.acc * amount
  ticks : 0 ≤ (s.tracker.accumulate amount).1 * amount
  conserved : (s.feed amount).within = true →
    (s.feed amount).ticks * s.tracker.tick + (s.feed amount).tracker.acc = (s.feed amount).amounts

/-- The amount reverses the direction after a zero while something is accumulated. -/
def stale (s : Scroll) (amount : ℚ) : Bool :=
  s.reverses amount && s.tracker.last == 0 && s.tracker.acc != 0 && s.fits amount

/-- A property of every call. -/
def Along (p : Scroll → ℚ → Prop) : Scroll → List ℚ → Prop
  | _, [] => True
  | s, amount :: amounts => p s amount ∧ Along p (s.feed amount) amounts

end Scroll

/-! Taking out ticks. -/

namespace ScrollTracker

variable {n : ℤ} {acc : ℚ} {t : ScrollTracker}

theorem truncate_clamp (x : ℚ) :
    truncate (Layout.clamp x (-127) 127) = max (-127) (min 127 (truncate x)) := by
  have hlo : truncate (-127 : ℚ) = -127 := by simpa using truncate_intCast (-127 : ℤ)
  have hhi : truncate (127 : ℚ) = 127 := by simpa using truncate_intCast (127 : ℤ)
  unfold Layout.clamp
  split
  · rename_i hlt
    have hle : truncate x ≤ -127 := truncate_le (by push_cast; exact hlt.le)
    rw [hlo]
    omega
  · rename_i hge
    have hle : -127 ≤ truncate x := le_truncate (by push_cast; exact le_of_not_gt hge)
    split
    · rename_i hgt
      have hbig : 127 ≤ truncate x := le_truncate (by push_cast; exact hgt.le)
      rw [hhi]
      omega
    · rename_i hle'
      have hsmall : truncate x ≤ 127 := truncate_le (by push_cast; exact le_of_not_gt hle')
      omega

theorem clamp_div (acc : ℚ) (hn : 0 < n) : Layout.clamp acc (-127 * n) (127 * n) / n =
    Layout.clamp (acc / n) (-127) 127 := by
  have hpos : (0 : ℚ) < n := Int.cast_pos.mpr hn
  have hlo : acc / n < -127 ↔ acc < -127 * n := div_lt_iff₀ hpos
  have hhi : 127 < acc / n ↔ 127 * n < acc := lt_div_iff₀ hpos
  unfold Layout.clamp
  simp only [hlo, hhi]
  split
  · rw [mul_div_cancel_right₀ _ hpos.ne']
  · split
    · rw [mul_div_cancel_right₀ _ hpos.ne']
    · rfl

/-- The ticks are the whole ones, at most 127. -/
theorem ticksOf_eq (acc : ℚ) (hn : 1 ≤ n) (hmax : n ≤ 127) :
    ticksOf n acc = max (-127) (min 127 (truncate (acc / n))) := by
  have hpos : (0 : ℚ) < n := Int.cast_pos.mpr (by omega)
  have hlo : (-127 : ℚ) * n ≤ 127 * n := by linarith
  have hclamp : -127 * n ≤ Layout.clamp acc (-127 * n) (127 * n) ∧
      Layout.clamp acc (-127 * n) (127 * n) ≤ 127 * n := by
    unfold Layout.clamp
    split
    · exact ⟨le_rfl, hlo⟩
    · split
      · exact ⟨hlo, le_rfl⟩
      · exact ⟨le_of_not_gt ‹_›, le_of_not_gt ‹_›⟩
  have hbelow : -127 * n ≤ truncate (Layout.clamp acc (-127 * n) (127 * n)) :=
    le_truncate (by push_cast; exact hclamp.1)
  have habove : truncate (Layout.clamp acc (-127 * n) (127 * n)) ≤ 127 * n :=
    truncate_le (by push_cast; exact hclamp.2)
  have hwhole : toI16 (Layout.clamp acc (-127 * n) (127 * n)) =
      truncate (Layout.clamp acc (-127 * n) (127 * n)) := by
    unfold toI16
    omega
  have htick : toI16 n = n := by
    unfold toI16
    rw [truncate_intCast]
    omega
  rw [ticksOf, hwhole, htick, truncate_div _ (by omega), clamp_div acc (by omega), truncate_clamp]
  exact Int.bmod_eq_of_le (by omega) (by omega)

/-- What comes out of an accumulated amount. -/
structure Emits (tick acc : ℚ) (ticks : ℤ) (rest : ℚ) : Prop where
  bounded : |rest| < tick
  restSign : 0 ≤ rest * acc
  ticksSign : 0 ≤ ticks * acc
  conserved : |acc| < 128 * tick → ticks * tick + rest = acc
  zero : acc = 0 → rest = 0 ∧ ticks = 0

theorem emits_ticksOf (acc : ℚ) (hn : 1 ≤ n) (hmax : n ≤ 127) :
    Emits n acc (ticksOf n acc) (truncRem acc n) := by
  have hpos : (0 : ℚ) < n := Int.cast_pos.mpr (by omega)
  refine ⟨abs_truncRem_lt acc hpos, truncRem_mul_nonneg acc hpos, ?_, fun hfits => ?_, ?_⟩
  · rw [ticksOf_eq acc hn hmax]
    rcases le_total 0 acc with h | h
    · have hquot := truncate_nonneg (div_nonneg h hpos.le)
      exact mul_nonneg (Int.cast_nonneg (by omega)) h
    · have hquot := truncate_nonpos (div_nonpos_of_nonpos_of_nonneg h hpos.le)
      exact mul_nonneg_of_nonpos_of_nonpos (Int.cast_nonpos.mpr (by omega)) h
  · have hlt : |acc / n| < 128 := by
      rw [abs_div, abs_of_pos hpos]
      exact (div_lt_iff₀ hpos).mpr hfits
    have hquot : |truncate (acc / n)| < 128 := by
      exact_mod_cast (abs_truncate_le (acc / n)).trans_lt hlt
    obtain ⟨hlo, hhi⟩ := abs_lt.mp hquot
    rw [ticksOf_eq acc hn hmax, min_eq_right (by omega), max_eq_right (by omega)]
    exact mul_truncate_add_truncRem acc n
  · rintro rfl
    have hzero : truncate (0 : ℚ) = 0 := by simpa using truncate_intCast (0 : ℤ)
    rw [ticksOf_eq 0 hn hmax, truncRem, zero_div, hzero]
    simp

/-- A call, whether ticks are taken out or not. -/
theorem emits_accumulate {t : ScrollTracker} (htick : t.tick = n) (hn : 1 ≤ n) (hmax : n ≤ 127)
    (amount : ℚ) : Emits n (t.pending amount) (t.accumulate amount).1 (t.accumulate amount).2.acc := by
  unfold accumulate
  dsimp only
  rw [htick]
  split
  · exact emits_ticksOf _ hn hmax
  · rename_i hless
    refine ⟨not_le.mp hless, mul_self_nonneg _, ?_, fun _ => ?_, fun hzero => ⟨hzero, rfl⟩⟩
    · rw [Int.cast_zero, zero_mul]
    · rw [Int.cast_zero, zero_mul, zero_add]

theorem tick_accumulate (t : ScrollTracker) (amount : ℚ) : (t.accumulate amount).2.tick = t.tick := by
  unfold accumulate
  dsimp only
  split <;> rfl

theorem last_accumulate (t : ScrollTracker) (amount : ℚ) : (t.accumulate amount).2.last = amount := by
  unfold accumulate
  dsimp only
  split <;> rfl

end ScrollTracker

/-! Since the reset. -/

namespace Scroll

variable {n : ℤ} {s : Scroll} {amount : ℚ} {amounts : List ℚ}

/-- What holds between calls. -/
structure Inv (n : ℤ) (s : Scroll) : Prop where
  tick : s.tracker.tick = n
  bounded : |s.tracker.acc| < n
  acc : 0 ≤ s.tracker.acc * s.heading
  heading : s.heading = 0 → s.tracker.acc = 0
  last : s.tracker.last = 0 ∨ s.tracker.last = s.heading
  conserved : s.within = true → s.ticks * n + s.tracker.acc = s.amounts

theorem inv_start (hn : 1 ≤ n) : Inv n (start n) := by
  refine ⟨rfl, ?_, (mul_zero 0).ge, fun _ => rfl, .inl rfl, fun _ => ?_⟩
  · have hpos : (0 : ℚ) < n := Int.cast_pos.mpr (by omega)
    exact abs_zero.trans_lt hpos
  · change ((0 : ℤ) : ℚ) * n + 0 = 0
    simp

theorem changedDirection_iff (t : ScrollTracker) (amount : ℚ) :
    t.changedDirection amount = true ↔ t.last * amount < 0 := by
  unfold ScrollTracker.changedDirection
  rw [Bool.or_eq_true, Bool.and_eq_true, Bool.and_eq_true, decide_eq_true_iff, decide_eq_true_iff,
    decide_eq_true_iff, decide_eq_true_iff, mul_neg_iff]

/-- A reversal right after an amount that is not zero is noticed. -/
theorem pending_of_changed {t : ScrollTracker} (h : t.changedDirection amount = true) :
    t.pending amount = amount := by rw [ScrollTracker.pending, if_pos h, zero_add]

theorem pending_of_kept {t : ScrollTracker} (h : t.changedDirection amount ≠ true) :
    t.pending amount = t.acc + amount := by rw [ScrollTracker.pending, if_neg h]

theorem pending_zero (t : ScrollTracker) : t.pending 0 = t.acc := by
  rw [pending_of_kept fun hchanged => ?_, add_zero]
  have hneg := (changedDirection_iff _ _).mp hchanged
  rw [mul_zero] at hneg
  exact lt_irrefl 0 hneg

/-- What is pending starts anew with a reversal, or adds up. -/
theorem Inv.pending (h : Inv n s) (hfresh : s.stale amount = false) (hfits : s.fits amount = true) :
    s.tracker.pending amount = (if s.reverses amount then 0 else s.tracker.acc) + amount := by
  cases hreverses : s.reverses amount with
  | true =>
    rw [if_pos rfl, zero_add]
    have hneg : s.heading * amount < 0 := of_decide_eq_true hreverses
    rcases h.last with hzero | hsame
    · have hacc : s.tracker.acc = 0 := by
        by_contra hne
        unfold stale at hfresh
        rw [hreverses, hfits, hzero, Bool.true_and, beq_self_eq_true, Bool.true_and, Bool.and_true] at hfresh
        exact hne (by simpa using hfresh)
      rw [pending_of_kept fun hchanged => ?_, hacc, zero_add]
      have hneg' := (changedDirection_iff _ _).mp hchanged
      rw [hzero, zero_mul] at hneg'
      exact lt_irrefl 0 hneg'
    · exact pending_of_changed ((changedDirection_iff _ _).mpr (hsame ▸ hneg))
  | false =>
    rw [if_neg Bool.false_ne_true]
    refine pending_of_kept fun hchanged => ?_
    have hneg := (changedDirection_iff _ _).mp hchanged
    rcases h.last with hzero | hsame
    · rw [hzero, zero_mul] at hneg
      exact lt_irrefl 0 hneg
    · rw [hsame] at hneg
      exact of_decide_eq_false hreverses hneg

/-- What is pending has the direction of the amount. -/
theorem Inv.pending_mul (h : Inv n s) (hn : 1 ≤ n) (hfresh : s.stale amount = false) :
    0 ≤ s.tracker.pending amount * amount := by
  by_cases hfits : s.fits amount = true
  · rw [h.pending hfresh hfits]
    cases hreverses : s.reverses amount with
    | true =>
      rw [if_pos rfl, zero_add]
      exact mul_self_nonneg amount
    | false =>
      rw [if_neg Bool.false_ne_true, add_mul]
      have hdir : 0 ≤ s.heading * amount := not_lt.mp (of_decide_eq_false hreverses)
      refine add_nonneg ?_ (mul_self_nonneg amount)
      by_cases hzero : s.heading = 0
      · rw [h.heading hzero, zero_mul]
      · have hprod := mul_nonneg h.acc hdir
        have hsq : 0 < s.heading * s.heading := mul_self_pos.mpr hzero
        have heq : s.tracker.acc * s.heading * (s.heading * amount) =
            s.tracker.acc * amount * (s.heading * s.heading) := by ring
        rw [heq] at hprod
        exact nonneg_of_mul_nonneg_left hprod hsq
  · -- The amount alone is more than what was accumulated.
    have hlarge : 128 * (n : ℚ) ≤ |s.tracker.pending amount| := by
      rw [← h.tick]
      exact not_lt.mp fun hlt => hfits (decide_eq_true hlt)
    by_cases hchanged : s.tracker.changedDirection amount = true
    · rw [pending_of_changed hchanged]
      exact mul_self_nonneg amount
    · rw [pending_of_kept hchanged] at hlarge ⊢
      have hpos : (1 : ℚ) ≤ n := by exact_mod_cast hn
      have hacc := abs_lt.mp h.bounded
      rcases le_total 0 amount with hx | hx
      · refine mul_nonneg ?_ hx
        by_contra hneg
        rw [abs_of_neg (not_le.mp hneg)] at hlarge
        linarith
      · refine mul_nonneg_of_nonpos_of_nonpos ?_ hx
        by_contra hneg
        rw [abs_of_pos (not_le.mp hneg)] at hlarge
        linarith

/-- Signs are passed on. -/
theorem mul_nonneg_trans {a b c : ℚ} (hab : 0 ≤ a * b) (hbc : 0 ≤ b * c) (hb : b ≠ 0) : 0 ≤ a * c := by
  have hprod := mul_nonneg hab hbc
  have heq : a * b * (b * c) = a * c * (b * b) := by ring
  rw [heq] at hprod
  exact nonneg_of_mul_nonneg_left hprod (mul_self_pos.mpr hb)

/-- A call that is not stale keeps what it should. -/
theorem Inv.lawful (h : Inv n s) (hn : 1 ≤ n) (hmax : n ≤ 127) (hfresh : s.stale amount = false) :
    s.Lawful amount := by
  have hemits := ScrollTracker.emits_accumulate h.tick hn hmax amount
  have hdir := h.pending_mul hn hfresh
  refine ⟨fun _ => h.tick.symm ▸ hemits.bounded, ?_, ?_, fun hwithin => ?_⟩
  · by_cases hzero : s.tracker.pending amount = 0
    · have hrest : (s.feed amount).tracker.acc = 0 := (hemits.zero hzero).1
      rw [hrest, zero_mul]
    · exact mul_nonneg_trans hemits.restSign hdir hzero
  · by_cases hzero : s.tracker.pending amount = 0
    · rw [(hemits.zero hzero).2, Int.cast_zero, zero_mul]
    · exact mul_nonneg_trans hemits.ticksSign hdir hzero
  · obtain ⟨hrun, hfits⟩ := Bool.and_eq_true_iff.mp hwithin
    have hcall := hemits.conserved (h.tick ▸ of_decide_eq_true hfits)
    rw [h.pending hfresh hfits] at hcall
    rw [h.tick]
    change (((if s.reverses amount then 0 else s.ticks) + (s.tracker.accumulate amount).1 : ℤ) : ℚ) * n +
      (s.tracker.accumulate amount).2.acc = (if s.reverses amount then 0 else s.amounts) + amount
    cases hreverses : s.reverses amount with
    | true =>
      rw [hreverses, if_pos rfl, zero_add] at hcall
      rw [if_pos rfl, if_pos rfl, zero_add, zero_add, hcall]
    | false =>
      rw [hreverses, Bool.false_or] at hrun
      rw [hreverses, if_neg Bool.false_ne_true] at hcall
      rw [if_neg Bool.false_ne_true, if_neg Bool.false_ne_true, ← h.conserved hrun, Int.cast_add]
      linear_combination hcall

theorem Inv.feed (h : Inv n s) (hn : 1 ≤ n) (hmax : n ≤ 127) (hfresh : s.stale amount = false) :
    Inv n (s.feed amount) := by
  have hemits := ScrollTracker.emits_accumulate h.tick hn hmax amount
  have hlawful := h.lawful hn hmax hfresh
  refine ⟨(ScrollTracker.tick_accumulate _ _).trans h.tick, hemits.bounded, ?_, fun hzero => ?_, ?_, ?_⟩
  · by_cases hamount : amount = 0
    · have hheading : (s.feed amount).heading = s.heading := if_pos hamount
      rw [hheading]
      rw [hamount, pending_zero] at hemits
      by_cases hzero : s.tracker.acc = 0
      · have hrest : (s.feed amount).tracker.acc = 0 := hamount ▸ (hemits.zero hzero).1
        rw [hrest, zero_mul]
      · exact mul_nonneg_trans (hamount ▸ hemits.restSign) h.acc hzero
    · have hheading : (s.feed amount).heading = amount := if_neg hamount
      rw [hheading]
      exact hlawful.acc
  · have hheading : (if amount = 0 then s.heading else amount) = 0 := hzero
    split at hheading
    · rename_i hamount
      rw [hamount, pending_zero] at hemits
      exact hamount ▸ (hemits.zero (h.heading hheading)).1
    · exact absurd hheading ‹_›
  · have hlast : (s.feed amount).tracker.last = amount := ScrollTracker.last_accumulate _ _
    rw [hlast]
    by_cases hamount : amount = 0
    · exact .inl hamount
    · exact .inr (if_neg hamount).symm
  · exact h.tick ▸ hlawful.conserved

/-- A stale call does not conserve the amounts since the reversal. -/
theorem Inv.not_lawful (h : Inv n s) (hn : 1 ≤ n) (hmax : n ≤ 127) (hstale : s.stale amount = true) :
    ¬ s.Lawful amount := by
  intro hlawful
  obtain ⟨hstale, hfits⟩ := Bool.and_eq_true_iff.mp hstale
  obtain ⟨hstale, hacc⟩ := Bool.and_eq_true_iff.mp hstale
  obtain ⟨hreverses, hlast⟩ := Bool.and_eq_true_iff.mp hstale
  have hkept : ¬ s.tracker.changedDirection amount = true := fun hchanged => by
    have hneg := (changedDirection_iff _ _).mp hchanged
    rw [beq_iff_eq.mp hlast, zero_mul] at hneg
    exact lt_irrefl 0 hneg
  have hemits := ScrollTracker.emits_accumulate h.tick hn hmax amount
  have hcall := hemits.conserved (h.tick ▸ of_decide_eq_true hfits)
  rw [pending_of_kept hkept] at hcall
  have hwithin : (s.feed amount).within = true := by
    unfold Scroll.feed
    dsimp only
    rw [hreverses, Bool.true_or, hfits]
    rfl
  have hsum := hlawful.conserved hwithin
  rw [h.tick] at hsum
  unfold Scroll.feed at hsum
  dsimp only at hsum
  rw [hreverses, if_pos rfl, if_pos rfl, zero_add, zero_add, hcall] at hsum
  have hzero : s.tracker.acc = 0 := by linear_combination hsum
  rw [hzero] at hacc
  simp at hacc

theorem along_lawful_iff (h : Inv n s) (hn : 1 ≤ n) (hmax : n ≤ 127) :
    Along Lawful s amounts ↔ Along (fun s amount => s.stale amount = false) s amounts := by
  induction amounts generalizing s with
  | nil => exact Iff.rfl
  | cons amount amounts ih =>
    constructor
    · rintro ⟨hlawful, hrest⟩
      have hfresh : s.stale amount = false :=
        Bool.eq_false_iff.mpr fun hstale => h.not_lawful hn hmax hstale hlawful
      exact ⟨hfresh, (ih (h.feed hn hmax hfresh)).mp hrest⟩
    · rintro ⟨hfresh, hrest⟩
      exact ⟨h.lawful hn hmax hfresh, (ih (h.feed hn hmax hfresh)).mpr hrest⟩

/-- The tracker conserves amounts and forgets on reversal, unless an amount reverses the direction
right after a zero while something is accumulated. -/
theorem accumulate_lawful_iff (hn : 1 ≤ n) (hmax : n ≤ 127) (amounts : List ℚ) :
    Along Lawful (start n) amounts ↔
      Along (fun s amount => s.stale amount = false) (start n) amounts :=
  along_lawful_iff (inv_start hn) hn hmax

theorem accumulate_lawful_wheel : Along Lawful (start 120) [60, -30, 150] :=
  (accumulate_lawful_iff (by decide) (by decide) _).mpr
    ⟨by decide +kernel, by decide +kernel, by decide +kernel, trivial⟩

/-- Half a notch down, a step to the side and a quarter of a notch up. -/
theorem accumulate_keeps_stale : ((start 120).feed 60 |>.feed 0 |>.feed (-30)).tracker.acc = 30 ∧
    ¬ Along Lawful (start 120) [60, 0, -30] := by
  have hacc : ((start 120).feed 60 |>.feed 0 |>.feed (-30)).tracker.acc = 30 := by decide +kernel
  refine ⟨hacc, fun ⟨_, _, hlawful, _⟩ => ?_⟩
  have hsign := hlawful.acc
  rw [hacc] at hsign
  revert hsign
  decide +kernel

end Scroll

end Macniri.Input
