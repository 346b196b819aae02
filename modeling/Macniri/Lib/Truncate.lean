import Mathlib.Algebra.Order.Floor.Ring
import Mathlib.Algebra.Order.Field.Basic
import Mathlib.Algebra.Order.Ring.Int
import Mathlib.Algebra.Order.Ring.Cast
import Mathlib.Tactic.FieldSimp
import Mathlib.Tactic.Linarith

/-! Rounding toward zero, and the remainder that it leaves. -/
namespace Macniri

universe u

variable {K : Type u} [Field K] [LinearOrder K] [FloorRing K] {x y : K} {z : ℤ}

def truncate (x : K) : ℤ := if 0 ≤ x then ⌊x⌋ else ⌈x⌉

/-- The remainder of the division that rounds toward zero. -/
def truncRem (x y : K) : K := x - y * truncate (x / y)

theorem truncate_of_nonneg (h : 0 ≤ x) : truncate x = ⌊x⌋ := if_pos h

theorem truncate_of_neg (h : x < 0) : truncate x = ⌈x⌉ := if_neg h.not_ge

theorem mul_truncate_add_truncRem (x y : K) : truncate (x / y) * y + truncRem x y = x := by
  rw [truncRem, mul_comm, add_sub_cancel]

theorem truncRem_eq_mul (x : K) (hy : 0 < y) : truncRem x y = (x / y - truncate (x / y)) * y := by
  rw [truncRem, sub_mul, div_mul_cancel₀ x hy.ne', mul_comm (truncate (x / y) : K)]

variable [IsStrictOrderedRing K]

theorem truncate_le (h : x ≤ z) : truncate x ≤ z := by
  unfold truncate
  split
  · exact Int.cast_le.mp ((Int.floor_le x).trans h)
  · exact Int.ceil_le.mpr h

theorem le_truncate (h : z ≤ x) : z ≤ truncate x := by
  unfold truncate
  split
  · exact Int.le_floor.mpr h
  · exact Int.cast_le.mp (h.trans (Int.le_ceil x))

theorem truncate_intCast (z : ℤ) : truncate (z : K) = z := le_antisymm (truncate_le le_rfl) (le_truncate le_rfl)

theorem truncate_nonneg (h : 0 ≤ x) : 0 ≤ truncate x := le_truncate (by simpa using h)

theorem truncate_nonpos (h : x ≤ 0) : truncate x ≤ 0 := truncate_le (by simpa using h)

theorem abs_truncate_le (x : K) : ((|truncate x| : ℤ) : K) ≤ |x| := by
  rw [Int.cast_abs]
  rcases le_or_gt 0 x with h | h
  · rw [abs_of_nonneg h, abs_of_nonneg (Int.cast_nonneg (truncate_nonneg h)), truncate_of_nonneg h]
    exact Int.floor_le x
  · rw [abs_of_neg h, abs_of_nonpos (Int.cast_nonpos.mpr (truncate_nonpos h.le)), truncate_of_neg h]
    exact neg_le_neg (Int.le_ceil x)

theorem abs_sub_truncate_lt (x : K) : |x - truncate x| < 1 := by
  rcases le_or_gt 0 x with h | h
  · rw [truncate_of_nonneg h, abs_lt]
    have hle := Int.floor_le x
    have hlt := Int.lt_floor_add_one x
    constructor <;> linarith
  · rw [truncate_of_neg h, abs_lt]
    have hle := Int.le_ceil x
    have hlt := Int.ceil_lt_add_one x
    constructor <;> linarith

/-- What is cut off has the sign of the number. -/
theorem sub_truncate_mul_nonneg (x : K) : 0 ≤ (x - truncate x) * x := by
  rcases le_or_gt 0 x with h | h
  · rw [truncate_of_nonneg h]
    exact mul_nonneg (sub_nonneg.mpr (Int.floor_le x)) h
  · rw [truncate_of_neg h]
    exact mul_nonneg_of_nonpos_of_nonpos (sub_nonpos.mpr (Int.le_ceil x)) h.le

theorem truncate_div (x : K) {n : ℤ} (hn : 0 < n) : (truncate x).tdiv n = truncate (x / n) := by
  have hpos : (0 : K) < n := Int.cast_pos.mpr hn
  rcases le_or_gt 0 x with h | h
  · rw [truncate_of_nonneg h, truncate_of_nonneg (div_nonneg h hpos.le),
      Int.tdiv_eq_ediv_of_nonneg (Int.floor_nonneg.mpr h), Int.floor_div_cast_of_nonneg hn.le]
  · have hfloor : ⌊-x / n⌋ = ⌊-x⌋ / n := Int.floor_div_cast_of_nonneg hn.le (-x)
    have hceil (a : K) : ⌈a⌉ = -⌊-a⌋ := by rw [Int.floor_neg, neg_neg]
    have hnonneg : 0 ≤ ⌊-x⌋ := Int.floor_nonneg.mpr (neg_nonneg.mpr h.le)
    rw [truncate_of_neg h, truncate_of_neg (div_neg_of_neg_of_pos h hpos), hceil x, hceil (x / n),
      Int.neg_tdiv, Int.tdiv_eq_ediv_of_nonneg hnonneg, ← hfloor, neg_div]

theorem abs_truncRem_lt (x : K) (hy : 0 < y) : |truncRem x y| < y := by
  rw [truncRem_eq_mul x hy, abs_mul, abs_of_pos hy]
  exact mul_lt_of_lt_one_left hy (abs_sub_truncate_lt (x / y))

/-- The remainder has the sign of the dividend. -/
theorem truncRem_mul_nonneg (x : K) (hy : 0 < y) : 0 ≤ truncRem x y * x := by
  have hsign := sub_truncate_mul_nonneg (x / y)
  have hprod : truncRem x y * x = (x / y - truncate (x / y)) * (x / y) * (y * y) := by
    rw [truncRem_eq_mul x hy]
    field_simp
  rw [hprod]
  exact mul_nonneg hsign (mul_self_nonneg y)

end Macniri
