import Mathlib.Data.Int.Log
import Mathlib.Algebra.Order.Field.Basic
import Mathlib.Tactic.Linarith
import Mathlib.Tactic.Positivity
import Mathlib.Tactic.Ring
import Mathlib.Tactic.FieldSimp

/-!
# Rounding to floating-point numbers

The numbers with `p` digits to the base `b` and a least exponent `emin`. The distance between two
neighbours is a power of `b`, `lastPlace`, that grows with them. A number that is close enough to
one with `p` digits is rounded to it, also where the distance changes (`exists_multiple`). So a
number survives being printed with digits to another base and read back, if the other base gives
more precision.
-/

namespace Rounding

variable {K : Type*} [Field K] [LinearOrder K] [IsStrictOrderedRing K] [FloorSemiring K]

/-- The exponent of the last place of the numbers with `p` digits around `y`. -/
def lastPlace (b p : ℕ) (emin : ℤ) (y : K) : ℤ := max (Int.log b y - ((p : ℤ) - 1)) emin

/-- A positive number with `p` digits to the base `b`, and the place of the last. -/
structure HasDigits (b p : ℕ) (emin : ℤ) (x : K) (m : ℕ) (a : ℤ) : Prop where
  eq : x = m * (b : K) ^ a
  pos : 0 < m
  lt : m < b ^ p
  le : emin ≤ a

section Digits

variable {b p : ℕ} {emin a : ℤ} {m : ℕ} {x y : K}

theorem zpow_base_pos (hb : 1 < b) (a : ℤ) : (0 : K) < (b : K) ^ a :=
  zpow_pos (Nat.cast_pos.mpr (Nat.zero_lt_of_lt hb)) a

/-- The last place is no further from a number than its precision. -/
theorem lt_lastPlace (hb : 1 < b) (p : ℕ) (emin : ℤ) (y : K) :
    y < (b : K) ^ p * (b : K) ^ lastPlace b p emin y := by
  have hb0 : (b : K) ≠ 0 := Nat.cast_ne_zero.mpr (Nat.zero_lt_of_lt hb).ne'
  have hb1 : (1 : K) ≤ b := Nat.one_le_cast.mpr hb.le
  calc y < (b : K) ^ (Int.log b y + 1) := Int.lt_zpow_succ_log_self hb y
    _ ≤ (b : K) ^ ((p : ℤ) + lastPlace b p emin y) := by
      refine zpow_le_zpow_right₀ hb1 ?_
      have := le_max_left (Int.log b y - ((p : ℤ) - 1)) emin
      unfold lastPlace
      omega
    _ = (b : K) ^ p * (b : K) ^ lastPlace b p emin y := by
      rw [zpow_add₀ hb0, zpow_natCast]

/-- **A number close to one with `p` digits has its last place no further to the left.** -/
theorem lastPlace_le (hb : 1 < b) (h : HasDigits b p emin x m a) (hy : 0 < y)
    (hclose : 2 * |y - x| * (b : K) ^ p ≤ x) : lastPlace b p emin y ≤ a := by
  have hb0 : (b : K) ≠ 0 := Nat.cast_ne_zero.mpr (Nat.zero_lt_of_lt hb).ne'
  have hb1 : (1 : K) ≤ b := Nat.one_le_cast.mpr hb.le
  have hu := zpow_base_pos (K := K) hb a
  refine max_le ?_ h.le
  by_contra hlog
  -- otherwise a power of the base lies between the two numbers
  have hpower : (b : K) ^ p * (b : K) ^ a ≤ y := by
    refine le_trans ?_ (Int.zpow_log_le_self hb hy)
    rw [← zpow_natCast, ← zpow_add₀ hb0]
    exact zpow_le_zpow_right₀ hb1 (by omega)
  have hm : (m : K) + 1 ≤ (b : K) ^ p := by exact_mod_cast h.lt
  have hbelow : x + (b : K) ^ a ≤ (b : K) ^ p * (b : K) ^ a := by
    calc x + (b : K) ^ a = ((m : K) + 1) * (b : K) ^ a := by rw [h.eq]; ring
      _ ≤ (b : K) ^ p * (b : K) ^ a := mul_le_mul_of_nonneg_right hm hu.le
  have hfar : (b : K) ^ a ≤ |y - x| := le_trans (by linarith) (le_abs_self (y - x))
  have hbp : (0 : K) < (b : K) ^ p := pow_pos (Nat.cast_pos.mpr (Nat.zero_lt_of_lt hb)) p
  have hlarge : 2 * ((b : K) ^ p * (b : K) ^ a) ≤ x := by
    calc 2 * ((b : K) ^ p * (b : K) ^ a) = 2 * (b : K) ^ a * (b : K) ^ p := by ring
      _ ≤ 2 * |y - x| * (b : K) ^ p := by
        exact mul_le_mul_of_nonneg_right (mul_le_mul_of_nonneg_left hfar (by norm_num)) hbp.le
      _ ≤ x := hclose
  have hpos : 0 < (b : K) ^ p * (b : K) ^ a := mul_pos hbp hu
  linarith

/-- **A number close to one with `p` digits is nearer to it than to its neighbours**, on the grid
of its own last place. -/
theorem exists_multiple (hb : 1 < b) (h : HasDigits b p emin x m a) (hy : 0 < y)
    (hx : 2 * |y - x| * (b : K) ^ p ≤ x) (hy' : 2 * |y - x| * (b : K) ^ p ≤ y) :
    ∃ k : ℕ, x = k * (b : K) ^ lastPlace b p emin y ∧
      |y / (b : K) ^ lastPlace b p emin y - k| < 1 / 2 := by
  have hb0 : (b : K) ≠ 0 := Nat.cast_ne_zero.mpr (Nat.zero_lt_of_lt hb).ne'
  have hu := zpow_base_pos (K := K) hb (lastPlace b p emin y)
  have hbp : (0 : K) < (b : K) ^ p := pow_pos (Nat.cast_pos.mpr (Nat.zero_lt_of_lt hb)) p
  obtain ⟨n, hn⟩ := Int.eq_ofNat_of_zero_le (sub_nonneg.mpr (lastPlace_le hb h hy hx))
  have hmultiple : x = ((m * b ^ n : ℕ) : K) * (b : K) ^ lastPlace b p emin y := by
    rw [Nat.cast_mul, Nat.cast_pow, mul_assoc, ← zpow_natCast, ← zpow_add₀ hb0, h.eq]
    congr 2
    omega
  refine ⟨m * b ^ n, hmultiple, ?_⟩
  have hhalf : 2 * |y - x| < (b : K) ^ lastPlace b p emin y := by
    have h1 := hy'.trans_lt (lt_lastPlace hb p emin y)
    exact lt_of_mul_lt_mul_right (h1.trans_eq (mul_comm _ _)) hbp.le
  have hquotient : y / (b : K) ^ lastPlace b p emin y - ((m * b ^ n : ℕ) : K) =
      (y - x) / (b : K) ^ lastPlace b p emin y := by
    rw [sub_div]
    congr 1
    rw [eq_div_iff hu.ne', ← hmultiple]
  rw [hquotient, abs_div, abs_of_pos hu, div_lt_iff₀ hu]
  linarith

end Digits

/-- Two integers that are both nearest to a number, one strictly, are the same. -/
theorem eq_of_nearest {m k : ℕ} {z : K} (hm : |(m : K) - z| ≤ 1 / 2) (hk : |z - k| < 1 / 2) :
    m = k := by
  have h1 : |(m : K) - k| < 1 := by
    calc |(m : K) - k| = |((m : K) - z) + (z - k)| := by ring_nf
      _ ≤ |(m : K) - z| + |z - k| := abs_add_le _ _
      _ < 1 := by linarith
  have h2 : |((m : ℤ) - k : ℤ)| < 1 := by exact_mod_cast h1
  have h3 := Int.abs_lt_one_iff.mp h2
  omega

end Rounding
