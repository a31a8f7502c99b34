import Mathlib.Algebra.Order.Ring.Rat
import Mathlib.Data.Int.Cast.Lemmas
import Mathlib.Data.Nat.Log
import Mathlib.Tactic.Linarith
import Mathlib.Tactic.NormNum
import Mathlib.Tactic.Ring

/-!
# Floats of single precision

A `SingleFloat` is a finite number with 24 significant bits; the range of its exponent is not bounded.
`ofInt` is the conversion from an integer: the nearest multiple of the unit in the last place, ties to even. It
is exact on every integer that is a float (`ofInt_of_isFloat`).
-/

namespace RZEmulator.Lib

/-- The numbers with 24 significant bits. -/
def IsFloat (x : ℚ) : Prop := ∃ (m : Int) (k : Nat), m.natAbs < 2 ^ 24 ∧ (x * 2 ^ k = m ∨ x = m * 2 ^ k)

abbrev SingleFloat := {x : ℚ // IsFloat x}

namespace SingleFloat

/-- The unit in the last place of an integer, if that is more than one. -/
def ulp (n : Int) : Int := 2 ^ (n.natAbs.log2 + 1 - 24)

/-- How many units an integer is rounded to. -/
def quotient (n : Int) : Int :=
  if 2 * (n % ulp n) < ulp n then n / ulp n
  else if ulp n < 2 * (n % ulp n) then n / ulp n + 1
  else n / ulp n + n / ulp n % 2

def rounded (n : Int) : Int := quotient n * ulp n

theorem ulp_pos (n : Int) : 0 < ulp n := by
  unfold ulp
  positivity

theorem natAbs_lt (n : Int) : (n.natAbs : Int) < 2 ^ 24 * ulp n := by
  have hlog : n.natAbs < 2 ^ (n.natAbs.log2 + 1) := Nat.lt_log2_self
  have hle : 2 ^ (n.natAbs.log2 + 1) ≤ 2 ^ (24 + (n.natAbs.log2 + 1 - 24)) :=
    Nat.pow_le_pow_right (by decide) (by omega)
  have hcast : ((2 ^ (24 + (n.natAbs.log2 + 1 - 24)) : Nat) : Int) = 2 ^ 24 * ulp n := by
    unfold ulp
    push_cast
    exact pow_add 2 24 _
  rw [← hcast]
  exact_mod_cast hlog.trans_le hle

/-- A rounded integer has at most `2 ^ 24` units. -/
theorem natAbs_quotient_le (n : Int) : (quotient n).natAbs ≤ 2 ^ 24 := by
  have hpos := ulp_pos n
  have habs := natAbs_lt n
  have hlow : -(2 ^ 24) ≤ n / ulp n := by
    rw [Int.le_ediv_iff_mul_le hpos]
    have hneg : -(n.natAbs : Int) ≤ n := by omega
    linarith
  have hhigh : n / ulp n < 2 ^ 24 := by
    rw [Int.ediv_lt_iff_lt_mul hpos]
    have hle : n ≤ (n.natAbs : Int) := by omega
    exact hle.trans_lt habs
  unfold quotient
  split_ifs <;> omega

theorem isFloat_rounded (n : Int) : IsFloat (rounded n : ℚ) := by
  have hq := natAbs_quotient_le n
  have hcast : (rounded n : ℚ) = (quotient n : ℚ) * 2 ^ (n.natAbs.log2 + 1 - 24) := by
    unfold rounded ulp
    push_cast
    rfl
  by_cases hlt : (quotient n).natAbs < 2 ^ 24
  · exact ⟨quotient n, _, hlt, .inr hcast⟩
  · -- The mantissa has been rounded up to the next power of two.
    have hcases : quotient n = 2 ^ 24 ∨ quotient n = -2 ^ 24 := by omega
    rcases hcases with h | h
    · refine ⟨1, 24 + (n.natAbs.log2 + 1 - 24), by decide, .inr ?_⟩
      rw [hcast, h, pow_add]
      push_cast
      ring
    · refine ⟨-1, 24 + (n.natAbs.log2 + 1 - 24), by decide, .inr ?_⟩
      rw [hcast, h, pow_add]
      push_cast
      ring

/-- An integer with 24 significant bits is a multiple of its unit. -/
theorem ulp_dvd {n : Int} (hn : IsFloat (n : ℚ)) : ulp n ∣ n := by
  obtain ⟨m, k, hm, hmul | hmul⟩ := hn
  · have heq : n * 2 ^ k = m := by exact_mod_cast hmul
    have hle : n.natAbs ≤ m.natAbs := by
      rw [← heq, Int.natAbs_mul]
      exact Nat.le_mul_of_pos_right _ (by simp [Int.natAbs_pow])
    have hzero : n.natAbs.log2 + 1 - 24 = 0 := by
      by_cases hn0 : n.natAbs = 0
      · rw [hn0]
        decide
      · have hlog := (Nat.log2_lt hn0).mpr (hle.trans_lt hm)
        omega
    rw [ulp, hzero, pow_zero]
    exact one_dvd n
  · have heq : n = m * 2 ^ k := by exact_mod_cast hmul
    by_cases hn0 : n.natAbs = 0
    · rw [Int.natAbs_eq_zero.mp hn0]
      exact dvd_zero _
    · have habs : n.natAbs < 2 ^ (24 + k) := by
        have habs : n.natAbs = m.natAbs * 2 ^ k := by
          conv_lhs => rw [heq]
          rw [Int.natAbs_mul, Int.natAbs_pow]
          rfl
        rw [habs, pow_add]
        exact Nat.mul_lt_mul_of_pos_right hm (by positivity)
      have hlog := (Nat.log2_lt hn0).mpr habs
      have hdvd : ulp n ∣ 2 ^ k := pow_dvd_pow 2 (by omega)
      exact hdvd.trans (Dvd.intro_left m heq.symm)

theorem rounded_of_isFloat {n : Int} (hn : IsFloat (n : ℚ)) : rounded n = n := by
  have hdvd := ulp_dvd hn
  have hpos := ulp_pos n
  have hmod : n % ulp n = 0 := Int.emod_eq_zero_of_dvd hdvd
  rw [rounded, quotient, hmod, if_pos (by omega)]
  exact Int.ediv_mul_cancel hdvd

/-- A rounded integer differs from the integer by its unit at most. -/
theorem rounded_near (n : Int) : n - ulp n ≤ rounded n ∧ rounded n ≤ n + ulp n := by
  have hpos := ulp_pos n
  have hlow := Int.emod_nonneg n hpos.ne'
  have hhigh := Int.emod_lt_of_pos n hpos
  have hdiv := Int.mul_ediv_add_emod n (ulp n)
  have hround : rounded n = ulp n * (n / ulp n) ∨ rounded n = ulp n * (n / ulp n) + ulp n := by
    have hup : (n / ulp n + 1) * ulp n = ulp n * (n / ulp n) + ulp n := by ring
    unfold rounded quotient
    split_ifs
    · exact .inl (mul_comm _ _)
    · exact .inr hup
    · rcases Int.emod_two_eq_zero_or_one (n / ulp n) with h | h
      · exact .inl (by rw [h, add_zero, mul_comm])
      · exact .inr (by rw [h, hup])
  omega

theorem ulp_le {n : Int} {k : Nat} (hn : n.natAbs < 2 ^ (24 + k)) : ulp n ≤ 2 ^ k := by
  refine pow_le_pow_right₀ (by decide) ?_
  by_cases hzero : n.natAbs = 0
  · rw [hzero]
    exact Nat.zero_le k
  · have hlog := (Nat.log2_lt hzero).mpr hn
    omega

theorem floor_le_rounded (n : Int) : n / ulp n * ulp n ≤ rounded n := by
  have hpos := ulp_pos n
  refine mul_le_mul_of_nonneg_right ?_ hpos.le
  unfold quotient
  split_ifs <;> omega

/-- Rounding does not go below a float. -/
theorem le_rounded {x n : Int} (hx : IsFloat (x : ℚ)) (h0 : 0 ≤ x) (hle : x ≤ n) : x ≤ rounded n := by
  refine le_trans ?_ (floor_le_rounded n)
  have hpos := ulp_pos n
  by_cases hdvd : ulp n ∣ x
  · obtain ⟨q, rfl⟩ := hdvd
    rw [mul_comm]
    exact mul_le_mul_of_nonneg_right ((Int.le_ediv_iff_mul_le hpos).mpr (by linarith)) hpos.le
  · -- then it is below the power of two that the number has in common with its unit
    have hn0 : n.natAbs ≠ 0 := by
      intro h
      apply hdvd
      have hx0 : x = 0 := by omega
      rw [hx0]
      exact dvd_zero _
    have hpow : 2 ^ n.natAbs.log2 ≤ n.natAbs := Nat.log2_self_le hn0
    have hbig : 24 ≤ n.natAbs.log2 + 1 := by
      by_contra hsmall
      apply hdvd
      rw [ulp, show n.natAbs.log2 + 1 - 24 = 0 by omega, pow_zero]
      exact one_dvd x
    have hless : x.natAbs < 2 ^ n.natAbs.log2 := by
      by_contra hge
      rw [not_lt] at hge
      have hx0 : x.natAbs ≠ 0 := (lt_of_lt_of_le (by positivity) hge).ne'
      have hlow : n.natAbs.log2 ≤ x.natAbs.log2 := (Nat.le_log2 hx0).mpr hge
      have hhigh : x.natAbs.log2 ≤ n.natAbs.log2 := (Nat.le_log2 hn0).mpr ((Nat.log2_self_le hx0).trans (by omega))
      apply hdvd
      rw [ulp, le_antisymm hlow hhigh]
      exact ulp_dvd hx
    have hunit : ulp n ∣ 2 ^ n.natAbs.log2 := pow_dvd_pow 2 (by omega)
    obtain ⟨q, hq⟩ := hunit
    have hfloor : (2 : Int) ^ n.natAbs.log2 ≤ n / ulp n * ulp n := by
      rw [hq, mul_comm]
      refine mul_le_mul_of_nonneg_right ((Int.le_ediv_iff_mul_le hpos).mpr ?_) hpos.le
      rw [mul_comm, ← hq]
      have hcast : ((2 ^ n.natAbs.log2 : Nat) : Int) ≤ n := by omega
      exact_mod_cast hcast
    have hcast : x < 2 ^ n.natAbs.log2 := by
      rw [← Int.natAbs_of_nonneg h0]
      exact_mod_cast hless
    exact (hcast.trans_le hfloor).le

theorem rounded_eq_iff {n : Int} : rounded n = n ↔ IsFloat (n : ℚ) :=
  ⟨fun h => h ▸ isFloat_rounded n, rounded_of_isFloat⟩

/-- `(float)n`. -/
def ofInt (n : Int) : SingleFloat := ⟨rounded n, isFloat_rounded n⟩

theorem ofInt_val (n : Int) : (ofInt n).val = (rounded n : ℚ) := rfl

/-- The conversion of an integer that is a float is exact. -/
theorem ofInt_of_isFloat {x : SingleFloat} {n : Int} (hx : x.val = n) : ofInt n = x := by
  have hn : IsFloat (n : ℚ) := hx ▸ x.property
  apply Subtype.ext
  rw [ofInt_val, rounded_of_isFloat hn, hx]

end SingleFloat

end RZEmulator.Lib
