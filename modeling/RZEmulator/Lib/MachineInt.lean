import Mathlib.Algebra.Ring.Int.Defs
import Mathlib.Tactic.Common

/-!
# Machine integers

Quantities are unbounded integers; this file says where the width matters. `add64` and `add32` are signed
additions, which have no result when the exact sum is out of range, and `narrow32` is the conversion of
a 64-bit quantity to 32 bits, which keeps the low bits. `narrow32_eq_self` is the only fact about it
a caller needs: a quantity that fits is not changed. `wrap32` is the conversion to an unsigned 32-bit
integer, the remainder; sums may be wrapped at the end only (`wrap32_add`).
-/

namespace RZEmulator.Lib

/-- The range of a signed 64-bit integer. -/
abbrev IsInt64 (n : Int) : Prop := -2 ^ 63 ≤ n ∧ n < 2 ^ 63

/-- The range of a signed 32-bit integer. -/
abbrev IsInt32 (n : Int) : Prop := -2 ^ 31 ≤ n ∧ n < 2 ^ 31

/-- Signed 64-bit addition; an overflow has no result. -/
def add64 (a b : Int) : Option Int :=
  if IsInt64 (a + b) then some (a + b) else none

/-- Signed 32-bit addition; an overflow has no result. -/
def add32 (a b : Int) : Option Int :=
  if IsInt32 (a + b) then some (a + b) else none

/-- The conversion to an unsigned 32-bit integer. -/
def wrap32 (n : Int) : Int := n % 2 ^ 32

/-- The conversion to a signed 32-bit integer: the low 32 bits, read as signed. -/
def narrow32 (n : Int) : Int := (n + 2 ^ 31) % 2 ^ 32 - 2 ^ 31

theorem add64_eq_some {a b c : Int} : add64 a b = some c ↔ IsInt64 (a + b) ∧ c = a + b := by
  unfold add64
  split_ifs with h
  · exact ⟨fun hc => ⟨h, (Option.some.inj hc).symm⟩, fun hc => hc.2 ▸ rfl⟩
  · exact ⟨nofun, fun hc => absurd hc.1 h⟩

theorem add64_of_isInt64 {a b : Int} (h : IsInt64 (a + b)) : add64 a b = some (a + b) :=
  if_pos h

theorem add32_eq_some {a b c : Int} : add32 a b = some c ↔ IsInt32 (a + b) ∧ c = a + b := by
  unfold add32
  split_ifs with h
  · exact ⟨fun hc => ⟨h, (Option.some.inj hc).symm⟩, fun hc => hc.2 ▸ rfl⟩
  · exact ⟨nofun, fun hc => absurd hc.1 h⟩

theorem wrap32_range (n : Int) : 0 ≤ wrap32 n ∧ wrap32 n < 2 ^ 32 := by
  unfold wrap32
  omega

theorem wrap32_eq_self {n : Int} (h : 0 ≤ n) (h' : n < 2 ^ 32) : wrap32 n = n := by
  unfold wrap32
  omega

theorem wrap32_add (a b : Int) : wrap32 (wrap32 a + b) = wrap32 (a + b) := by
  unfold wrap32
  omega

theorem narrow32_isInt32 (n : Int) : IsInt32 (narrow32 n) := by
  unfold narrow32 IsInt32
  omega

theorem narrow32_eq_self {n : Int} (h : IsInt32 n) : narrow32 n = n := by
  unfold narrow32
  unfold IsInt32 at h
  omega

/-- A 64-bit word survives the conversion to 32 bits and back if and only if it fits. -/
theorem signExtend_setWidth_eq_self_iff (e : BitVec 64) :
    (e.setWidth 32).signExtend 64 = e ↔ IsInt32 e.toInt := by
  have hlt := e.isLt
  have htoInt := BitVec.toInt_eq_toNat_cond e
  rw [← BitVec.toInt_inj, BitVec.toInt_signExtend_of_le (by decide), BitVec.toInt_setWidth, Int.bmod_def]
  unfold IsInt32
  split_ifs at * <;> omega

end RZEmulator.Lib
