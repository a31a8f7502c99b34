import Mathlib.Algebra.Module.Prod
import Mathlib.Algebra.Order.Field.Basic
import Mathlib.Tactic.FieldSimp
import Mathlib.Tactic.Linarith
import Mathlib.Tactic.LinearCombination
import Mathlib.Tactic.Ring

/-!
# Strips

The points of the plane that are nearer than `r` to a line, given by a point and a direction: `near_iff` decides it
from the product of the direction with the way to the point.
-/

namespace RZEmulator.Lib

section Products

variable {K : Type*} [Field K]

def dot (d w : K × K) : K := d.1 * w.1 + d.2 * w.2

def cross (d w : K × K) : K := d.1 * w.2 - d.2 * w.1

/-- The direction turned by a right angle. -/
def turn (d : K × K) : K × K := (d.2, -d.1)

theorem cross_turn (d w : K × K) : cross (turn d) w = dot d w := by
  unfold cross turn dot
  ring

theorem dot_turn (d : K × K) : dot (turn d) (turn d) = dot d d := by
  unfold dot turn
  ring

/-- Lagrange's identity. -/
theorem dot_mul_dot (d w : K × K) : dot d d * dot w w = dot d w ^ 2 + cross d w ^ 2 := by
  unfold dot cross
  ring

theorem cross_sub_smul (d w : K × K) (s : K) : cross d (w - s • d) = cross d w := by
  simp only [cross, Prod.fst_sub, Prod.snd_sub, Prod.smul_fst, Prod.smul_snd, smul_eq_mul]
  ring

theorem dot_sub_smul (d w : K × K) (s : K) : dot d (w - s • d) = dot d w - s * dot d d := by
  simp only [dot, Prod.fst_sub, Prod.snd_sub, Prod.smul_fst, Prod.smul_snd, smul_eq_mul]
  ring

end Products

section Near

variable {K : Type*} [Field K] [LinearOrder K] {a d p : K × K} {r : K}

/-- Some point of the line through `a` in the direction `d` is nearer than `r` to the point `p`. -/
def Near (a d : K × K) (r : K) (p : K × K) : Prop :=
  ∃ s : K, dot (p - (a + s • d)) (p - (a + s • d)) < r ^ 2

variable [IsStrictOrderedRing K]

theorem dot_self_pos (hd : d ≠ 0) : 0 < dot d d := by
  have hsum : dot d d = d.1 ^ 2 + d.2 ^ 2 := by unfold dot; ring
  rw [hsum]
  by_cases hx : d.1 = 0
  · have hy : d.2 ≠ 0 := fun hy => hd (Prod.ext hx hy)
    have := pow_pos (abs_pos.mpr hy) 2
    rw [sq_abs] at this
    linarith [sq_nonneg d.1]
  · have := pow_pos (abs_pos.mpr hx) 2
    rw [sq_abs] at this
    linarith [sq_nonneg d.2]

theorem dot_self_eq_zero : dot d d = 0 ↔ d = 0 := by
  refine ⟨fun h => by_contra fun hd => (dot_self_pos hd).ne' h, ?_⟩
  rintro rfl
  unfold dot
  simp

/-- The foot of the perpendicular is the nearest point of the line. -/
theorem near_iff (hd : d ≠ 0) : Near a d r p ↔ cross d (p - a) ^ 2 < r ^ 2 * dot d d := by
  have hpos := dot_self_pos hd
  have hway : ∀ s : K, p - (a + s • d) = p - a - s • d := fun s => (sub_sub p a (s • d)).symm
  constructor
  · rintro ⟨s, hs⟩
    rw [hway] at hs
    have hlagrange := dot_mul_dot d (p - a - s • d)
    rw [cross_sub_smul] at hlagrange
    calc cross d (p - a) ^ 2 ≤ dot d (p - a - s • d) ^ 2 + cross d (p - a) ^ 2 := le_add_of_nonneg_left (sq_nonneg _)
      _ = dot d d * dot (p - a - s • d) (p - a - s • d) := hlagrange.symm
      _ < dot d d * r ^ 2 := mul_lt_mul_of_pos_left hs hpos
      _ = r ^ 2 * dot d d := mul_comm _ _
  · intro h
    refine ⟨dot d (p - a) / dot d d, ?_⟩
    rw [hway]
    have hfoot : dot d (p - a - (dot d (p - a) / dot d d) • d) = 0 := by
      rw [dot_sub_smul, div_mul_cancel₀ _ hpos.ne', sub_self]
    have hlagrange := dot_mul_dot d (p - a - (dot d (p - a) / dot d d) • d)
    rw [hfoot, cross_sub_smul, zero_pow two_ne_zero, zero_add] at hlagrange
    refine lt_of_mul_lt_mul_left ?_ hpos.le
    rw [hlagrange, mul_comm]
    exact h

end Near

end RZEmulator.Lib
