import Mathlib.Algebra.Order.Field.Basic
import Mathlib.Data.List.Basic
import Mathlib.Tactic.FieldSimp
import Mathlib.Tactic.Linarith
import Mathlib.Tactic.Ring

/-!
# Paths with a timetable

A list of points to be reached, each at its time. `locate` says where a traveller is at a time, and what is still
ahead of it; between two points it is mixed from both in proportion (`Mixing`). A look on the way changes nothing
(`locate_locate`): going on from where it was found, the traveller is at every later time where it would have
been. A coordinate that no leg changes faster than `rate` does not change faster along the whole path
(`abs_locate_sub_le`).
-/

namespace RZEmulator.Lib

namespace TimedPath

variable {α P K : Type*} [Field K] [LinearOrder K]
  (target : α → P) (time : α → K) (toward : P → P → K → P)

/-- The point at time `t`, from the point `p` at the time `s`, and what is ahead of it. -/
def locate (t : K) : P → K → List α → P × List α
  | p, _, [] => (p, [])
  | p, s, m :: ms =>
    if t < time m then (toward p (target m) ((t - s) / (time m - s)), m :: ms)
    else locate t (target m) (time m) ms

/-- The times never go back. -/
def Timed : K → List α → Prop
  | _, [] => True
  | s, m :: ms => s ≤ time m ∧ Timed (time m) ms

/-- Going a part of the way and then a part of the rest is going a part of the way. -/
structure Mixing : Prop where
  zero : ∀ p w, toward p w 0 = p
  comp : ∀ p w a b, toward (toward p w a) w b = toward p w (a + b - a * b)

variable {target time toward} {t t' s : K} {p : P} {l : List α}

theorem locate_cons_of_lt {m : α} (h : t < time m) : locate target time toward t p s (m :: l) =
    (toward p (target m) ((t - s) / (time m - s)), m :: l) := if_pos h

theorem locate_cons_of_le {m : α} (h : time m ≤ t) : locate target time toward t p s (m :: l) =
    locate target time toward t (target m) (time m) l := if_neg (not_lt.mpr h)

/-- The path is split where the traveller is. -/
theorem exists_passed (hl : Timed time s l) : ∃ passed, l = passed ++ (locate target time toward t p s l).2 ∧
    (∀ m ∈ passed, time m ≤ t) ∧ ∀ m ∈ (locate target time toward t p s l).2, t < time m := by
  induction l generalizing p s with
  | nil => exact ⟨[], rfl, nofun, nofun⟩
  | cons m l ih =>
    by_cases h : t < time m
    · rw [locate_cons_of_lt h]
      refine ⟨[], rfl, nofun, List.forall_mem_cons.mpr ⟨h, ?_⟩⟩
      have hafter : ∀ {s : K} {l : List α}, t < s → Timed time s l → ∀ m ∈ l, t < time m := by
        intro s l hs hl
        induction l generalizing s with
        | nil => nofun
        | cons a l ih' => exact List.forall_mem_cons.mpr ⟨hs.trans_le hl.1, ih' (hs.trans_le hl.1) hl.2⟩
      exact hafter h hl.2
    · rw [locate_cons_of_le (not_lt.mp h)]
      obtain ⟨passed, heq, hpassed, hahead⟩ := ih (p := target m) hl.2
      refine ⟨m :: passed, ?_, List.forall_mem_cons.mpr ⟨not_lt.mp h, hpassed⟩, hahead⟩
      exact congrArg (m :: ·) heq

/-- What is ahead is a path from the time of the look. -/
theorem Timed.locate (hl : Timed time s l) : Timed time t (locate target time toward t p s l).2 := by
  induction l generalizing p s with
  | nil => trivial
  | cons m l ih =>
    by_cases h : t < time m
    · rw [locate_cons_of_lt h]
      exact ⟨h.le, hl.2⟩
    · rw [locate_cons_of_le (not_lt.mp h)]
      exact ih hl.2

variable [IsStrictOrderedRing K]

/-- **A look on the way changes nothing.** -/
theorem locate_locate (hmix : Mixing toward) (hl : Timed time s l) (hs : s ≤ t) (ht : t ≤ t') :
    locate target time toward t' (locate target time toward t p s l).1 t (locate target time toward t p s l).2 =
      locate target time toward t' p s l := by
  induction l generalizing p s with
  | nil => rfl
  | cons m l ih =>
    by_cases h : t < time m
    · rw [locate_cons_of_lt h]
      by_cases h' : t' < time m
      · rw [locate_cons_of_lt h', locate_cons_of_lt h', hmix.comp]
        have hleg : time m - s ≠ 0 := by linarith
        have hrest : time m - t ≠ 0 := by linarith
        congr 2
        field_simp
        ring
      · rw [locate_cons_of_le (not_lt.mp h'), locate_cons_of_le (not_lt.mp h')]
    · have h := not_lt.mp h
      rw [locate_cons_of_le h, locate_cons_of_le (h.trans ht)]
      exact ih hl.2 h

/-! ## Speed -/

section

variable {c : P → K} {rate : K}

/-- Along no leg does the coordinate change faster than `rate`. -/
def Paced (target : α → P) (time : α → K) (c : P → K) (rate : K) : P → K → List α → Prop
  | _, _, [] => True
  | p, s, m :: ms => |c (target m) - c p| ≤ rate * (time m - s) ∧ Paced target time c rate (target m) (time m) ms

variable (hc : ∀ p w a, c (toward p w a) = c p + (c w - c p) * a)
include hc

/-- A point on a leg is on both parts no further off than the time allows. -/
theorem abs_sub_le_of_leg {w : P} {e : K} (hleg : |c w - c p| ≤ rate * (e - s)) (hs : s ≤ t) (ht : t < e) :
    |c (toward p w ((t - s) / (e - s))) - c p| ≤ rate * (t - s) ∧
      |c w - c (toward p w ((t - s) / (e - s)))| ≤ rate * (e - t) := by
  have hpos : 0 < e - s := by linarith
  have hdone : 0 ≤ (t - s) / (e - s) := div_nonneg (by linarith) hpos.le
  have hleft : 0 ≤ 1 - (t - s) / (e - s) := by
    rw [sub_nonneg, div_le_one hpos]
    linarith
  rw [hc]
  constructor
  · calc |c p + (c w - c p) * ((t - s) / (e - s)) - c p| = |c w - c p| * ((t - s) / (e - s)) := by
          rw [add_sub_cancel_left, abs_mul, abs_of_nonneg hdone]
      _ ≤ rate * (e - s) * ((t - s) / (e - s)) := mul_le_mul_of_nonneg_right hleg hdone
      _ = rate * (t - s) := by field_simp
  · calc |c w - (c p + (c w - c p) * ((t - s) / (e - s)))| = |c w - c p| * (1 - (t - s) / (e - s)) := by
          rw [show c w - (c p + (c w - c p) * ((t - s) / (e - s))) = (c w - c p) * (1 - (t - s) / (e - s)) by ring,
            abs_mul, abs_of_nonneg hleft]
      _ ≤ rate * (e - s) * (1 - (t - s) / (e - s)) := mul_le_mul_of_nonneg_right hleg hleft
      _ = rate * (e - t) := by
          field_simp
          ring

theorem Paced.locate (hl : Paced target time c rate p s l) (hs : s ≤ t) :
    Paced target time c rate (locate target time toward t p s l).1 t (locate target time toward t p s l).2 := by
  induction l generalizing p s with
  | nil => trivial
  | cons m l ih =>
    by_cases h : t < time m
    · rw [locate_cons_of_lt h]
      exact ⟨(abs_sub_le_of_leg hc hl.1 hs h).2, hl.2⟩
    · rw [locate_cons_of_le (not_lt.mp h)]
      exact ih hl.2 (not_lt.mp h)

/-- **The speed along the path.** -/
theorem abs_locate_sub_le (hl : Paced target time c rate p s l) (hrate : 0 ≤ rate) (hs : s ≤ t) :
    |c (locate target time toward t p s l).1 - c p| ≤ rate * (t - s) := by
  induction l generalizing p s with
  | nil =>
    rw [show (locate target time toward t p s []).1 = p from rfl, sub_self, abs_zero]
    exact mul_nonneg hrate (sub_nonneg.mpr hs)
  | cons m l ih =>
    by_cases h : t < time m
    · rw [locate_cons_of_lt h]
      exact (abs_sub_le_of_leg hc hl.1 hs h).1
    · have h := not_lt.mp h
      rw [locate_cons_of_le h]
      calc |c (locate target time toward t (target m) (time m) l).1 - c p|
          ≤ |c (locate target time toward t (target m) (time m) l).1 - c (target m)| + |c (target m) - c p| :=
            abs_sub_le _ _ _
        _ ≤ rate * (t - time m) + rate * (time m - s) := add_le_add (ih hl.2 h) hl.1
        _ = rate * (t - s) := by ring

end

end TimedPath

end RZEmulator.Lib
