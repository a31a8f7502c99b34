import Mathlib.Data.Nat.ModEq
import Mathlib.Data.List.Basic

/-!
# Walks with a fixed stride

A walk around `n` places goes on by `jump` places at a time. If `jump` is prime to `n` it is at a place again only after
`n` steps (`place_inj`), so what is laid out along a walk of at most `n` steps is still there when one walks the same way
again (`getElem?_scatter_place`, `gather_eq_of_place`).
-/

namespace RZEmulator.Lib.Stride

/-- The place after `i` steps. -/
def place (n jump start i : Nat) : Nat := (start + i * jump) % n

variable {n jump start : Nat}

theorem place_zero (h : start < n) : place n jump start 0 = start := by
  unfold place
  rw [Nat.zero_mul, Nat.add_zero, Nat.mod_eq_of_lt h]

theorem place_succ (n jump start i : Nat) : place n jump ((start + jump) % n) i = place n jump start (i + 1) := by
  unfold place
  rw [Nat.mod_add_mod, Nat.succ_mul, Nat.add_assoc, Nat.add_comm jump]

theorem place_lt (h : 0 < n) (i : Nat) : place n jump start i < n := Nat.mod_lt _ h

theorem place_inj (h : Nat.Coprime jump n) {i j : Nat} (hi : i < n) (hj : j < n)
    (heq : place n jump start i = place n jump start j) : i = j := by
  have hmod : i * jump ≡ j * jump [MOD n] := Nat.ModEq.add_left_cancel' start heq
  have hcancel : i ≡ j [MOD n] := Nat.ModEq.cancel_right_of_coprime (Nat.coprime_comm.mp h) hmod
  exact Nat.ModEq.eq_of_lt_of_lt hcancel hi hj

section Layout

variable {α : Type*}

/-- Writes a list along a walk. -/
def scatter (n jump : Nat) : List α → Nat → List α → List α
  | [], _, dest => dest
  | a :: as, p, dest => scatter n jump as ((p + jump) % n) (dest.set p a)

/-- Reads along a walk of `count` steps. -/
def gather (n jump : Nat) (f : Nat → α) : Nat → Nat → List α
  | 0, _ => []
  | count + 1, p => f p :: gather n jump f count ((p + jump) % n)

@[simp] theorem length_scatter (as : List α) (p : Nat) (dest : List α) : (scatter n jump as p dest).length = dest.length := by
  induction as generalizing p dest with
  | nil => rfl
  | cons a as ih =>
    unfold scatter
    rw [ih, List.length_set]

/-- A place that the walk does not come to keeps what it holds. -/
theorem getElem?_scatter_of_ne {as : List α} {p q : Nat} {dest : List α} (hp : p < n)
    (hq : ∀ i < as.length, place n jump p i ≠ q) : (scatter n jump as p dest)[q]? = dest[q]? := by
  induction as generalizing p dest with
  | nil => rfl
  | cons a as ih =>
    unfold scatter
    have hpq : p ≠ q := by
      have := hq 0 (Nat.succ_pos _)
      rwa [place_zero hp] at this
    rw [ih (Nat.mod_lt _ (Nat.zero_lt_of_lt hp)) fun i hi => ?_, List.getElem?_set_ne hpq]
    rw [place_succ]
    exact hq (i + 1) (Nat.succ_lt_succ hi)

/-- The walk leaves at its `i`-th place what is `i`-th in the list. -/
theorem getElem?_scatter_place (h : Nat.Coprime jump n) {as : List α} {p : Nat} {dest : List α} (hp : p < n)
    (has : as.length ≤ n) (hdest : n ≤ dest.length) {i : Nat} (hi : i < as.length) :
    (scatter n jump as p dest)[place n jump p i]? = as[i]? := by
  induction as generalizing p dest i with
  | nil => exact absurd hi (Nat.not_lt_zero _)
  | cons a as ih =>
    unfold scatter
    have hn : 0 < n := Nat.zero_lt_of_lt hp
    cases i with
    | zero =>
      rw [place_zero hp, getElem?_scatter_of_ne (Nat.mod_lt _ hn) fun j hj => ?_,
        List.getElem?_set_self (Nat.lt_of_lt_of_le hp hdest)]
      · rfl
      · -- the walk would be back too early
        intro hback
        rw [place_succ] at hback
        have hj' : j + 1 < n := Nat.lt_of_lt_of_le (Nat.succ_lt_succ hj) has
        exact Nat.succ_ne_zero j (place_inj h hj' hn (hback.trans (place_zero hp).symm))
    | succ i =>
      rw [← place_succ, ih (Nat.mod_lt _ hn) (Nat.le_of_succ_le has) (by rwa [List.length_set])
        (Nat.lt_of_succ_lt_succ hi)]
      rfl

/-- What is found along a walk. -/
theorem gather_eq_of_place {f : Nat → α} {as : List α} {count p : Nat} (hcount : as.length = count) (hp : p < n)
    (h : ∀ i, (hi : i < as.length) → f (place n jump p i) = as[i]) : gather n jump f count p = as := by
  subst hcount
  induction as generalizing p with
  | nil => rfl
  | cons a as ih =>
    have h0 := h 0 (Nat.succ_pos _)
    rw [place_zero hp] at h0
    show f p :: gather n jump f as.length ((p + jump) % n) = a :: as
    rw [h0, ih (Nat.mod_lt _ (Nat.zero_lt_of_lt hp)) fun i hi => ?_]
    · rfl
    · rw [place_succ]
      exact h (i + 1) (Nat.succ_lt_succ hi)

end Layout

end RZEmulator.Lib.Stride
