import Mathlib.Tactic.Common

/-!
# Streams taken in blocks

`consume` takes the whole blocks from the front of a list, one after the other, and leaves what does not fill a block.
A list that goes on is consumed from the rest that was left (`consume_append`), so that it makes no difference in which
pieces a stream arrives as long as the rest is kept.
-/

namespace RZEmulator.Lib.BlockStream

variable {σ α : Type*} (n : Nat) (f : σ → List α → σ)

/-- The state after the whole blocks of a list, and the part of a block that is left. -/
def consume (s : σ) (xs : List α) : σ × List α :=
  if n = 0 ∨ xs.length < n then (s, xs) else consume (f s (xs.take n)) (xs.drop n)
termination_by xs.length
decreasing_by
  rw [List.length_drop]
  omega

variable {n f} {s : σ} {xs : List α}

theorem consume_of_lt (h : xs.length < n) : consume n f s xs = (s, xs) := by
  unfold consume
  exact if_pos (Or.inr h)

theorem consume_of_le (hn : 0 < n) (h : n ≤ xs.length) :
    consume n f s xs = consume n f (f s (xs.take n)) (xs.drop n) := by
  rw [consume, if_neg (by omega)]

/-- A whole block in front. -/
theorem consume_block (hn : 0 < n) {block : List α} (hblock : block.length = n) :
    consume n f s (block ++ xs) = consume n f (f s block) xs := by
  rw [consume_of_le hn (by rw [List.length_append]; omega), List.take_left' hblock, List.drop_left' hblock]

/-- **A list that goes on is consumed from what was left of it.** -/
theorem consume_append (hn : 0 < n) (s : σ) (xs ys : List α) :
    consume n f s (xs ++ ys) = consume n f (consume n f s xs).1 ((consume n f s xs).2 ++ ys) := by
  induction s, xs using consume.induct n f with
  | case1 s xs h => rw [consume_of_lt (h.resolve_left (by omega))]
  | case2 s xs h ih =>
    have hle : n ≤ xs.length := by omega
    rw [consume_of_le hn hle, ← ih, ← consume_block hn (s := s) (List.length_take_of_le hle), ← List.append_assoc,
      List.take_append_drop]

/-- What is left has no whole block, and its length is a remainder. -/
theorem length_consume_snd (hn : 0 < n) (s : σ) (xs : List α) : (consume n f s xs).2.length = xs.length % n := by
  induction s, xs using consume.induct n f with
  | case1 s xs h =>
    rw [consume_of_lt (h.resolve_left (by omega)), Nat.mod_eq_of_lt (h.resolve_left (by omega))]
  | case2 s xs h ih =>
    rw [consume_of_le hn (by omega), ih, List.length_drop, Nat.mod_eq_sub_mod (a := xs.length) (by omega)]

end RZEmulator.Lib.BlockStream
