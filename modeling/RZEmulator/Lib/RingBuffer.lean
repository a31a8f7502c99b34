import Mathlib.Data.List.Basic
import Mathlib.Data.Nat.ModEq
import Mathlib.Logic.Function.Basic
import Mathlib.Tactic.Common

/-!
# Ring buffers

A ring of `cap` cells with a start and a count holds a queue: what is pushed is put behind the last
element, and elements are dropped from the front. Cells outside the `count` elements from the start
on are not read.
-/

namespace RZEmulator.Lib

structure RingBuffer (α : Type*) where
  cells : Nat → α
  start : Nat
  count : Nat

/-- An index that has gone around at most once. -/
theorem wrapped_eq_mod {cap i : Nat} (hi : i < 2 * cap) : (if i ≥ cap then i - cap else i) = i % cap := by
  split_ifs with h
  · rw [Nat.mod_eq_sub_mod h, Nat.mod_eq_of_lt (by omega)]
  · exact (Nat.mod_eq_of_lt (Nat.lt_of_not_le h)).symm

namespace RingBuffer

variable {α : Type*} (cap : Nat) (r : RingBuffer α)

/-- The queue, the oldest element first. -/
def contents : List α := (List.range r.count).map fun i => r.cells ((r.start + i) % cap)

def push (a : α) : RingBuffer α :=
  { r with cells := Function.update r.cells ((r.start + r.count) % cap) a, count := r.count + 1 }

def drop (n : Nat) : RingBuffer α := { r with start := (r.start + n) % cap, count := r.count - n }

@[simp] theorem length_contents : (r.contents cap).length = r.count := by
  rw [contents, List.length_map, List.length_range]

variable {cap r}

/-- Places that are less than a round apart are different cells. -/
theorem mod_add_ne {i j : Nat} (hij : i < j) (hj : j < i + cap) : i % cap ≠ j % cap := by
  intro h
  have hdvd : cap ∣ j - i := (Nat.modEq_iff_dvd' (Nat.le_of_lt hij)).mp h
  exact absurd (Nat.le_of_dvd (by omega) hdvd) (by omega)

/-- Rings with the same elements have the same queue, whatever the other places hold. -/
theorem contents_congr {r' : RingBuffer α} (hcap : 0 < cap) (hcells : ∀ i, i < cap → r'.cells i = r.cells i)
    (hstart : r'.start = r.start) (hcount : r'.count = r.count) : r'.contents cap = r.contents cap := by
  unfold contents
  rw [hstart, hcount]
  exact List.map_congr_left fun i _ => hcells _ (Nat.mod_lt _ hcap)

theorem contents_push (a : α) (h : r.count < cap) : (r.push cap a).contents cap = r.contents cap ++ [a] := by
  unfold contents push
  dsimp only
  rw [List.range_succ, List.map_append, List.map_singleton, Function.update_self]
  congr 1
  refine List.map_congr_left fun i hi => Function.update_of_ne ?_ _ _
  have hi' := List.mem_range.mp hi
  exact mod_add_ne (by omega) (by omega)

theorem contents_drop (n : Nat) : (r.drop cap n).contents cap = (r.contents cap).drop n := by
  unfold contents drop
  dsimp only
  refine List.ext_getElem (by simp) fun i hi _ => ?_
  rw [List.getElem_drop, List.getElem_map, List.getElem_map, List.getElem_range, List.getElem_range, Nat.mod_add_mod,
    Nat.add_assoc]

end RingBuffer

end RZEmulator.Lib
