import Mathlib.Data.List.Induction
import Mathlib.Tactic.Common

/-!
# Arenas

A list of the objects that have been created, the first one first: the place of an object is its identity, and an
object changes by `List.modify`. Before and after a change the list is the same two parts with another object between
them (`exists_append_of_getElem?`, `modify_append_cons`), so that what is counted changes by that object alone.
-/

namespace RZEmulator.Lib

variable {α : Type*} {l : List α} {i : Nat} {a : α}

theorem exists_append_of_getElem? (h : l[i]? = some a) : ∃ A B, l = A ++ a :: B ∧ A.length = i := by
  obtain ⟨hi, rfl⟩ := List.getElem?_eq_some_iff.mp h
  refine ⟨l.take i, l.drop (i + 1), ?_, List.length_take_of_le (Nat.le_of_lt hi)⟩
  rw [List.getElem_cons_drop, List.take_append_drop]

theorem modify_append_cons (A B : List α) (a : α) (f : α → α) :
    (A ++ a :: B).modify A.length f = A ++ f a :: B := by
  induction A with
  | nil => rfl
  | cons b A ih => rw [List.cons_append, List.length_cons, List.modify_succ_cons, ih, List.cons_append]

/-- What is at a place after a change. -/
theorem getElem?_modify_of_getElem? (h : l[i]? = some a) (f : α → α) (j : Nat) :
    (l.modify i f)[j]? = if i = j then some (f a) else l[j]? := by
  rw [List.getElem?_modify]
  split_ifs with hij
  · rw [← hij, h]
    rfl
  · exact Option.map_id'

/-- What is at a place after one more object. -/
theorem getElem?_concat (l : List α) (a : α) (j : Nat) : (l ++ [a])[j]? = if j = l.length then some a else l[j]? := by
  split_ifs with hj
  · rw [hj, List.getElem?_append_right (Nat.le_refl _), Nat.sub_self]
    rfl
  · rcases Nat.lt_or_ge j l.length with hlt | hge
    · rw [List.getElem?_append_left hlt]
    · rw [List.getElem?_eq_none hge, List.getElem?_eq_none]
      rw [List.length_append, List.length_singleton]
      omega

/-- What a change does to a count. -/
theorem countP_modify (h : l[i]? = some a) (f : α → α) (p : α → Bool) :
    (l.modify i f).countP p + (p a).toNat = l.countP p + (p (f a)).toNat := by
  obtain ⟨A, B, rfl, rfl⟩ := exists_append_of_getElem? h
  rw [modify_append_cons]
  simp only [List.countP_append, List.countP_cons]
  cases p a <;> cases p (f a) <;> simp <;> omega

/-- Counting objects by what is known of their places. -/
theorem countP_eq_range {p : α → Bool} {q : Nat → Bool} (h : ∀ i a, l[i]? = some a → p a = q i) :
    l.countP p = (List.range l.length).countP q := by
  induction l using List.reverseRecOn with
  | nil => rfl
  | append_singleton l a ih =>
    have hl : ∀ i b, l[i]? = some b → p b = q i := by
      intro i b hb
      apply h i b
      rw [List.getElem?_append_left (List.getElem?_eq_some_iff.mp hb).1, hb]
    have ha : p a = q l.length := by
      apply h l.length a
      rw [List.getElem?_append_right (Nat.le_refl _), Nat.sub_self]
      rfl
    rw [List.length_append, List.length_singleton, List.range_succ, List.countP_append, List.countP_append, ih hl,
      List.countP_singleton, List.countP_singleton, ha]

end RZEmulator.Lib
