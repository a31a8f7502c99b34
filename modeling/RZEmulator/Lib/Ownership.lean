import Mathlib.Data.List.Count
import Mathlib.Data.List.Nodup
import Mathlib.Data.List.Perm.Basic
import Mathlib.Tactic.Common

/-!
# Objects with one owner

Objects are numbered in the order in which they are allocated. `Owned n held freed` says that each of the
first `n` is held exactly once or has been freed exactly once, and that no other one is either. Moving
objects between the lists that hold them is a permutation of `held`, so that allocation (`Owned.alloc`) and
release (`Owned.free`) are the only other rules.

Threads and other participants stand in a list; one at a time takes another role. How many are in a role and what they
hold together changes by the old and the new role of that one (`countP_set_add`, `flatMap_set_perm`).
-/

namespace RZEmulator.Lib

def Owned (n : Nat) (held : List Nat) (freed : Nat → Nat) : Prop :=
  ∀ p, held.count p + freed p = if p < n then 1 else 0

namespace Owned

variable {n p : Nat} {held held' gone : List Nat} {freed freed' : Nat → Nat}

theorem perm (h : Owned n held freed) (hperm : held'.Perm held) : Owned n held' freed := fun p => by
  rw [hperm.count_eq]
  exact h p

/-- A new object is held by whoever allocates it. -/
theorem alloc (h : Owned n held freed) : Owned (n + 1) (n :: held) freed := by
  intro p
  have hp := h p
  rw [List.count_cons]
  by_cases heq : n = p
  · subst heq
    rw [if_neg (Nat.lt_irrefl n)] at hp
    rw [if_pos (beq_self_eq_true n), if_pos (Nat.lt_succ_self n)]
    omega
  · rw [if_neg (by simpa using heq), Nat.add_zero, hp]
    by_cases hlt : p < n
    · rw [if_pos hlt, if_pos (Nat.lt_succ_of_lt hlt)]
    · rw [if_neg hlt, if_neg (by omega)]

/-- Objects that are let go of have to be freed. -/
theorem free (h : Owned n (gone ++ held) freed) (hfreed : ∀ p, freed' p = freed p + gone.count p) :
    Owned n held freed' := by
  intro p
  have hp := h p
  rw [List.count_append] at hp
  rw [hfreed, ← hp]
  omega

theorem nodup (h : Owned n held freed) : held.Nodup :=
  List.nodup_iff_count_le_one.mpr fun p => by
    have hp := h p
    split_ifs at hp <;> omega

theorem lt_of_mem (h : Owned n held freed) (hp : p ∈ held) : p < n := by
  have hcount := List.count_pos_iff.mpr hp
  have hsum := h p
  split_ifs at hsum with hlt
  · exact hlt
  · omega

theorem ne_of_mem (h : Owned n held freed) (hp : p ∈ held) : p ≠ n := Nat.ne_of_lt (h.lt_of_mem hp)

end Owned

/-! ## Participants that change their roles -/

section Roles

variable {α β : Type*}

theorem countP_set_add (p : α → Bool) {l : List α} {i : Nat} {a : α} (h : l[i]? = some a) (b : α) :
    (l.set i b).countP p + (if p a then 1 else 0) = l.countP p + if p b then 1 else 0 := by
  obtain ⟨hi, rfl⟩ := List.getElem?_eq_some_iff.mp h
  have hpos : (if p l[i] then 1 else 0) ≤ l.countP p := by
    split_ifs with hp
    · exact List.countP_pos_iff.mpr ⟨_, List.getElem_mem hi, hp⟩
    · exact Nat.zero_le _
  rw [List.countP_set hi]
  omega

theorem flatMap_set_perm (f : α → List β) {l : List α} {i : Nat} {a : α} (h : l[i]? = some a) (b : α) :
    ((l.set i b).flatMap f ++ f a).Perm (l.flatMap f ++ f b) := by
  induction l generalizing i with
  | nil => cases h
  | cons x l ih =>
    cases i with
    | zero =>
      cases h
      show (f b ++ l.flatMap f ++ f a).Perm (f a ++ l.flatMap f ++ f b)
      rw [List.append_assoc]
      exact List.perm_append_comm.trans (List.perm_append_comm.append_right _)
    | succ i =>
      show (f x ++ (l.set i b).flatMap f ++ f a).Perm (f x ++ l.flatMap f ++ f b)
      rw [List.append_assoc, List.append_assoc]
      exact (ih h).append_left _

section Changes

variable {f : α → List β} {l : List α} {i : Nat} {a b : α} {c : List β}

/-- A participant that lets go of something. -/
theorem flatMap_set_lose (h : l[i]? = some a) (hab : (f a).Perm (c ++ f b)) :
    (l.flatMap f).Perm (c ++ (l.set i b).flatMap f) := by
  refine (List.perm_append_right_iff (f b)).mp ?_
  refine (flatMap_set_perm f h b).symm.trans ((hab.append_left _).trans ?_)
  rw [← List.append_assoc]
  exact List.perm_append_comm.append_right _

/-- A participant that takes something. -/
theorem flatMap_set_gain (h : l[i]? = some a) (hab : (f b).Perm (c ++ f a)) :
    ((l.set i b).flatMap f).Perm (c ++ l.flatMap f) := by
  refine (List.perm_append_right_iff (f a)).mp ?_
  refine (flatMap_set_perm f h b).trans ((hab.append_left _).trans ?_)
  rw [← List.append_assoc]
  exact List.perm_append_comm.append_right _

theorem flatMap_set_same (h : l[i]? = some a) (hab : (f b).Perm (f a)) : ((l.set i b).flatMap f).Perm (l.flatMap f) :=
  flatMap_set_gain (c := []) h hab

end Changes

end Roles

end RZEmulator.Lib
