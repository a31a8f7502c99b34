import Mathlib.Algebra.BigOperators.Group.List.Basic
import Mathlib.Algebra.Ring.Int.Defs
import RZEmulator.Lib.SwapRemove

/-!
# Stacks of units

A list of stacks, each of a kind. Units are taken from the first stack of their kind only, and a stack that has no
more than is asked for is taken whole. `served_iff` says when a sequence of demands takes exactly what it asks for:
each finds its first stack large enough when its turn comes.
-/

namespace RZEmulator.Lib

abbrev Stacks (κ : Type*) := List (κ × Int)

namespace Stacks

variable {κ : Type*} [DecidableEq κ] {k k' : κ} {l : Stacks κ} {n c c' : Int} {i : Nat} {ds : List (κ × Int)}

/-- The first stack of the kind: its position and its units. -/
def first (k : κ) (l : Stacks κ) : Option (Nat × Int) :=
  (l.findIdx? fun s => s.1 = k).bind fun i => l[i]?.map fun s => (i, s.2)

/-- All units of the kind. -/
def units (k : κ) (l : Stacks κ) : Int := (l.map fun s => if s.1 = k then s.2 else 0).sum

def take (k : κ) (n : Int) (l : Stacks κ) : Stacks κ :=
  match first k l with
  | none => l
  | some (i, c) => if n < c then l.set i (k, c - n) else swapRemove l i

/-- Units are added to the first stack of their kind, or make up a new one. -/
def join (k : κ) (n : Int) (l : Stacks κ) : Stacks κ :=
  match first k l with
  | none => l ++ [(k, n)]
  | some (i, c) => l.set i (k, c + n)

/-- New units join a stack, if their kind is one that does. -/
def put (joins : Bool) (k : κ) (n : Int) (l : Stacks κ) : Stacks κ := if joins then join k n l else l ++ [(k, n)]

/-- What `take` takes. -/
def taken (k : κ) (n : Int) (l : Stacks κ) : Int :=
  match first k l with
  | none => 0
  | some s => min n s.2

theorem getElem?_of_first (h : first k l = some (i, c)) : l[i]? = some (k, c) := by
  unfold first at h
  obtain ⟨j, hj, hmap⟩ := Option.bind_eq_some_iff.mp h
  obtain ⟨s, hs, hpair⟩ := Option.map_eq_some_iff.mp hmap
  obtain ⟨rfl, rfl⟩ := Prod.mk.inj hpair
  obtain ⟨hlt, hkind, -⟩ := List.findIdx?_eq_some_iff_getElem.mp hj
  rw [List.getElem?_eq_getElem hlt, Option.some.injEq] at hs
  rw [hs, decide_eq_true_eq] at hkind
  rw [List.getElem?_eq_getElem hlt, hs, ← hkind]

theorem units_perm {l' : Stacks κ} (h : l.Perm l') : units k l = units k l' := (h.map _).sum_eq

theorem units_cons (s : κ × Int) (l : Stacks κ) :
    units k (s :: l) = (if s.1 = k then s.2 else 0) + units k l := by
  unfold units
  rw [List.map_cons, List.sum_cons]

/-- One stack has another number of units. -/
theorem units_set (h : l[i]? = some (k, c)) :
    units k' (l.set i (k, c')) = units k' l + if k = k' then c' - c else 0 := by
  obtain ⟨hlt, heq⟩ := List.getElem?_eq_some_iff.mp h
  have hold := units_perm (k := k') (List.getElem_cons_eraseIdx_perm hlt)
  rw [units_perm (k := k') (List.set_perm_cons_eraseIdx hlt _), ← hold, heq, units_cons, units_cons]
  split_ifs <;> omega

theorem units_swapRemove (h : l[i]? = some (k, c)) :
    units k' (swapRemove l i) = units k' l - if k = k' then c else 0 := by
  rw [← units_perm (k := k') (cons_swapRemove_perm h), units_cons]
  split_ifs <;> omega

theorem units_take (k k' : κ) (n : Int) (l : Stacks κ) :
    units k' (take k n l) = units k' l - if k = k' then taken k n l else 0 := by
  unfold take taken
  cases hfirst : first k l with
  | none =>
    dsimp only
    rw [ite_self, sub_zero]
  | some s =>
    have hget := getElem?_of_first hfirst
    dsimp only
    split_ifs with hlt hk hk
    · rw [units_set hget, if_pos hk]
      omega
    · rw [units_set hget, if_neg hk]
      omega
    · rw [units_swapRemove hget, if_pos hk]
      omega
    · rw [units_swapRemove hget, if_neg hk]

theorem units_join (k k' : κ) (n : Int) (l : Stacks κ) :
    units k' (join k n l) = units k' l + if k = k' then n else 0 := by
  unfold join
  cases hfirst : first k l with
  | none =>
    unfold units
    simp
  | some s =>
    dsimp only
    rw [units_set (getElem?_of_first hfirst), add_sub_cancel_left]

theorem units_put (joins : Bool) (k k' : κ) (n : Int) (l : Stacks κ) :
    units k' (put joins k n l) = units k' l + if k = k' then n else 0 := by
  unfold put
  split_ifs with hjoins hk hk
  · rw [units_join, if_pos hk]
  · rw [units_join, if_neg hk]
  · unfold units
    simp [hk]
  · unfold units
    simp [hk]

/-! ## Demands -/

def takeAll (ds : List (κ × Int)) (l : Stacks κ) : Stacks κ := ds.foldl (fun l d => take d.1 d.2 l) l

/-- The units of a kind that are asked for. -/
def due (k : κ) (ds : List (κ × Int)) : Int := (ds.map fun d => if d.1 = k then max d.2 0 else 0).sum

/-- The first stack is large enough; where there is none, nothing is asked for. -/
def Suffices (d : κ × Int) (l : Stacks κ) : Prop :=
  match first d.1 l with
  | none => d.2 ≤ 0
  | some s => 0 ≤ d.2 ∧ d.2 ≤ s.2

/-- Every demand finds its stack large enough when its turn comes. -/
def Served : List (κ × Int) → Stacks κ → Prop
  | [], _ => True
  | d :: ds, l => Suffices d l ∧ Served ds (take d.1 d.2 l)

instance (d : κ × Int) (l : Stacks κ) : Decidable (Suffices d l) := by
  unfold Suffices
  cases first d.1 l <;> infer_instance

instance decidableServed : ∀ (ds : List (κ × Int)) (l : Stacks κ), Decidable (Served ds l)
  | [], _ => .isTrue trivial
  | d :: ds, l => @instDecidableAnd _ _ inferInstance (decidableServed ds (take d.1 d.2 l))

/-- No demand takes more than it asks for. -/
theorem taken_le (k : κ) (n : Int) (l : Stacks κ) : taken k n l ≤ max n 0 := by
  unfold taken
  cases first k l with
  | none => exact Int.le_max_right n 0
  | some s => exact Int.le_trans (Int.min_le_left n s.2) (Int.le_max_left n 0)

theorem taken_eq_iff (k : κ) (n : Int) (l : Stacks κ) : taken k n l = max n 0 ↔ Suffices (k, n) l := by
  unfold taken Suffices
  cases first k l with
  | none =>
    dsimp only
    omega
  | some s =>
    dsimp only
    omega

theorem due_cons (d : κ × Int) (ds : List (κ × Int)) :
    due k (d :: ds) = (if d.1 = k then max d.2 0 else 0) + due k ds := by
  unfold due
  rw [List.map_cons, List.sum_cons]

theorem units_takeAll_le (k : κ) (ds : List (κ × Int)) (l : Stacks κ) :
    units k l - due k ds ≤ units k (takeAll ds l) := by
  induction ds generalizing l with
  | nil => exact Int.sub_le_self _ (Int.le_refl 0)
  | cons d ds ih =>
    have hrest := ih (take d.1 d.2 l)
    have htake := units_take d.1 k d.2 l
    have hle := taken_le d.1 d.2 l
    rw [due_cons]
    refine Int.le_trans ?_ hrest
    split_ifs at htake ⊢ <;> omega

/-- **When the demands take exactly what they ask for.** -/
theorem served_iff : Served ds l ↔ ∀ k, units k (takeAll ds l) = units k l - due k ds := by
  induction ds generalizing l with
  | nil => exact iff_of_true trivial fun k => (sub_zero _).symm
  | cons d ds ih =>
    unfold Served
    rw [ih, ← taken_eq_iff d.1 d.2 l]
    have hstep : ∀ k, units k (takeAll (d :: ds) l) = units k (takeAll ds (take d.1 d.2 l)) := fun _ => rfl
    simp only [hstep, due_cons, units_take]
    constructor
    · rintro ⟨hhead, hrest⟩ k
      rw [hrest k, hhead]
      split_ifs <;> omega
    · intro h
      -- Neither the first demand nor the others take more than they ask for, so that both take all of it.
      have hhead : taken d.1 d.2 l = max d.2 0 := by
        have hle := units_takeAll_le d.1 ds (take d.1 d.2 l)
        have htake := units_take d.1 d.1 d.2 l
        have heq := h d.1
        rw [if_pos rfl] at htake heq
        have hmax := taken_le d.1 d.2 l
        omega
      refine ⟨hhead, fun k => ?_⟩
      rw [h k, hhead]
      split_ifs <;> omega

end Stacks

end RZEmulator.Lib
