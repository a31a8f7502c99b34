import Mathlib.Algebra.Order.Ring.Rat
import Mathlib.Data.List.Perm.Subperm
import Mathlib.Data.List.Sort
import Mathlib.Tactic.NormNum

/-!
# The targets of a region skill

`Skill::EnumSkillTargetsAndCalcDamage`. The list of the handles around the place, the region tester and the distance are given, as
is `std::sort`, of which only the order of its result is known. The loop keeps the allies before the enemies (`enumLoop_eq`), and
so the sorting, the truncation and the division of the damage are those of the enemies (`enumSkillTargets_right`).
-/

namespace RZEmulator.Chihiro

inductive DistributionType where
  | noLimit
  | distribute
  | random
  | sequentialTarget
  | sequentialCaster
  deriving DecidableEq

/-- An object as the enumeration sees it; `isEnemy` is what `pCaster->IsEnemy` answers for it. -/
structure RegionUnit (Pos : Type) where
  handle : Nat
  isUnit : Bool
  health : Nat
  isEnemy : Bool
  position : Pos
  currentPosition : Pos
  deriving DecidableEq

/-- The objects in the world under their handles, the tester made for a place and a direction, and the distance. -/
structure RegionWorld (Pos : Type) where
  getObject : Nat → Option (RegionUnit Pos)
  handle_eq : ∀ {h u}, getObject h = some u → u.handle = h
  isInRegion : Pos → Pos → Pos → Bool
  getExactDist2d : Pos → Pos → ℚ

/-- `std::sort` by a key. -/
structure StdSort (α : Type) where
  sort : (α → ℚ) → List α → List α
  perm : ∀ key l, (sort key l).Perm l
  sorted : ∀ key l, (sort key l).Pairwise fun a b => key a ≤ key b

/-- The insertion sort is one. -/
def StdSort.insertion (α : Type) : StdSort α where
  sort key l := l.insertionSort fun a b => key a ≤ key b
  perm _ l := List.perm_insertionSort _ l
  sorted key l := by
    have : Std.Total fun a b => key a ≤ key b := ⟨fun a b => le_total (key a) (key b)⟩
    have : IsTrans α fun a b => key a ≤ key b := ⟨fun _ _ _ hab hbc => hab.trans hbc⟩
    exact List.pairwise_insertionSort _ l

structure RegionArgs (Pos : Type) where
  originalPos : Pos
  targetPos : Pos
  bTargetOrigin : Bool
  nOriginalDamage : Int
  bIncludeOriginalPos : Bool
  nDistributeType : DistributionType
  nTargetMax : Int
  bEnemyOnly : Bool

/-- The list with its two counters. -/
structure TargetList (Pos : Type) where
  vTargetList : List (RegionUnit Pos)
  nTargetCount : Nat
  nAllyCount : Nat

variable {Pos : Type}

namespace RegionArgs

variable (A : RegionArgs Pos) (W : RegionWorld Pos)

def regionOrigin : Pos := if A.bTargetOrigin then A.targetPos else A.originalPos

def regionTarget : Pos := if A.bTargetOrigin then A.originalPos else A.targetPos

def isInRegion (u : RegionUnit Pos) : Bool := W.isInRegion A.regionOrigin A.regionTarget u.currentPosition

/-- A turn of the loop over the handles. -/
def addTarget [DecidableEq Pos] (s : TargetList Pos) (handle : Nat) : TargetList Pos :=
  match W.getObject handle with
  | none => s
  | some u =>
    if u.isUnit = false then s
    else if u.health = 0 then s
    else if u.isEnemy = false ∧ A.bEnemyOnly = true then s
    else if A.isInRegion W u = false then s
    else if A.bIncludeOriginalPos = false ∧ A.regionOrigin = u.currentPosition then s
    else if u.isEnemy = false then { s with vTargetList := u :: s.vTargetList, nAllyCount := s.nAllyCount + 1 }
    else { s with vTargetList := s.vTargetList ++ [u], nTargetCount := s.nTargetCount + 1 }

def enumLoop [DecidableEq Pos] (vList : List Nat) : TargetList Pos := vList.foldl (A.addTarget W) ⟨[], 0, 0⟩

/-- The sorting of the part after the allies. -/
def sortTargets (S : StdSort (RegionUnit Pos)) (s : TargetList Pos) : List (RegionUnit Pos) :=
  match A.nDistributeType with
  | .sequentialTarget => s.vTargetList.take s.nAllyCount ++
      S.sort (fun u => W.getExactDist2d A.targetPos u.position) (s.vTargetList.drop s.nAllyCount)
  | .sequentialCaster => s.vTargetList.take s.nAllyCount ++
      S.sort (fun u => W.getExactDist2d A.originalPos u.position) (s.vTargetList.drop s.nAllyCount)
  | _ => s.vTargetList

/-- The `resize` of the list. -/
def truncateTargets (s : TargetList Pos) (l : List (RegionUnit Pos)) : List (RegionUnit Pos) :=
  match A.nDistributeType with
  | .random | .sequentialTarget | .sequentialCaster =>
    if A.nTargetMax < s.nTargetCount then l.take (s.nAllyCount + A.nTargetMax).toNat else l
  | _ => l

def resultDamage (s : TargetList Pos) : Int :=
  if A.nDistributeType = .distribute ∧ A.nTargetMax < s.nTargetCount then (A.nOriginalDamage * A.nTargetMax).tdiv s.nTargetCount
  else A.nOriginalDamage

/-- `Skill::EnumSkillTargetsAndCalcDamage`: the list of the targets and the damage. -/
def enumSkillTargetsAndCalcDamage [DecidableEq Pos] (S : StdSort (RegionUnit Pos)) (vList : List Nat) : List (RegionUnit Pos) × Int :=
  let s := A.enumLoop W vList
  (A.truncateTargets s (A.sortTargets W S s), A.resultDamage s)

/-! ## What the targets are to be -/

/-- The living units among the handles that are at a place of the region. -/
def unitsIn (region : RegionUnit Pos → Bool) (vList : List Nat) : List (RegionUnit Pos) :=
  (vList.filterMap W.getObject).filter fun u => u.isUnit && u.health != 0 && region u

def alliesIn (region : RegionUnit Pos → Bool) (vList : List Nat) : List (RegionUnit Pos) :=
  (unitsIn W region vList).filter fun u => !u.isEnemy && !A.bEnemyOnly

def enemiesIn (region : RegionUnit Pos → Bool) (vList : List Nat) : List (RegionUnit Pos) :=
  (unitsIn W region vList).filter fun u => u.isEnemy

/-- The sorted list `kept` has the nearest of the enemies. -/
structure Nearest (nTargetMax : Int) (key : RegionUnit Pos → ℚ) (enemies kept : List (RegionUnit Pos)) : Prop where
  sorted : kept.Pairwise fun a b => key a ≤ key b
  length : (kept.length : Int) = min nTargetMax enemies.length
  nearest : ∃ others, (kept ++ others).Perm enemies ∧ ∀ a ∈ kept, ∀ b ∈ others, key a ≤ key b

/-- The enemies that are kept for the type of distribution, with the distance `dist` from the named origin. -/
def KeptRight (dist : Pos → RegionUnit Pos → ℚ) (enemies kept : List (RegionUnit Pos)) : Prop :=
  match A.nDistributeType with
  | .sequentialTarget => Nearest A.nTargetMax (dist A.targetPos) enemies kept
  | .sequentialCaster => Nearest A.nTargetMax (dist A.originalPos) enemies kept
  | .random => (kept.length : Int) = min A.nTargetMax enemies.length ∧ kept.Subperm enemies
  | _ => kept.Perm enemies

/-- The damage for `n` enemies: it is divided only where it is distributed over too many of them. -/
structure DamageRight (n nResult : Int) : Prop where
  divided : A.nDistributeType = .distribute → A.nTargetMax < n → nResult = A.nOriginalDamage * A.nTargetMax / n
  original : ¬(A.nDistributeType = .distribute ∧ A.nTargetMax < n) → nResult = A.nOriginalDamage
  bounded : A.nDistributeType = .distribute → n * nResult ≤ A.nOriginalDamage * A.nTargetMax

/-- The result for the units of `region`: the allies, and then the enemies that are kept. -/
structure TargetsRight (region : RegionUnit Pos → Bool) (dist : Pos → RegionUnit Pos → ℚ) (vList : List Nat)
    (result : List (RegionUnit Pos) × Int) : Prop where
  nodup : (result.1.map RegionUnit.handle).Nodup
  inRegion : ∀ u ∈ result.1, u.isUnit = true ∧ 0 < u.health ∧ region u = true
  layout : ∃ allies kept, result.1 = allies ++ kept ∧ allies.Perm (A.alliesIn W region vList) ∧
    A.KeptRight dist (enemiesIn W region vList) kept
  damage : A.DamageRight (enemiesIn W region vList).length result.2

/-- The region without its origin, if this is not to be included. -/
def reached [DecidableEq Pos] (u : RegionUnit Pos) : Bool :=
  A.isInRegion W u && (A.bIncludeOriginalPos || !decide (A.regionOrigin = u.currentPosition))

/-! ## The loop -/

section

variable {A W} {s : TargetList Pos} {vList : List Nat} {handle : Nat} {u : RegionUnit Pos}

/-- What a turn of the loop does with an object: an ally is put before the others, an enemy after them. -/
theorem addTarget_eq [DecidableEq Pos] (hu : W.getObject handle = some u) : A.addTarget W s handle =
    if (u.isUnit && u.health != 0 && A.reached W u) = true then
      if u.isEnemy = true then { s with vTargetList := s.vTargetList ++ [u], nTargetCount := s.nTargetCount + 1 }
      else if A.bEnemyOnly = true then s
      else { s with vTargetList := u :: s.vTargetList, nAllyCount := s.nAllyCount + 1 }
    else s := by
  unfold addTarget reached
  rw [hu]
  dsimp only
  grind

/-- The list of the loop: the allies in the reverse order, and then the enemies. -/
def Laid (allies enemies : List (RegionUnit Pos)) : TargetList Pos :=
  ⟨allies.reverse ++ enemies, enemies.length, allies.length⟩

theorem alliesIn_cons (hu : W.getObject handle = some u) (region : RegionUnit Pos → Bool) :
    A.alliesIn W region (handle :: vList) =
      (if (u.isUnit && u.health != 0 && region u) = true ∧ u.isEnemy = false ∧ A.bEnemyOnly = false then [u] else []) ++
        A.alliesIn W region vList := by
  unfold alliesIn unitsIn
  rw [List.filterMap_cons_some hu, List.filter_cons]
  grind

theorem enemiesIn_cons (hu : W.getObject handle = some u) (region : RegionUnit Pos → Bool) :
    enemiesIn W region (handle :: vList) =
      (if (u.isUnit && u.health != 0 && region u) = true ∧ u.isEnemy = true then [u] else []) ++ enemiesIn W region vList := by
  unfold enemiesIn unitsIn
  rw [List.filterMap_cons_some hu, List.filter_cons]
  grind

theorem addTarget_laid [DecidableEq Pos] (hu : W.getObject handle = some u) (allies enemies : List (RegionUnit Pos)) :
    A.addTarget W (Laid allies enemies) handle = Laid
      (allies ++ if (u.isUnit && u.health != 0 && A.reached W u) = true ∧ u.isEnemy = false ∧ A.bEnemyOnly = false then [u] else [])
      (enemies ++ if (u.isUnit && u.health != 0 && A.reached W u) = true ∧ u.isEnemy = true then [u] else []) := by
  rw [addTarget_eq hu]
  unfold Laid
  cases (u.isUnit && u.health != 0 && A.reached W u) <;> cases u.isEnemy <;> cases A.bEnemyOnly <;> simp

theorem enumLoop_laid [DecidableEq Pos] (allies enemies : List (RegionUnit Pos)) : vList.foldl (A.addTarget W) (Laid allies enemies) =
    Laid (allies ++ A.alliesIn W (A.reached W) vList) (enemies ++ enemiesIn W (A.reached W) vList) := by
  induction vList generalizing allies enemies with
  | nil => simp [alliesIn, enemiesIn, unitsIn]
  | cons handle vList ih =>
    rw [List.foldl_cons]
    cases hu : W.getObject handle with
    | none =>
      have hskip : A.addTarget W (Laid allies enemies) handle = Laid allies enemies := by
        unfold addTarget
        rw [hu]
      rw [hskip, ih]
      simp only [alliesIn, enemiesIn, unitsIn, List.filterMap_cons_none hu]
    | some u => rw [addTarget_laid hu, ih, alliesIn_cons hu, enemiesIn_cons hu, List.append_assoc, List.append_assoc]

/-- The loop keeps the allies before the enemies, and counts both. -/
theorem enumLoop_eq [DecidableEq Pos] (vList : List Nat) :
    A.enumLoop W vList = Laid (A.alliesIn W (A.reached W) vList) (enemiesIn W (A.reached W) vList) :=
  enumLoop_laid [] []

end

/-! ## Sorting, truncation and damage -/

section

variable {A W} {S : StdSort (RegionUnit Pos)} {allies enemies : List (RegionUnit Pos)} {vList : List Nat}

/-- The enemies after the sorting. -/
def sortEnemies (A : RegionArgs Pos) (W : RegionWorld Pos) (S : StdSort (RegionUnit Pos)) (enemies : List (RegionUnit Pos)) :
    List (RegionUnit Pos) :=
  match A.nDistributeType with
  | .sequentialTarget => S.sort (fun u => W.getExactDist2d A.targetPos u.position) enemies
  | .sequentialCaster => S.sort (fun u => W.getExactDist2d A.originalPos u.position) enemies
  | _ => enemies

theorem sortEnemies_perm : (A.sortEnemies W S enemies).Perm enemies := by
  unfold sortEnemies
  split
  · exact S.perm _ _
  · exact S.perm _ _
  · exact List.Perm.refl _

theorem sortTargets_laid : A.sortTargets W S (Laid allies enemies) = allies.reverse ++ A.sortEnemies W S enemies := by
  have htake : (Laid allies enemies).vTargetList.take (Laid allies enemies).nAllyCount = allies.reverse := by simp [Laid]
  have hdrop : (Laid allies enemies).vTargetList.drop (Laid allies enemies).nAllyCount = enemies := by simp [Laid]
  unfold sortTargets sortEnemies
  rw [htake, hdrop]
  cases A.nDistributeType <;> rfl

/-- The enemies that the truncation keeps. -/
def keepEnemies (A : RegionArgs Pos) (enemies : List (RegionUnit Pos)) : List (RegionUnit Pos) :=
  match A.nDistributeType with
  | .random | .sequentialTarget | .sequentialCaster => enemies.take A.nTargetMax.toNat
  | _ => enemies

theorem truncateTargets_laid (hmax : 0 ≤ A.nTargetMax) {sorted : List (RegionUnit Pos)} (hlen : sorted.length = enemies.length) :
    A.truncateTargets (Laid allies enemies) (allies.reverse ++ sorted) = allies.reverse ++ A.keepEnemies sorted := by
  have hkeep : (if A.nTargetMax < (Laid allies enemies).nTargetCount then
      (allies.reverse ++ sorted).take ((Laid allies enemies).nAllyCount + A.nTargetMax).toNat else allies.reverse ++ sorted) =
      allies.reverse ++ sorted.take A.nTargetMax.toNat := by
    unfold Laid
    dsimp only
    split_ifs with hlt
    · have hsum : ((allies.length : Int) + A.nTargetMax).toNat = allies.reverse.length + A.nTargetMax.toNat := by
        rw [List.length_reverse]
        omega
      rw [hsum, List.take_length_add_append]
    · rw [List.take_of_length_le (by omega)]
  unfold truncateTargets keepEnemies
  cases A.nDistributeType with
  | noLimit | distribute => rfl
  | random | sequentialTarget | sequentialCaster => exact hkeep

theorem nearest_take (hmax : 0 ≤ A.nTargetMax) (key : RegionUnit Pos → ℚ) (enemies : List (RegionUnit Pos)) :
    Nearest A.nTargetMax key enemies ((S.sort key enemies).take A.nTargetMax.toNat) where
  sorted := (S.sorted key enemies).sublist (List.take_sublist _ _)
  length := by
    rw [List.length_take, (S.perm key enemies).length_eq]
    omega
  nearest := by
    have hsplit := List.take_append_drop A.nTargetMax.toNat (S.sort key enemies)
    refine ⟨(S.sort key enemies).drop A.nTargetMax.toNat, by rw [hsplit]; exact S.perm key enemies, ?_⟩
    have hsorted := S.sorted key enemies
    rw [← hsplit] at hsorted
    exact (List.pairwise_append.mp hsorted).2.2

theorem keepEnemies_right (hmax : 0 ≤ A.nTargetMax) (enemies : List (RegionUnit Pos)) :
    A.KeptRight (fun origin u => W.getExactDist2d origin u.position) enemies (A.keepEnemies (A.sortEnemies W S enemies)) := by
  unfold KeptRight keepEnemies sortEnemies
  cases A.nDistributeType with
  | noLimit | distribute => exact List.Perm.refl _
  | random =>
    refine ⟨?_, (List.take_sublist _ _).subperm⟩
    dsimp only
    rw [List.length_take]
    omega
  | sequentialTarget | sequentialCaster => exact nearest_take hmax _ enemies

theorem keepEnemies_sublist : (A.keepEnemies enemies).Sublist enemies := by
  unfold keepEnemies
  split
  · exact List.take_sublist _ _
  · exact List.take_sublist _ _
  · exact List.take_sublist _ _
  · exact List.Sublist.refl _

theorem resultDamage_right (hmax : 0 ≤ A.nTargetMax) (hdamage : 0 ≤ A.nOriginalDamage) :
    A.DamageRight enemies.length (A.resultDamage (Laid allies enemies)) := by
  have hnonneg : 0 ≤ A.nOriginalDamage * A.nTargetMax := mul_nonneg hdamage hmax
  have hfloor := Int.tdiv_eq_ediv_of_nonneg (b := (enemies.length : Int)) hnonneg
  have hcount : (Laid allies enemies).nTargetCount = enemies.length := rfl
  unfold resultDamage
  rw [hcount]
  refine ⟨fun hdist hlt => ?_, fun hno => if_neg hno, fun hdist => ?_⟩
  · rw [if_pos ⟨hdist, hlt⟩, hfloor]
  · split_ifs with hlt
    · rw [hfloor]
      exact Int.mul_ediv_self_le (by omega)
    · have hle : (enemies.length : Int) ≤ A.nTargetMax := not_lt.mp fun h => hlt ⟨hdist, h⟩
      rw [mul_comm]
      exact mul_le_mul_of_nonneg_left hle hdamage

theorem unitsIn_nodup (region : RegionUnit Pos → Bool) (hnodup : vList.Nodup) :
    ((unitsIn W region vList).map RegionUnit.handle).Nodup := by
  have hall : ((vList.filterMap W.getObject).map RegionUnit.handle).Sublist vList := by
    clear hnodup
    induction vList with
    | nil => exact .slnil
    | cons handle vList ih =>
      cases hu : W.getObject handle with
      | none =>
        rw [List.filterMap_cons_none hu]
        exact ih.cons handle
      | some u =>
        rw [List.filterMap_cons_some hu, List.map_cons, W.handle_eq hu]
        exact ih.cons_cons handle
  exact hnodup.sublist (((List.filter_sublist).map _).trans hall)

theorem mem_unitsIn {region : RegionUnit Pos → Bool} {u : RegionUnit Pos} (hu : u ∈ unitsIn W region vList) :
    u.isUnit = true ∧ 0 < u.health ∧ region u = true := by
  have hprop := (List.mem_filter.mp hu).2
  simp only [Bool.and_eq_true, bne_iff_ne] at hprop
  exact ⟨hprop.1.1, Nat.pos_of_ne_zero hprop.1.2, hprop.2⟩

/-- The place that the sorting reads: the one that the unit holds. -/
def heldDist (W : RegionWorld Pos) (origin : Pos) (u : RegionUnit Pos) : ℚ := W.getExactDist2d origin u.position

/-- The result in terms of the allies and the enemies that are reached. -/
theorem enumSkillTargets_eq [DecidableEq Pos] (S : StdSort (RegionUnit Pos)) (hmax : 0 ≤ A.nTargetMax) : A.enumSkillTargetsAndCalcDamage W S vList =
    ((A.alliesIn W (A.reached W) vList).reverse ++ A.keepEnemies (A.sortEnemies W S (enemiesIn W (A.reached W) vList)),
      A.resultDamage (Laid (A.alliesIn W (A.reached W) vList) (enemiesIn W (A.reached W) vList))) := by
  unfold enumSkillTargetsAndCalcDamage
  dsimp only
  rw [enumLoop_eq, sortTargets_laid, truncateTargets_laid hmax sortEnemies_perm.length_eq]

theorem enumSkillTargets_right [DecidableEq Pos] (S : StdSort (RegionUnit Pos)) (hnodup : vList.Nodup) (hmax : 0 ≤ A.nTargetMax)
    (hdamage : 0 ≤ A.nOriginalDamage) :
    A.TargetsRight W (A.reached W) (heldDist W) vList (A.enumSkillTargetsAndCalcDamage W S vList) := by
  rw [enumSkillTargets_eq S hmax]
  -- what is kept is a part of the units of the region
  have hsub : ((A.alliesIn W (A.reached W) vList).reverse ++
      A.keepEnemies (A.sortEnemies W S (enemiesIn W (A.reached W) vList))).Subperm (unitsIn W (A.reached W) vList) := by
    have hallies : (A.alliesIn W (A.reached W) vList).Sublist ((unitsIn W (A.reached W) vList).filter fun u => !u.isEnemy) :=
      List.monotone_filter_right _ fun u hu => (Bool.and_eq_true_iff.mp hu).1
    have hkept : (A.keepEnemies (A.sortEnemies W S (enemiesIn W (A.reached W) vList))).Sublist
        (A.sortEnemies W S (enemiesIn W (A.reached W) vList)) := keepEnemies_sublist
    have hsplit : ((unitsIn W (A.reached W) vList).filter (fun u => !u.isEnemy) ++ enemiesIn W (A.reached W) vList).Perm
        (unitsIn W (A.reached W) vList) :=
      List.perm_append_comm.trans (List.filter_append_perm _ _)
    refine List.Subperm.trans (List.Subperm.append ?_ (hkept.subperm.trans sortEnemies_perm.subperm)) hsplit.subperm
    exact (List.reverse_perm _).subperm.trans hallies.subperm
  refine ⟨?_, fun u hu => mem_unitsIn (hsub.subset hu), ?_, resultDamage_right hmax hdamage⟩
  · obtain ⟨l, hperm, hl⟩ := hsub
    exact (hperm.map _).nodup_iff.mp ((unitsIn_nodup _ hnodup).sublist (hl.map _))
  · exact ⟨_, _, rfl, List.reverse_perm _, keepEnemies_right hmax _⟩

end

/-- A line as the world, with the distance on it, in which every place is in every region. -/
def lineWorld (units : List (RegionUnit Int)) : RegionWorld Int where
  getObject handle := units.find? fun u => u.handle == handle
  handle_eq {h _} hu := beq_iff_eq.mp (List.find?_some (p := fun v : RegionUnit Int => v.handle == h) hu)
  isInRegion _ _ _ := true
  getExactDist2d origin pos := ((origin - pos).natAbs : ℚ)

/-- An enemy that stands on the origin, and a pair of enemies that have passed each other on the way. -/
def standing : RegionUnit Int := ⟨1, true, 10, true, 0, 0⟩

def leaving : RegionUnit Int := ⟨2, true, 10, true, 1, 9⟩

def coming : RegionUnit Int := ⟨3, true, 10, true, 8, 2⟩

def lineArgs (bIncludeOriginalPos : Bool) (nDistributeType : DistributionType) : RegionArgs Int :=
  ⟨0, 0, false, 100, bIncludeOriginalPos, nDistributeType, 3, true⟩

theorem enumSkillTargets_right_line :
    (lineArgs false .distribute).TargetsRight (lineWorld [standing, coming, leaving])
      ((lineArgs false .distribute).reached (lineWorld [standing, coming, leaving])) (heldDist (lineWorld [standing, coming, leaving]))
      [3, 1, 2]
      ((lineArgs false .distribute).enumSkillTargetsAndCalcDamage (lineWorld [standing, coming, leaving]) (.insertion _) [3, 1, 2]) :=
  enumSkillTargets_right _ (by decide) (by decide) (by decide)

/-- Where the origin is not included, the enemy on it is in the region and is no target; and the enemies are sorted by the places
that they hold, not by those where they are. -/
theorem enumSkillTargets_line :
    ¬(lineArgs false .noLimit).TargetsRight (lineWorld [standing]) ((lineArgs false .noLimit).isInRegion (lineWorld [standing]))
        (heldDist (lineWorld [standing])) [1]
        ((lineArgs false .noLimit).enumSkillTargetsAndCalcDamage (lineWorld [standing]) (.insertion _) [1]) ∧
      ¬(lineArgs true .sequentialCaster).TargetsRight (lineWorld [coming, leaving])
        ((lineArgs true .sequentialCaster).isInRegion (lineWorld [coming, leaving]))
        (fun origin u => (lineWorld [coming, leaving]).getExactDist2d origin u.currentPosition) [2, 3]
        ((lineArgs true .sequentialCaster).enumSkillTargetsAndCalcDamage (lineWorld [coming, leaving]) (.insertion _) [2, 3]) := by
  constructor
  · intro hright
    obtain ⟨allies, kept, happend, -, hkept⟩ := hright.layout
    have henemies : enemiesIn (lineWorld [standing]) ((lineArgs false .noLimit).isInRegion (lineWorld [standing])) [1] = [standing] := by
      decide
    have hnone : ((lineArgs false .noLimit).enumSkillTargetsAndCalcDamage (lineWorld [standing]) (.insertion _) [1]).1 = [] := by decide
    rw [henemies] at hkept
    rw [hnone] at happend
    have hlen : kept.length = 1 := List.Perm.length_eq hkept
    rw [(List.append_eq_nil_iff.mp happend.symm).2] at hlen
    exact absurd hlen (by decide)
  · intro hright
    obtain ⟨allies, kept, happend, hallies, hkept⟩ := hright.layout
    have hnil : (lineArgs true .sequentialCaster).alliesIn (lineWorld [coming, leaving])
        ((lineArgs true .sequentialCaster).isInRegion (lineWorld [coming, leaving])) [2, 3] = [] := by decide
    rw [hnil] at hallies
    rw [enumSkillTargets_eq _ (by decide), hallies.eq_nil] at happend
    have hsorted : (lineArgs true .sequentialCaster).sortEnemies (lineWorld [coming, leaving]) (.insertion _)
        (enemiesIn (lineWorld [coming, leaving]) ((lineArgs true .sequentialCaster).reached (lineWorld [coming, leaving])) [2, 3]) =
        [leaving, coming] := by decide
    have hkeep : kept = [leaving, coming] := by
      rw [hsorted] at happend
      exact happend.symm
    have hpair := hkept.sorted
    rw [hkeep] at hpair
    exact absurd hpair (by decide)

end RegionArgs

end RZEmulator.Chihiro
