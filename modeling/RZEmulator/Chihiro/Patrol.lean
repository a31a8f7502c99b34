import Mathlib.Algebra.Ring.Int.Defs
import RZEmulator.Lib.Run

/-!
# Patrols

`processMove` and `processWalk` of a monster with way points. `m_nWayPointIdx` is the way point that was reached last; on the way
back of a patrol that goes forth and back it is minus that way point. A way point stands for its position by its index. How far the
monster has come when `processWalk` is called, and when it is drawn off its way, is up to the run.
-/

namespace RZEmulator.Chihiro

open Lib

structure WayPointInfo (P : Type*) where
  way_point_type : Int
  vWayPoint : List P
  nonempty : vWayPoint ≠ []

structure Patroller where
  m_nWayPointIdx : Int
  bIsMoving : Bool
  /-- the points ahead -/
  ends : List Nat
  /-- `STATUS_NORMAL` and not `m_bComeBackHome` -/
  onPatrol : Bool

namespace WayPointInfo

variable {P : Type*} (W : WayPointInfo P)

/-- The last index, `lwpi`. -/
def lwpi : Int := W.vWayPoint.length - 1

/-- The index where `processMove` starts. -/
def turned (idx : Int) : Int := if idx ≥ W.lwpi then if W.way_point_type = 1 then -W.lwpi else -1 else idx

/-- The index where the loop of `processMove` ends. -/
def lastIndex (idx : Int) : Int := if W.way_point_type = 1 ∧ idx < 0 then 0 else W.lwpi

/-- The values of `awpi` in the loop from `idx` to `lwpi`. -/
def indices (idx lwpi : Int) : List Nat := (List.range (lwpi - idx).toNat).map fun i : Nat => (idx + 1 + (i : Int)).natAbs

/-- The points of the path, `vMoveInfo`; an index outside the list has no point. -/
def path (idx : Int) : Option (List Nat) :=
  let awpi := indices (W.turned idx) (W.lastIndex (W.turned idx))
  if awpi.all fun i => decide (i < W.vWayPoint.length) then some awpi else none

/-- `processMove` of a monster that stands, with `SetMultipleMove`. -/
def processMove (s : Patroller) : Option Patroller :=
  (W.path s.m_nWayPointIdx).map fun vMoveInfo =>
    { s with m_nWayPointIdx := W.turned s.m_nWayPointIdx, ends := vMoveInfo, bIsMoving := decide (vMoveInfo ≠ []) }

/-- The index that `processWalk` computes from the number of points ahead. -/
def walkedIndex (idx : Int) (ahead : Nat) : Int :=
  if idx < 0 ∧ W.way_point_type = 1 then 0 - ahead else W.vWayPoint.length - ahead - 1

/-- `processWalk` when the points that are left are `ends`. -/
def processWalk (s : Patroller) (ends : List Nat) : Patroller :=
  { s with
    m_nWayPointIdx := if s.onPatrol = true then W.walkedIndex s.m_nWayPointIdx ends.length else s.m_nWayPointIdx
    ends := ends
    bIsMoving := decide (ends ≠ []) }

inductive PatrolEvent
  | processMove
  /-- `processWalk` after `k` more points -/
  | processWalk (k : Nat)
  /-- the monster takes another way -/
  | drawnOff (ends : List Nat)
  /-- the monster stands and is free again -/
  | resume

def handle (s : Patroller) : PatrolEvent → Option Patroller
  | .processMove => if s.onPatrol = true ∧ s.bIsMoving = false then W.processMove s else none
  | .processWalk k => if s.bIsMoving = true ∧ k ≤ s.ends.length then some (W.processWalk s (s.ends.drop k)) else none
  | .drawnOff ends => some { s with onPatrol := false, ends := ends, bIsMoving := decide (ends ≠ []) }
  | .resume => if s.onPatrol = false then some { s with onPatrol := true, ends := [], bIsMoving := false } else none

/-- The runs of a monster that begins to patrol. -/
def patrolSystem : System Patroller PatrolEvent :=
  System.ofFun (fun s => s = ⟨0, false, [], true⟩) W.handle

/-! ## The order of the way points -/

/-- The `k`-th way point of the patrol: round and round, or forth and back. -/
def stop (k : Nat) : Nat :=
  if W.way_point_type = 1 then
    let q := k % (2 * (W.vWayPoint.length - 1))
    if q ≤ W.vWayPoint.length - 1 then q else 2 * (W.vWayPoint.length - 1) - q
  else k % W.vWayPoint.length

/-- `n` stops of the patrol from the `k`-th. -/
def stops (k n : Nat) : List Nat := (List.range' k n).map W.stop

/-- The way points that `processWalk` has seen the monster pass on its patrol, in order. -/
def visited : History Patroller PatrolEvent → List Nat
  | [] => []
  | ⟨s, .processWalk k, _⟩ :: hist => visited hist ++ if s.onPatrol = true then s.ends.take k else []
  | _ :: hist => visited hist

/-- What the monster has passed are the stops of its patrol in order, and when it stands the next path has the stops that follow. -/
structure PatrolRight (hist : History Patroller PatrolEvent) (s : Patroller) : Prop where
  visited : visited hist = W.stops 1 (visited hist).length
  next : s.onPatrol = true → s.bIsMoving = false →
    ∃ vMoveInfo, W.path s.m_nWayPointIdx = some vMoveInfo ∧ vMoveInfo ≠ [] ∧
      vMoveInfo = W.stops ((WayPointInfo.visited hist).length + 1) vMoveInfo.length ∧ ∀ i ∈ vMoveInfo, i < W.vWayPoint.length

end WayPointInfo

/-! ## Remainders -/

theorem mod_add_of_lt {n P j : Nat} (h : n % P + j < P) : (n + j) % P = n % P + j := by
  rw [Nat.add_mod, Nat.mod_eq_of_lt (show j < P by omega), Nat.mod_eq_of_lt h]

theorem mod_add_of_eq {n P j r : Nat} (h : n % P + j = P + r) (hr : r < P) : (n + j) % P = r := by
  have hn := Nat.div_add_mod n P
  have hsum : n + j = P * (n / P + 1) + r := by
    rw [Nat.mul_add, Nat.mul_one]
    omega
  rw [hsum, Nat.mul_add_mod, Nat.mod_eq_of_lt hr]

namespace WayPointInfo

variable {P : Type*} {W : WayPointInfo P} {n len k : Nat} {idx : Int}

/-! ## The index -/

/-- The index after `n` stops. -/
def At (W : WayPointInfo P) (n : Nat) (idx : Int) : Prop :=
  if W.way_point_type = 1 then
    let period := 2 * (W.vWayPoint.length - 1)
    (n % period ≤ W.vWayPoint.length - 1 ∧ idx = (n % period : Nat)) ∨
      (W.vWayPoint.length - 1 ≤ n % period ∧ idx = (n % period : Nat) - (period : Nat))
  else idx = (n % W.vWayPoint.length : Nat) ∨ (idx = -1 ∧ n % W.vWayPoint.length = W.vWayPoint.length - 1)

/-- The index after `n` stops with `len` points ahead: a leg ends with the last way point, or with the first on the way back. -/
def Leg (W : WayPointInfo P) (n len : Nat) (idx : Int) : Prop :=
  W.At n idx ∧
    if W.way_point_type = 1 then
      let period := 2 * (W.vWayPoint.length - 1)
      (0 ≤ idx ∧ n % period + len = W.vWayPoint.length - 1) ∨ (idx < 0 ∧ n % period + len = period)
    else idx + len = W.lwpi

theorem length_pos (W : WayPointInfo P) : 0 < W.vWayPoint.length := List.length_pos_iff.mpr W.nonempty

theorem stop_lt (hW : ¬(W.way_point_type = 1 ∧ W.vWayPoint.length = 1)) (k : Nat) : W.stop k < W.vWayPoint.length := by
  have hpos := W.length_pos
  unfold stop
  split_ifs with htype
  · have hlength : W.vWayPoint.length ≠ 1 := fun h => hW ⟨htype, h⟩
    have hmod := Nat.mod_lt k (show 0 < 2 * (W.vWayPoint.length - 1) by omega)
    dsimp only
    split_ifs
    · omega
    · omega
  · exact Nat.mod_lt k hpos

theorem indices_eq {last : Int} (h : ∀ i : Nat, i < (last - idx).toNat → (idx + 1 + (i : Int)).natAbs = W.stop (n + 1 + i)) :
    indices idx last = W.stops (n + 1) (last - idx).toNat := by
  unfold indices stops
  rw [List.range'_eq_map_range, List.map_map]
  refine List.map_congr_left fun i hi => ?_
  exact h i (List.mem_range.mp hi)

theorem length_stops (W : WayPointInfo P) (k n : Nat) : (W.stops k n).length = n := by
  rw [stops, List.length_map, List.length_range']

theorem stop_round (htype : W.way_point_type ≠ 1) : W.stop k = k % W.vWayPoint.length := if_neg htype

theorem stop_back (htype : W.way_point_type = 1) :
    W.stop k = if k % (2 * (W.vWayPoint.length - 1)) ≤ W.vWayPoint.length - 1 then k % (2 * (W.vWayPoint.length - 1))
      else 2 * (W.vWayPoint.length - 1) - k % (2 * (W.vWayPoint.length - 1)) := if_pos htype

theorem at_round (htype : W.way_point_type ≠ 1) :
    W.At n idx ↔ idx = (n % W.vWayPoint.length : Nat) ∨ (idx = -1 ∧ n % W.vWayPoint.length = W.vWayPoint.length - 1) := by
  rw [At, if_neg htype]

theorem at_back (htype : W.way_point_type = 1) :
    W.At n idx ↔ (n % (2 * (W.vWayPoint.length - 1)) ≤ W.vWayPoint.length - 1 ∧
      idx = (n % (2 * (W.vWayPoint.length - 1)) : Nat)) ∨ (W.vWayPoint.length - 1 ≤ n % (2 * (W.vWayPoint.length - 1)) ∧
      idx = (n % (2 * (W.vWayPoint.length - 1)) : Nat) - (2 * (W.vWayPoint.length - 1) : Nat)) := by
  rw [At, if_pos htype]

theorem leg_round (htype : W.way_point_type ≠ 1) : W.Leg n len idx ↔ W.At n idx ∧ idx + len = W.vWayPoint.length - 1 := by
  rw [Leg, if_neg htype]
  rfl

theorem leg_back (htype : W.way_point_type = 1) :
    W.Leg n len idx ↔ W.At n idx ∧
      ((0 ≤ idx ∧ n % (2 * (W.vWayPoint.length - 1)) + len = W.vWayPoint.length - 1) ∨
        (idx < 0 ∧ n % (2 * (W.vWayPoint.length - 1)) + len = 2 * (W.vWayPoint.length - 1))) := by
  rw [Leg, if_pos htype]

/-- The path from an index is a leg of the patrol. -/
structure StartsLeg (W : WayPointInfo P) (n : Nat) (idx : Int) : Prop where
  lt : idx < W.lastIndex idx
  leg : W.Leg n (W.lastIndex idx - idx).toNat idx
  stop : ∀ i : Nat, i < (W.lastIndex idx - idx).toNat → (idx + 1 + (i : Int)).natAbs = W.stop (n + 1 + i)

/-- Round and round: after the last way point comes the first. -/
theorem startsLeg_round (htype : W.way_point_type ≠ 1) (h : W.At n idx) : W.StartsLeg n (W.turned idx) := by
  have hpos := W.length_pos
  have hmod := Nat.mod_lt n hpos
  have hlast : ∀ i, W.lastIndex i = W.vWayPoint.length - 1 := fun i => if_neg fun h => htype h.1
  have hturned : W.turned idx = if idx ≥ W.vWayPoint.length - 1 then -1 else idx := by
    unfold turned lwpi
    rw [if_neg htype]
  have hat := (at_round htype).mp h
  by_cases hend : n % W.vWayPoint.length = W.vWayPoint.length - 1
  · have hfirst : W.turned idx = -1 := by
      rw [hturned]
      split_ifs <;> omega
    rw [hfirst]
    refine ⟨?_, ?_, fun i hi => ?_⟩
    · rw [hlast]
      omega
    · rw [leg_round htype, at_round htype, hlast]
      exact ⟨.inr ⟨rfl, hend⟩, by omega⟩
    · rw [hlast] at hi
      rw [stop_round htype, Nat.add_assoc, mod_add_of_eq (r := i) (by omega) (by omega)]
      omega
  · have hidx : idx = (n % W.vWayPoint.length : Nat) := hat.resolve_right fun h => hend h.2
    have hsame : W.turned idx = idx := by
      rw [hturned, if_neg (by omega)]
    rw [hsame]
    refine ⟨?_, ?_, fun i hi => ?_⟩
    · rw [hlast]
      omega
    · rw [leg_round htype, hlast]
      exact ⟨h, by omega⟩
    · rw [hlast] at hi
      rw [stop_round htype, Nat.add_assoc, mod_add_of_lt (by omega)]
      omega

/-- Forth and back: the sign of the index turns at the last way point. -/
theorem startsLeg_back (htype : W.way_point_type = 1) (hlength : W.vWayPoint.length ≠ 1) (h : W.At n idx) :
    W.StartsLeg n (W.turned idx) := by
  have hpos := W.length_pos
  have hmod := Nat.mod_lt n (show 0 < 2 * (W.vWayPoint.length - 1) by omega)
  have hlast : ∀ i, W.lastIndex i = if i < 0 then (0 : Int) else (W.vWayPoint.length : Int) - 1 := fun i => by
    unfold lastIndex lwpi
    simp only [htype, true_and]
  have hturned : W.turned idx = if idx ≥ W.vWayPoint.length - 1 then -(W.vWayPoint.length - 1 : Int) else idx := by
    unfold turned lwpi
    rw [if_pos htype]
  have hat := (at_back htype).mp h
  by_cases hback : W.vWayPoint.length - 1 ≤ n % (2 * (W.vWayPoint.length - 1))
  · have hnegative : W.turned idx = (n % (2 * (W.vWayPoint.length - 1)) : Nat) - (2 * (W.vWayPoint.length - 1) : Nat) := by
      rw [hturned]
      split_ifs <;> omega
    rw [hnegative]
    refine ⟨?_, ?_, fun i hi => ?_⟩
    · rw [hlast, if_pos (by omega)]
      omega
    · rw [leg_back htype, at_back htype, hlast, if_pos (by omega)]
      exact ⟨.inr ⟨hback, rfl⟩, .inr ⟨by omega, by omega⟩⟩
    · rw [hlast, if_pos (by omega)] at hi
      rw [stop_back htype, Nat.add_assoc]
      by_cases hend : n % (2 * (W.vWayPoint.length - 1)) + (1 + i) = 2 * (W.vWayPoint.length - 1)
      · rw [mod_add_of_eq (r := 0) hend (by omega), if_pos (Nat.zero_le _)]
        omega
      · rw [mod_add_of_lt (by omega), if_neg (by omega)]
        omega
  · have hidx : idx = (n % (2 * (W.vWayPoint.length - 1)) : Nat) := by omega
    have hsame : W.turned idx = idx := by
      rw [hturned, if_neg (by omega)]
    rw [hsame]
    refine ⟨?_, ?_, fun i hi => ?_⟩
    · rw [hlast, if_neg (by omega)]
      omega
    · rw [leg_back htype, hlast, if_neg (by omega)]
      exact ⟨h, .inl ⟨by omega, by omega⟩⟩
    · rw [hlast, if_neg (by omega)] at hi
      rw [stop_back htype, Nat.add_assoc, mod_add_of_lt (by omega), if_pos (by omega)]
      omega

theorem startsLeg (hW : ¬(W.way_point_type = 1 ∧ W.vWayPoint.length = 1)) (h : W.At n idx) : W.StartsLeg n (W.turned idx) := by
  by_cases htype : W.way_point_type = 1
  · exact startsLeg_back htype (fun hlength => hW ⟨htype, hlength⟩) h
  · exact startsLeg_round htype h

theorem stops_lt (hW : ¬(W.way_point_type = 1 ∧ W.vWayPoint.length = 1)) : ∀ i ∈ W.stops k n, i < W.vWayPoint.length := by
  intro i hi
  obtain ⟨j, _, rfl⟩ := List.mem_map.mp hi
  exact stop_lt hW j

/-- The path of a monster that stands after `n` stops has the stops of a leg, at least one. -/
theorem path_eq (hW : ¬(W.way_point_type = 1 ∧ W.vWayPoint.length = 1)) (h : W.At n idx) :
    ∃ len, 0 < len ∧ W.path idx = some (W.stops (n + 1) len) ∧ W.Leg n len (W.turned idx) := by
  obtain ⟨hlt, hleg, hstop⟩ := startsLeg hW h
  refine ⟨_, ?_, ?_, hleg⟩
  · omega
  · unfold path
    rw [indices_eq hstop]
    refine if_pos (List.all_eq_true.mpr fun i hi => decide_eq_true (stops_lt hW i hi))

theorem stops_take (hk : k ≤ len) : (W.stops n len).take k = W.stops n k := by
  unfold stops
  rw [← List.map_take, List.take_range'_of_length_ge hk]

theorem stops_drop : (W.stops n len).drop k = W.stops (n + k) (len - k) := by
  unfold stops
  rw [← List.map_drop, List.drop_range', Nat.mul_one]

theorem stops_append (j : Nat) : W.stops n k ++ W.stops (n + k) j = W.stops n (k + j) := by
  unfold stops
  rw [← List.map_append, List.range'_append_1]

/-- The index somewhere on a leg, `len` points before its end: the sign stays until the leg ends. -/
structure Along (W : WayPointInfo P) (n len : Nat) (idx : Int) : Prop where
  reached : W.At n idx
  leg : 0 < len → W.Leg n len idx

theorem Leg.along_round (htype : W.way_point_type ≠ 1) (h : W.Leg n len idx) (hk : k ≤ len) :
    W.Along (n + k) (len - k) (W.walkedIndex idx (len - k)) := by
  have hpos := W.length_pos
  have hmod := Nat.mod_lt n hpos
  obtain ⟨hat, hlen⟩ := (leg_round htype).mp h
  have hwalked : W.walkedIndex idx (len - k) = idx + k := by
    rw [walkedIndex, if_neg fun h => htype h.2]
    omega
  have hreached : W.At (n + k) (idx + k) := by
    rw [at_round htype] at hat ⊢
    rcases hat with rfl | ⟨rfl, hend⟩
    · rw [mod_add_of_lt (by omega)]
      exact .inl (by omega)
    · cases k with
      | zero => exact .inr ⟨by omega, hend⟩
      | succ k =>
        rw [mod_add_of_eq (r := k) (by omega) (by omega)]
        exact .inl (by omega)
  rw [hwalked]
  exact ⟨hreached, fun _ => (leg_round htype).mpr ⟨hreached, by omega⟩⟩

theorem Leg.along_back (htype : W.way_point_type = 1) (hlength : W.vWayPoint.length ≠ 1) (h : W.Leg n len idx) (hk : k ≤ len) :
    W.Along (n + k) (len - k) (W.walkedIndex idx (len - k)) := by
  have hpos := W.length_pos
  have hmod := Nat.mod_lt n (show 0 < 2 * (W.vWayPoint.length - 1) by omega)
  obtain ⟨hat, hlen⟩ := (leg_back htype).mp h
  rw [at_back htype] at hat
  have hwalked : W.walkedIndex idx (len - k) = idx + k := by
    unfold walkedIndex
    split_ifs <;> omega
  rw [hwalked]
  by_cases hhome : n % (2 * (W.vWayPoint.length - 1)) + k = 2 * (W.vWayPoint.length - 1)
  · refine ⟨?_, fun _ => ?_⟩
    · rw [at_back htype, mod_add_of_eq (r := 0) hhome (by omega)]
      exact .inl ⟨Nat.zero_le _, by omega⟩
    · omega
  · have hsum := mod_add_of_lt (n := n) (j := k) (P := 2 * (W.vWayPoint.length - 1)) (by omega)
    refine ⟨?_, fun _ => ?_⟩
    · rw [at_back htype, hsum]
      omega
    · rw [leg_back htype, at_back htype, hsum]
      exact ⟨by omega, by omega⟩

theorem Leg.along (hW : ¬(W.way_point_type = 1 ∧ W.vWayPoint.length = 1)) (h : W.Leg n len idx) (hk : k ≤ len) :
    W.Along (n + k) (len - k) (W.walkedIndex idx (len - k)) := by
  by_cases htype : W.way_point_type = 1
  · exact h.along_back htype (fun hlength => hW ⟨htype, hlength⟩) hk
  · exact h.along_round htype hk

/-! ## Runs -/

/-- What every event of a run keeps. -/
structure Follows (W : WayPointInfo P) (hist : History Patroller PatrolEvent) (s : Patroller) : Prop where
  visited : visited hist = W.stops 1 (visited hist).length
  reached : W.At (WayPointInfo.visited hist).length s.m_nWayPointIdx
  ahead : s.onPatrol = true → s.bIsMoving = true →
    s.ends = W.stops ((WayPointInfo.visited hist).length + 1) s.ends.length ∧
      W.Leg (WayPointInfo.visited hist).length s.ends.length s.m_nWayPointIdx

variable {hist : History Patroller PatrolEvent} {s t : Patroller}

theorem follows_init (W : WayPointInfo P) : W.Follows [] ⟨0, false, [], true⟩ := by
  refine ⟨rfl, ?_, fun _ h => nomatch h⟩
  by_cases htype : W.way_point_type = 1
  · rw [at_back htype]
    exact .inl ⟨by simp [WayPointInfo.visited], by simp [WayPointInfo.visited]⟩
  · rw [at_round htype]
    exact .inl (by simp [WayPointInfo.visited])

theorem Follows.processMove (hW : ¬(W.way_point_type = 1 ∧ W.vWayPoint.length = 1)) (h : W.Follows hist s)
    (ht : W.processMove s = some t) : W.Follows (⟨s, .processMove, t⟩ :: hist) t := by
  obtain ⟨len, _, hpath, hleg⟩ := path_eq hW h.reached
  rw [WayPointInfo.processMove, hpath] at ht
  obtain rfl := Option.some.inj ht
  refine ⟨h.visited, hleg.1, fun _ _ => ?_⟩
  simp only [length_stops]
  exact ⟨rfl, hleg⟩

/-- `processWalk` of a monster on its patrol. -/
theorem Follows.processWalk (hW : ¬(W.way_point_type = 1 ∧ W.vWayPoint.length = 1)) (h : W.Follows hist s)
    (hpatrol : s.onPatrol = true) (hmoving : s.bIsMoving = true) {k : Nat} (hk : k ≤ s.ends.length) :
    W.Follows (⟨s, .processWalk k, W.processWalk s (s.ends.drop k)⟩ :: hist) (W.processWalk s (s.ends.drop k)) := by
  obtain ⟨hends, hleg⟩ := h.ahead hpatrol hmoving
  obtain ⟨hreached, hahead⟩ := hleg.along hW hk
  have hvisited : WayPointInfo.visited (⟨s, .processWalk k, W.processWalk s (s.ends.drop k)⟩ :: hist) =
      W.stops 1 ((WayPointInfo.visited hist).length + k) := by
    rw [WayPointInfo.visited, if_pos hpatrol, hends, stops_take hk]
    nth_rewrite 1 [h.visited]
    rw [Nat.add_comm _ 1, stops_append]
  have hlength := congrArg List.length hvisited
  rw [length_stops] at hlength
  refine ⟨?_, ?_, fun _ hmoves => ?_⟩
  · rw [hlength, hvisited]
  · rw [hlength, WayPointInfo.processWalk, if_pos hpatrol, List.length_drop]
    exact hreached
  · have hdrop : s.ends.drop k ≠ [] := of_decide_eq_true hmoves
    have hlt : 0 < s.ends.length - k := by
      rw [← List.length_drop]
      exact List.length_pos_iff.mpr hdrop
    rw [hlength, WayPointInfo.processWalk, if_pos hpatrol]
    simp only [List.length_drop]
    refine ⟨?_, hahead hlt⟩
    nth_rewrite 1 [hends]
    rw [stops_drop, Nat.add_right_comm]

theorem Follows.handle (hW : ¬(W.way_point_type = 1 ∧ W.vWayPoint.length = 1)) (h : W.Follows hist s) {e : PatrolEvent}
    (ht : W.handle s e = some t) : W.Follows (⟨s, e, t⟩ :: hist) t := by
  cases e with
  | processMove =>
    rw [WayPointInfo.handle] at ht
    split_ifs at ht
    exact h.processMove hW ht
  | processWalk k =>
    rw [WayPointInfo.handle] at ht
    split_ifs at ht with hwalk
    obtain rfl := Option.some.inj ht
    by_cases hpatrol : s.onPatrol = true
    · exact h.processWalk hW hpatrol hwalk.1 hwalk.2
    · have hvisited : WayPointInfo.visited (⟨s, .processWalk k, W.processWalk s (s.ends.drop k)⟩ :: hist) =
          WayPointInfo.visited hist := by
        rw [WayPointInfo.visited, if_neg hpatrol, List.append_nil]
      refine ⟨?_, ?_, fun h => absurd h hpatrol⟩
      · rw [hvisited]
        exact h.visited
      · rw [hvisited, WayPointInfo.processWalk, if_neg hpatrol]
        exact h.reached
  | drawnOff ends =>
    obtain rfl := Option.some.inj ht
    exact ⟨h.visited, h.reached, fun h => nomatch h⟩
  | resume =>
    rw [WayPointInfo.handle] at ht
    split_ifs at ht
    obtain rfl := Option.some.inj ht
    exact ⟨h.visited, h.reached, fun _ h => nomatch h⟩

theorem Follows.patrolRight (hW : ¬(W.way_point_type = 1 ∧ W.vWayPoint.length = 1)) (h : W.Follows hist s) :
    W.PatrolRight hist s := by
  refine ⟨h.visited, fun _ _ => ?_⟩
  obtain ⟨len, hlen, hpath, _⟩ := path_eq hW h.reached
  refine ⟨_, hpath, fun hnil => ?_, ?_, stops_lt hW⟩
  · have hzero := congrArg List.length hnil
    rw [length_stops, List.length_nil] at hzero
    omega
  · rw [length_stops]

/-- A patrol forth and back over a single way point has an empty path. -/
theorem path_single (htype : W.way_point_type = 1) (hlength : W.vWayPoint.length = 1) : W.path 0 = some [] := by
  have hturned : W.turned 0 = 0 := by
    simp only [turned, lwpi, hlength, htype, if_true]
    rfl
  have hlast : W.lastIndex 0 = 0 := by
    simp only [lastIndex, lwpi, hlength, htype]
    rfl
  rw [path, hturned, hlast]
  rfl

/-- **A monster patrols over its way points in their order exactly if they are not a single one with `way_point_type` 1.** -/
theorem patrolRight_iff (W : WayPointInfo P) :
    (∀ hist s, W.patrolSystem.Run hist s → W.PatrolRight hist s) ↔ ¬(W.way_point_type = 1 ∧ W.vWayPoint.length = 1) := by
  constructor
  · rintro h ⟨htype, hlength⟩
    obtain ⟨vMoveInfo, hpath, hne, _⟩ := (h [] ⟨0, false, [], true⟩ (.init rfl)).next rfl rfl
    rw [path_single htype hlength] at hpath
    exact hne (Option.some.inj hpath).symm
  · intro hW hist s hrun
    have hfollows : W.Follows hist s := by
      refine hrun.invariant (I := W.Follows) (fun s hs => ?_) fun hist s e t _ hI _ hstep => hI.handle hW hstep
      obtain rfl : s = ⟨0, false, [], true⟩ := hs
      exact follows_init W
    exact hfollows.patrolRight hW

/-- One way point to walk forth and back. -/
def singlePoint : WayPointInfo (Nat × Nat) where
  way_point_type := 1
  vWayPoint := [(100, 200)]
  nonempty := List.cons_ne_nil _ _

theorem not_patrolRight_singlePoint : ¬∀ hist s, singlePoint.patrolSystem.Run hist s → singlePoint.PatrolRight hist s := by
  intro h
  obtain ⟨vMoveInfo, hpath, hne, _⟩ := (h [] ⟨0, false, [], true⟩ (.init rfl)).next rfl rfl
  rw [path_single rfl rfl] at hpath
  exact hne (Option.some.inj hpath).symm

end WayPointInfo

end RZEmulator.Chihiro
