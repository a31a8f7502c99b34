import Mathlib.Analysis.Real.Sqrt
import Mathlib.Data.Nat.Bitwise
import RZEmulator.Lib.TimedPath

/-!
# Movement

The movement of an object: `ArMoveVector::SetMove` and `SetMultipleMove` set the points to be reached and the time of
each, `Step` brings the object to where it is at a time. Coordinates and times are exact numbers of an ordered field
with a square root; the layer and the direction an object faces are left out.

`sampling_iff`: stepping at any times leaves what one step at the last of them leaves, unless the object is looked at
just when it passes its last point on the way.
-/

namespace RZEmulator.Chihiro

open Lib

structure Position (K : Type*) where
  m_positionX : K
  m_positionY : K
  m_positionZ : K
deriving DecidableEq

structure MoveInfo (K : Type*) where
  end_position : Position K
  end_time : K
deriving DecidableEq

structure ArMoveVector (K : Type*) extends Position K where
  bIsMoving : Bool
  bWithZMoving : Bool
  speed : UInt8
  start_time : K
  proc_time : K
  ends : List (MoveInfo K)

namespace ArMoveVector

variable {K : Type*} [Field K] [LinearOrder K]

/-! ## Steps -/

/-- The part `fet` of the way; the height follows only with `bWithZMoving`. -/
def toward (bWithZMoving : Bool) (p q : Position K) (fet : K) : Position K where
  m_positionX := (q.m_positionX - p.m_positionX) * fet + p.m_positionX
  m_positionY := (q.m_positionY - p.m_positionY) * fet + p.m_positionY
  m_positionZ := if bWithZMoving then (q.m_positionZ - p.m_positionZ) * fet + p.m_positionZ else p.m_positionZ

/-- The loop of `Step` over the points ahead: the position, and the points that were reached. -/
def moveLoop (bWithZMoving : Bool) (current_time : K) :
    Position K → K → List (MoveInfo K) → Position K × List (MoveInfo K)
  | p, _, [] => (p, [])
  | p, proc_time, info :: rest =>
    if current_time < info.end_time then
      (toward bWithZMoving p info.end_position ((current_time - proc_time) / (info.end_time - proc_time)), [])
    else
      let r := moveLoop bWithZMoving current_time info.end_position info.end_time rest
      (r.1, info :: r.2)

/-- `ArMoveVector::Step`. -/
def step (v : ArMoveVector K) (current_time : K) : ArMoveVector K × Bool :=
  if v.proc_time < current_time ∧ v.bIsMoving then
    let r := moveLoop v.bWithZMoving current_time v.toPosition v.proc_time v.ends
    -- what was reached is erased by value
    let ends := v.ends.filter fun info => info ∉ r.2
    let v := { v with toPosition := r.1, proc_time := current_time, ends := ends }
    if ends = [] ∨ ∃ info ∈ ends.getLast?, r.1 = info.end_position then
      ({ v with bIsMoving := false, ends := [] }, true)
    else (v, false)
  else (v, false)

def getTargetPos (v : ArMoveVector K) : Position K :=
  match v.ends.getLast? with
  | some info => info.end_position
  | none => v.toPosition

/-- `WorldObject::Step`; an object that has arrived has no points left, so its target is where it is. -/
def worldStep (v : ArMoveVector K) (tm : K) : ArMoveVector K :=
  if (v.step tm).2 then { (v.step tm).1 with toPosition := (v.step tm).1.getTargetPos } else (v.step tm).1

/-- `WorldObject::GetCurrentPosition`: a copy is stepped. -/
def getCurrentPosition (v : ArMoveVector K) (IsInWorld : Bool) (t : K) : Position K :=
  if v.bIsMoving ∧ IsInWorld then (v.step t).1.toPosition else v.toPosition

/-! ## Orders -/

/-- The times at which the points are reached, one leg after the other. -/
def timetable (sqrt : K → K) (speed : UInt8) : K → K → K → List (Position K) → List (MoveInfo K)
  | _, _, _, [] => []
  | before_x, before_y, start_time2, pos :: rest =>
    let cx := pos.m_positionX - before_x
    let cy := pos.m_positionY - before_y
    let end_time := sqrt (cy * cy + cx * cx) / (speed.toNat / 30) + start_time2
    ⟨pos, end_time⟩ :: timetable sqrt speed pos.m_positionX pos.m_positionY end_time rest

variable (sqrt : K → K) (GetArTime : Nat)

def setMultipleMove (v : ArMoveVector K) (_to : List (Position K)) (_speed : UInt8) (_start_time : Nat) :
    ArMoveVector K :=
  if _to = [] then { v with ends := [] }
  else
    let ct := if _start_time = 0 then GetArTime else _start_time
    { v with
      speed := _speed
      start_time := ct
      proc_time := ct
      ends := timetable sqrt _speed v.m_positionX v.m_positionY ct _to
      bIsMoving := true }

/-- A start time in the upper half of its range is moved on by `2 ^ 32`. -/
def setMove (v : ArMoveVector K) (_to : Position K) (_speed : UInt8) (_start_time : Nat) : ArMoveVector K :=
  let st := if _start_time = 0 then GetArTime else _start_time
  let X := _to.m_positionX - v.m_positionX
  let Y := _to.m_positionY - v.m_positionY
  let v9 := sqrt (Y * Y + X * X) / (_speed.toNat / 30)
  let v10 : K := if st.testBit 31 then st + 4294967296 else st
  { v with
    speed := _speed
    start_time := st
    proc_time := st
    ends := [⟨_to, v9 + v10⟩]
    bIsMoving := true }

end ArMoveVector

/-- A movement to be set. -/
inductive MoveOrder (K : Type*) where
  | move (_to : Position K)
  | multipleMove (_to : List (Position K))

namespace ArMoveVector

variable {K : Type*} [Field K] [LinearOrder K]

def set (sqrt : K → K) (GetArTime : Nat) (v : ArMoveVector K) (_speed : UInt8) (_start_time : Nat) :
    MoveOrder K → ArMoveVector K
  | .move _to => v.setMove sqrt GetArTime _to _speed _start_time
  | .multipleMove _to => v.setMultipleMove sqrt GetArTime _to _speed _start_time

/-! ## The claim -/

/-- What stepping at these times leaves. -/
def stepAll (v : ArMoveVector K) (ts : List K) : ArMoveVector K := ts.foldl (fun v t => (v.step t).1) v

/-- The same position, the same points ahead and the same moving flag. -/
def SameMotion (v w : ArMoveVector K) : Prop :=
  v.toPosition = w.toPosition ∧ v.ends = w.ends ∧ v.bIsMoving = w.bIsMoving

/-- The samples show the movement: they leave what one step leaves, the object does not stop before its last point,
and in the plane it is nowhere faster than its speed, so that it never jumps. -/
structure Sampled (v : ArMoveVector K) (ts : List K) : Prop where
  same : ∀ t ∈ ts.getLast?, SameMotion (v.stepAll ts) (v.step t).1
  moving : ∀ pre, pre <+: ts → (∀ info ∈ v.ends.getLast?, ∀ t ∈ pre, t < info.end_time) →
    (v.stepAll pre).bIsMoving = true
  smooth : ∀ t t', t ≤ t' →
    |(v.step t').1.m_positionX - (v.step t).1.m_positionX| ≤ v.speed.toNat / 30 * (t' - t) ∧
      |(v.step t').1.m_positionY - (v.step t).1.m_positionY| ≤ v.speed.toNat / 30 * (t' - t)

/-- Where the object is at a time, and what is ahead of it then. -/
def whereAt (v : ArMoveVector K) (t : K) : Position K × List (MoveInfo K) :=
  TimedPath.locate MoveInfo.end_position MoveInfo.end_time (toward v.bWithZMoving) t v.toPosition v.proc_time v.ends

/-- At a time on the way the object is not where it is to arrive. -/
def NotAtEnd (v : ArMoveVector K) (t : K) : Prop :=
  v.proc_time < t → ∀ info ∈ v.ends.getLast?, t < info.end_time → (v.whereAt t).1 ≠ info.end_position

/-- What the square root is used for. -/
structure SquareRoot (sqrt : K → K) : Prop where
  nonneg : ∀ x, 0 ≤ sqrt x
  mul_self : ∀ x, 0 ≤ x → sqrt x * sqrt x = x

def waypoints : MoveOrder K → List (Position K)
  | .move _to => [_to]
  | .multipleMove _to => _to

/-! ## One step -/

variable {v w : ArMoveVector K} {t t' : K} {ts : List K}

theorem moveLoop_eq (z : Bool) (p : Position K) (s : K) (l : List (MoveInfo K)) : ∃ removed,
    moveLoop z t p s l =
      ((TimedPath.locate MoveInfo.end_position MoveInfo.end_time (toward z) t p s l).1, removed) ∧
    l = removed ++ (TimedPath.locate MoveInfo.end_position MoveInfo.end_time (toward z) t p s l).2 := by
  induction l generalizing p s with
  | nil => exact ⟨[], rfl, rfl⟩
  | cons info l ih =>
    by_cases h : t < info.end_time
    · rw [TimedPath.locate_cons_of_lt h]
      exact ⟨[], if_pos h, rfl⟩
    · rw [TimedPath.locate_cons_of_le (not_lt.mp h)]
      obtain ⟨removed, heq, happend⟩ := ih info.end_position info.end_time
      refine ⟨info :: removed, ?_, congrArg (info :: ·) happend⟩
      rw [moveLoop, if_neg h, heq]

/-- A movement under way: some points are ahead, with times that never go back. -/
structure Steady (v : ArMoveVector K) : Prop where
  moving : v.bIsMoving = true
  ahead : v.ends ≠ []
  timed : TimedPath.Timed MoveInfo.end_time v.proc_time v.ends

theorem step_of_le (ht : t ≤ v.proc_time) : (v.step t).1 = v := by
  unfold step
  rw [if_neg fun h => absurd h.1 (not_lt.mpr ht)]

theorem step_of_stopped (h : v.bIsMoving = false) : (v.step t).1 = v := by
  unfold step
  rw [if_neg (by simp [h])]

theorem getCurrentPosition_eq : v.getCurrentPosition true t = (v.step t).1.toPosition := by
  unfold getCurrentPosition
  split_ifs with h
  · rfl
  · rw [step_of_stopped (by simpa using h)]

/-- The step of a world object adds nothing. -/
theorem worldStep_eq : v.worldStep t = (v.step t).1 := by
  unfold worldStep
  split_ifs with harrived
  · have hends : (v.step t).1.ends = [] := by
      unfold step at harrived ⊢
      split_ifs at harrived ⊢ with hmoving
      dsimp only at harrived ⊢
      split_ifs at harrived ⊢
      rfl
    have htarget : (v.step t).1.getTargetPos = (v.step t).1.toPosition := by
      unfold getTargetPos
      rw [hends]
      rfl
    rw [htarget]
  · rfl

theorem exists_passed (hv : v.Steady) (t : K) : ∃ passed, v.ends = passed ++ (v.whereAt t).2 ∧
    (∀ info ∈ passed, info.end_time ≤ t) ∧ ∀ info ∈ (v.whereAt t).2, t < info.end_time :=
  TimedPath.exists_passed hv.timed

theorem step_of_lt (hv : v.Steady) (ht : v.proc_time < t) :
    v.step t = if (v.whereAt t).2 = [] ∨ ∃ info ∈ (v.whereAt t).2.getLast?, (v.whereAt t).1 = info.end_position then
      ({ v with toPosition := (v.whereAt t).1, proc_time := t, ends := [], bIsMoving := false }, true)
    else ({ v with toPosition := (v.whereAt t).1, proc_time := t, ends := (v.whereAt t).2 }, false) := by
  obtain ⟨removed, hloop, happend⟩ := moveLoop_eq (t := t) v.bWithZMoving v.toPosition v.proc_time v.ends
  obtain ⟨passed, heq, hpassed, hahead⟩ := exists_passed hv t
  have hremoved : removed = passed := List.append_cancel_right (happend.symm.trans heq)
  have hfilter : (v.ends.filter fun info => info ∉ removed) = (v.whereAt t).2 := by
    rw [heq, hremoved, List.filter_append, List.filter_eq_nil_iff.mpr fun info h => by simpa using h,
      List.nil_append]
    apply List.filter_eq_self.mpr
    exact fun info h => decide_eq_true fun hc => absurd (hpassed info hc) (not_le.mpr (hahead info h))
  unfold step
  rw [if_pos ⟨ht, hv.moving⟩, hloop]
  dsimp only
  rw [hfilter]
  rfl

/-- A look on the way sees what is ahead to the end. -/
theorem getLast_ahead (hv : v.Steady) (h : (v.whereAt t).2 ≠ []) : (v.whereAt t).2.getLast? = v.ends.getLast? := by
  obtain ⟨passed, heq, -, -⟩ := exists_passed hv t
  rw [heq, List.getLast?_append_of_ne_nil passed h]

theorem ahead_eq_nil_iff (hv : v.Steady) :
    (v.whereAt t).2 = [] ↔ ∀ info ∈ v.ends.getLast?, info.end_time ≤ t := by
  obtain ⟨passed, heq, hpassed, hahead⟩ := exists_passed hv t
  constructor
  · intro hnil info hinfo
    rw [hnil, List.append_nil] at heq
    exact hpassed info (heq ▸ List.mem_of_getLast? hinfo)
  · intro hall
    by_contra hne
    have hlast := List.getLast?_eq_some_getLast hne
    have hle := hall _ (getLast_ahead hv hne ▸ hlast)
    exact absurd hle (not_le.mpr (hahead _ (List.mem_of_getLast? hlast)))

/-- A step that is not the last leaves a movement under way. -/
theorem step_on_way (hv : v.Steady) (ht : v.proc_time < t) (hahead : (v.whereAt t).2 ≠ []) (hnot : v.NotAtEnd t) :
    (v.step t).1 = { v with toPosition := (v.whereAt t).1, proc_time := t, ends := (v.whereAt t).2 } := by
  rw [step_of_lt hv ht, if_neg]
  rintro (hnil | ⟨info, hinfo, hat⟩)
  · exact hahead hnil
  · obtain ⟨passed, -, -, hlater⟩ := exists_passed hv t
    exact hnot ht info (getLast_ahead hv hahead ▸ hinfo) (hlater info (List.mem_of_getLast? hinfo)) hat

theorem step_arrived (hv : v.Steady) (ht : v.proc_time < t) (hahead : (v.whereAt t).2 = []) : (v.step t).1 =
    { v with toPosition := (v.whereAt t).1, proc_time := t, ends := [], bIsMoving := false } := by
  rw [step_of_lt hv ht, if_pos (.inl hahead)]

omit [LinearOrder K] in
theorem mixing (z : Bool) : TimedPath.Mixing (toward (K := K) z) where
  zero p w := by
    unfold toward
    simp
  comp p w a b := by
    unfold toward
    cases z
    · simp only [Position.mk.injEq, Bool.false_eq_true, if_false, and_true]
      constructor <;> ring
    · simp only [Position.mk.injEq, if_true]
      refine ⟨?_, ?_, ?_⟩ <;> ring

theorem Steady.look (hv : v.Steady) (hahead : (v.whereAt t).2 ≠ []) :
    Steady { v with toPosition := (v.whereAt t).1, proc_time := t, ends := (v.whereAt t).2 } where
  moving := hv.moving
  ahead := hahead
  timed := hv.timed.locate

theorem stepAll_of_stopped (h : v.bIsMoving = false) : v.stepAll ts = v := by
  induction ts with
  | nil => rfl
  | cons t ts ih =>
    show stepAll (v.step t).1 ts = v
    rw [step_of_stopped h, ih]

omit [Field K] [LinearOrder K] in
theorem SameMotion.trans {u : ArMoveVector K} (h : SameMotion v w) (h' : SameMotion w u) : SameMotion v u :=
  ⟨h.1.trans h'.1, h.2.1.trans h'.2.1, h.2.2.trans h'.2.2⟩

variable [IsStrictOrderedRing K]

/-- Looked at later from where it was found, the object is where it would have been. -/
theorem whereAt_of_look (hv : v.Steady) (hs : v.proc_time ≤ t) (ht : t ≤ t') :
    whereAt { v with toPosition := (v.whereAt t).1, proc_time := t, ends := (v.whereAt t).2 } t' = v.whereAt t' :=
  TimedPath.locate_locate (mixing v.bWithZMoving) hv.timed hs ht

/-- A step from a look on the way is the step from the start. -/
theorem step_of_look (hv : v.Steady) (hs : v.proc_time < t) (ht : t ≤ t') (hahead : (v.whereAt t).2 ≠ [])
    (hnot : v.NotAtEnd t) : SameMotion ((v.step t).1.step t').1 (v.step t').1 := by
  rw [step_on_way hv hs hahead hnot]
  rcases ht.eq_or_lt with rfl | ht
  · rw [step_of_le le_rfl, step_on_way hv hs hahead hnot]
    exact ⟨rfl, rfl, rfl⟩
  · rw [step_of_lt (hv.look hahead) ht, step_of_lt hv (hs.trans ht), whereAt_of_look hv hs.le ht.le]
    split_ifs
    · exact ⟨rfl, rfl, rfl⟩
    · exact ⟨rfl, rfl, rfl⟩

theorem notAtEnd_look (hv : v.Steady) (hs : v.proc_time < t) (hahead : (v.whereAt t).2 ≠ []) (h : v.NotAtEnd t') :
    NotAtEnd { v with toPosition := (v.whereAt t).1, proc_time := t, ends := (v.whereAt t).2 } t' := by
  intro ht info hinfo hlt
  rw [whereAt_of_look hv hs.le (le_of_lt ht)]
  exact h (hs.trans ht) info (getLast_ahead hv hahead ▸ hinfo) hlt

/-! ## Samples -/

/-- Having arrived, the object is where one step at any later time brings it. -/
theorem step_of_arrival (hv : v.Steady) (hs : v.proc_time < t) (ht : t ≤ t') (hahead : (v.whereAt t).2 = []) :
    SameMotion (v.step t).1 (v.step t').1 := by
  have hlater : v.whereAt t' = v.whereAt t := by
    rw [← whereAt_of_look hv hs.le ht, hahead]
    exact Prod.ext rfl hahead.symm
  rw [step_arrived hv hs hahead, step_arrived hv (hs.trans_le ht) (hlater ▸ hahead), hlater]
  exact ⟨rfl, rfl, rfl⟩

theorem stepAll_sameMotion (hv : v.Steady) (hts : ts.Pairwise (· ≤ ·)) (hnot : ∀ t ∈ ts, v.NotAtEnd t) (hne : ts ≠ []) :
    SameMotion (v.stepAll ts) (v.step (ts.getLast hne)).1 := by
  induction ts generalizing v with
  | nil => exact absurd rfl hne
  | cons t ts ih =>
    obtain ⟨hle, hts⟩ := List.pairwise_cons.mp hts
    obtain ⟨hnott, hnots⟩ := List.forall_mem_cons.mp hnot
    show SameMotion (stepAll (v.step t).1 ts) _
    by_cases hnil : ts = []
    · subst hnil
      exact ⟨rfl, rfl, rfl⟩
    · rw [List.getLast_cons hnil]
      have hlast : t ≤ ts.getLast hnil := hle _ (List.getLast_mem hnil)
      rcases le_or_gt t v.proc_time with hs | hs
      · rw [step_of_le hs]
        exact ih hv hts hnots hnil
      · by_cases hahead : (v.whereAt t).2 = []
        · rw [stepAll_of_stopped (by rw [step_arrived hv hs hahead])]
          exact step_of_arrival hv hs hlast hahead
        · refine SameMotion.trans ?_ (step_of_look hv hs hlast hahead hnott)
          rw [step_on_way hv hs hahead hnott]
          exact ih (hv.look hahead) hts (fun t' ht' => notAtEnd_look hv hs hahead (hnots t' ht')) hnil

/-- Before the arrival the movement stays under way. -/
theorem moving_of_notAtEnd (hv : v.Steady) (hnot : ∀ t ∈ ts, v.NotAtEnd t)
    (hbefore : ∀ info ∈ v.ends.getLast?, ∀ t ∈ ts, t < info.end_time) : (v.stepAll ts).bIsMoving = true := by
  induction ts generalizing v with
  | nil => exact hv.moving
  | cons t ts ih =>
    obtain ⟨hnott, hnots⟩ := List.forall_mem_cons.mp hnot
    show (stepAll (v.step t).1 ts).bIsMoving = true
    rcases le_or_gt t v.proc_time with hs | hs
    · rw [step_of_le hs]
      exact ih hv hnots fun info hinfo t' ht' => hbefore info hinfo t' (List.mem_cons_of_mem _ ht')
    · have hahead : (v.whereAt t).2 ≠ [] := by
        intro hnil
        have hlast := List.getLast?_eq_some_getLast hv.ahead
        exact absurd ((ahead_eq_nil_iff hv).mp hnil _ hlast) (not_le.mpr (hbefore _ hlast t List.mem_cons_self))
      rw [step_on_way hv hs hahead hnott]
      apply ih (hv.look hahead) fun t' ht' => notAtEnd_look hv hs hahead (hnots t' ht')
      intro info hinfo t' ht'
      exact hbefore info (getLast_ahead hv hahead ▸ hinfo) t' (List.mem_cons_of_mem _ ht')

omit [IsStrictOrderedRing K] in
/-- A look that does not stop the movement is a look on the way, and not at the end. -/
theorem on_way_of_moving (hv : v.Steady) (hs : v.proc_time < t) (h : (v.step t).1.bIsMoving = true) :
    (v.whereAt t).2 ≠ [] ∧ v.NotAtEnd t := by
  rw [step_of_lt hv hs] at h
  split_ifs at h with hstop
  obtain ⟨hahead, hlast⟩ := not_or.mp hstop
  refine ⟨hahead, fun _ info hinfo _ hat => hlast ⟨info, ?_, hat⟩⟩
  exact getLast_ahead hv hahead ▸ hinfo

/-- If no sample up to `t` stops the movement, the object is not at the end at `t`. -/
theorem notAtEnd_of_moving (hv : v.Steady) (hle : ∀ t' ∈ ts, t' ≤ t)
    (h : ∀ pre, pre <+: ts ++ [t] → (v.stepAll pre).bIsMoving = true) : v.NotAtEnd t := by
  induction ts generalizing v with
  | nil => exact fun hs => (on_way_of_moving hv hs (h [t] (List.prefix_refl _))).2 hs
  | cons t₀ ts ih =>
    obtain ⟨hle₀, hle⟩ := List.forall_mem_cons.mp hle
    have hrest : ∀ pre, pre <+: ts ++ [t] → (stepAll (v.step t₀).1 pre).bIsMoving = true :=
      fun pre hpre => h (t₀ :: pre) (List.cons_prefix_cons.mpr ⟨rfl, hpre⟩)
    rcases le_or_gt t₀ v.proc_time with hs | hs
    · rw [step_of_le hs] at hrest
      exact ih hv hle hrest
    · obtain ⟨hahead, hnot⟩ := on_way_of_moving hv hs (hrest [] List.nil_prefix)
      rw [step_on_way hv hs hahead hnot] at hrest
      have hlater := ih (hv.look hahead) hle hrest
      rcases hle₀.eq_or_lt with rfl | hlt
      · exact hnot
      · intro _ info hinfo hbefore
        rw [← whereAt_of_look hv hs.le hlt.le]
        exact hlater hlt info (getLast_ahead hv hahead ▸ hinfo) hbefore

/-! ## Speed -/

/-- In the plane no leg is faster than the speed. -/
structure Paced (v : ArMoveVector K) : Prop where
  x : TimedPath.Paced MoveInfo.end_position MoveInfo.end_time Position.m_positionX
    ((v.speed.toNat : K) / 30) v.toPosition v.proc_time v.ends
  y : TimedPath.Paced MoveInfo.end_position MoveInfo.end_time Position.m_positionY
    ((v.speed.toNat : K) / 30) v.toPosition v.proc_time v.ends

omit [LinearOrder K] [IsStrictOrderedRing K] in
theorem m_positionX_toward (z : Bool) (p q : Position K) (a : K) : (toward z p q a).m_positionX =
    p.m_positionX + (q.m_positionX - p.m_positionX) * a := add_comm _ _

omit [LinearOrder K] [IsStrictOrderedRing K] in
theorem m_positionY_toward (z : Bool) (p q : Position K) (a : K) : (toward z p q a).m_positionY =
    p.m_positionY + (q.m_positionY - p.m_positionY) * a := add_comm _ _

omit [IsStrictOrderedRing K] in
theorem toPosition_step (hv : v.Steady) :
    (v.step t).1.toPosition = if v.proc_time < t then (v.whereAt t).1 else v.toPosition := by
  split_ifs with hs
  · rw [step_of_lt hv hs]
    split_ifs <;> rfl
  · rw [step_of_le (not_lt.mp hs)]

/-- A coordinate that is paced along the movement is paced over the samples. -/
theorem abs_step_sub_le {c : Position K → K} {rate : K}
    (hc : ∀ p q a, c (toward v.bWithZMoving p q a) = c p + (c q - c p) * a)
    (hv : v.Steady) (hrate : 0 ≤ rate) (hpaced : TimedPath.Paced MoveInfo.end_position MoveInfo.end_time c rate
      v.toPosition v.proc_time v.ends) (ht : t ≤ t') :
    |c (v.step t').1.toPosition - c (v.step t).1.toPosition| ≤ rate * (t' - t) := by
  rw [toPosition_step hv, toPosition_step hv]
  rcases le_or_gt t' v.proc_time with hs' | hs'
  · rw [if_neg (not_lt.mpr hs'), if_neg (not_lt.mpr (ht.trans hs')), sub_self, abs_zero]
    exact mul_nonneg hrate (sub_nonneg.mpr ht)
  · rw [if_pos hs']
    rcases le_or_gt t v.proc_time with hs | hs
    · rw [if_neg (not_lt.mpr hs)]
      apply (TimedPath.abs_locate_sub_le hc hpaced hrate hs'.le).trans
      exact mul_le_mul_of_nonneg_left (by linarith) hrate
    · rw [if_pos hs, ← whereAt_of_look hv hs.le ht]
      exact TimedPath.abs_locate_sub_le hc (hpaced.locate hc hs.le) hrate ht

/-- **Samples of a movement**: they show it unless one of them finds it at its end too early. -/
theorem sampled_iff (hv : v.Steady) (hpaced : v.Paced) (hts : ts.Pairwise (· ≤ ·)) :
    v.Sampled ts ↔ ∀ t ∈ ts, v.NotAtEnd t := by
  constructor
  · intro h t ht hs info hinfo hbefore
    obtain ⟨pre, post, rfl⟩ := List.append_of_mem ht
    have hle : ∀ t' ∈ pre, t' ≤ t := fun t' ht' =>
      (List.pairwise_append.mp hts).2.2 t' ht' t List.mem_cons_self
    refine notAtEnd_of_moving hv hle (fun pre' hpre' => ?_) hs info hinfo hbefore
    apply h.moving pre' (hpre'.trans ⟨post, by simp⟩)
    intro info' hinfo' t' ht'
    obtain rfl := Option.some.inj (hinfo.symm.trans hinfo')
    rcases List.mem_append.mp (hpre'.subset ht') with hmem | hmem
    · exact (hle t' hmem).trans_lt hbefore
    · exact (List.mem_singleton.mp hmem) ▸ hbefore
  · intro hnot
    have hrate : (0 : K) ≤ v.speed.toNat / 30 := div_nonneg (Nat.cast_nonneg _) (by norm_num)
    refine ⟨?_, ?_, ?_⟩
    · intro t ht
      obtain ⟨hne, rfl⟩ := List.mem_getLast?_eq_getLast ht
      exact stepAll_sameMotion hv hts hnot hne
    · intro pre hpre hbefore
      exact moving_of_notAtEnd hv (fun t ht => hnot t (hpre.subset ht)) hbefore
    · intro t t' ht
      exact ⟨abs_step_sub_le (m_positionX_toward v.bWithZMoving) hv hrate hpaced.x ht,
        abs_step_sub_le (m_positionY_toward v.bWithZMoving) hv hrate hpaced.y ht⟩

/-! ## Orders are movements -/

section

variable {sqrt : K → K} {_speed : UInt8} {GetArTime _start_time : Nat} {a b x y : K}

theorem SquareRoot.abs_le (hsqrt : SquareRoot sqrt) : |a| ≤ sqrt (b * b + a * a) := by
  have hsum : 0 ≤ b * b + a * a := add_nonneg (mul_self_nonneg b) (mul_self_nonneg a)
  apply abs_le_of_sq_le_sq _ (hsqrt.nonneg _)
  calc a ^ 2 = a * a := sq a
    _ ≤ b * b + a * a := le_add_of_nonneg_left (mul_self_nonneg b)
    _ = sqrt (b * b + a * a) ^ 2 := by rw [sq, hsqrt.mul_self _ hsum]

theorem SquareRoot.abs_le' (hsqrt : SquareRoot sqrt) : |b| ≤ sqrt (b * b + a * a) := by
  rw [add_comm]
  exact hsqrt.abs_le

theorem rate_pos (hspeed : 0 < _speed) : (0 : K) < _speed.toNat / 30 := by
  have : 0 < _speed.toNat := UInt8.lt_iff_toNat_lt.mp hspeed
  exact div_pos (Nat.cast_pos.mpr this) (by norm_num)

theorem timed_timetable (hsqrt : SquareRoot sqrt) (hspeed : 0 < _speed) (_to : List (Position K)) (s : K) :
    TimedPath.Timed MoveInfo.end_time s (timetable sqrt _speed x y s _to) := by
  induction _to generalizing x y s with
  | nil => trivial
  | cons pos rest ih =>
    exact ⟨le_add_of_nonneg_left (div_nonneg (hsqrt.nonneg _) (rate_pos hspeed).le), ih _⟩

/-- The time of a leg is its length over the speed, if not more. -/
theorem abs_le_leg (hspeed : 0 < _speed) {length s e : K} (h : |a| ≤ length) (he : s ≤ e) :
    |a| ≤ (_speed.toNat : K) / 30 * (length / (_speed.toNat / 30) + e - s) := by
  have hrate := rate_pos (K := K) hspeed
  calc |a| ≤ (_speed.toNat : K) / 30 * (length / (_speed.toNat / 30)) := by
        rw [mul_div_cancel₀ _ hrate.ne']
        exact h
    _ ≤ (_speed.toNat : K) / 30 * (length / (_speed.toNat / 30) + e - s) := by
        apply mul_le_mul_of_nonneg_left _ hrate.le
        linarith

theorem paced_timetable (hsqrt : SquareRoot sqrt) (hspeed : 0 < _speed) (_to : List (Position K)) (p : Position K)
    (s : K) : TimedPath.Paced MoveInfo.end_position MoveInfo.end_time Position.m_positionX
        ((_speed.toNat : K) / 30) p s (timetable sqrt _speed p.m_positionX p.m_positionY s _to) ∧
      TimedPath.Paced MoveInfo.end_position MoveInfo.end_time Position.m_positionY
        ((_speed.toNat : K) / 30) p s (timetable sqrt _speed p.m_positionX p.m_positionY s _to) := by
  induction _to generalizing p s with
  | nil => exact ⟨trivial, trivial⟩
  | cons pos rest ih =>
    exact ⟨⟨abs_le_leg hspeed hsqrt.abs_le le_rfl, (ih pos _).1⟩,
      abs_le_leg hspeed hsqrt.abs_le' le_rfl, (ih pos _).2⟩

/-- What is set is a movement under way that keeps to its speed. -/
theorem steady_setMultipleMove (hsqrt : SquareRoot sqrt) (hspeed : 0 < _speed) {_to : List (Position K)}
    (ho : _to ≠ []) : (v.setMultipleMove sqrt GetArTime _to _speed _start_time).Steady ∧
      (v.setMultipleMove sqrt GetArTime _to _speed _start_time).Paced := by
  unfold setMultipleMove
  rw [if_neg ho]
  refine ⟨⟨rfl, ?_, timed_timetable hsqrt hspeed _ _⟩, ?_⟩
  · cases _to with
    | nil => exact absurd rfl ho
    | cons pos rest => exact List.cons_ne_nil _ _
  · exact ⟨(paced_timetable hsqrt hspeed _to v.toPosition _).1, (paced_timetable hsqrt hspeed _to v.toPosition _).2⟩

theorem steady_setMove (hsqrt : SquareRoot sqrt) (hspeed : 0 < _speed) (_to : Position K) :
    (v.setMove sqrt GetArTime _to _speed _start_time).Steady ∧
      (v.setMove sqrt GetArTime _to _speed _start_time).Paced := by
  have hlater : ∀ st : Nat, (st : K) ≤ if st.testBit 31 then (st : K) + 4294967296 else st := by
    intro st
    split_ifs
    · exact le_add_of_nonneg_right (by norm_num)
    · exact le_rfl
  refine ⟨⟨rfl, List.cons_ne_nil _ _, ⟨?_, trivial⟩⟩, ⟨?_, trivial⟩, ⟨?_, trivial⟩⟩
  · exact (hlater _).trans (le_add_of_nonneg_left (div_nonneg (hsqrt.nonneg _) (rate_pos hspeed).le))
  · exact abs_le_leg hspeed hsqrt.abs_le (hlater _)
  · exact abs_le_leg hspeed hsqrt.abs_le' (hlater _)

/-- **When the samples show a movement**: it has been set with a positive speed, and no sample on the way finds the
object at its last point. -/
theorem sampling_iff (hsqrt : SquareRoot sqrt) (hspeed : 0 < _speed) {o : MoveOrder K} (ho : waypoints o ≠ [])
    (hts : ts.Pairwise (· ≤ ·)) : (v.set sqrt GetArTime _speed _start_time o).Sampled ts ↔
      ∀ t ∈ ts, (v.set sqrt GetArTime _speed _start_time o).NotAtEnd t := by
  cases o with
  | move _to =>
    obtain ⟨hv, hpaced⟩ := steady_setMove hsqrt hspeed _to (v := v)
    exact sampled_iff hv hpaced hts
  | multipleMove _to =>
    obtain ⟨hv, hpaced⟩ := steady_setMultipleMove hsqrt hspeed ho (v := v)
    exact sampled_iff hv hpaced hts

end

theorem squareRoot_real : SquareRoot Real.sqrt where
  nonneg := Real.sqrt_nonneg
  mul_self _ hx := Real.mul_self_sqrt hx

/-- An object at the origin. -/
def atOrigin : ArMoveVector ℝ where
  m_positionX := 0
  m_positionY := 0
  m_positionZ := 0
  bIsMoving := false
  bWithZMoving := false
  speed := 0
  start_time := 0
  proc_time := 0
  ends := []

/-- The object on its way from the time 100, with speed 30. -/
noncomputable def onWay (ends : List (MoveInfo ℝ)) : ArMoveVector ℝ :=
  { atOrigin with speed := 30, start_time := 100, proc_time := 100, ends := ends, bIsMoving := true }

theorem set_corner : atOrigin.set Real.sqrt 0 30 100 (.multipleMove [⟨20, 0, 0⟩, ⟨20, 20, 0⟩]) =
    onWay [⟨⟨20, 0, 0⟩, 120⟩, ⟨⟨20, 20, 0⟩, 140⟩] := by
  have hroot : Real.sqrt (20 * 20) = 20 := Real.sqrt_mul_self (by norm_num)
  unfold set setMultipleMove onWay timetable atOrigin
  simp [timetable, hroot]
  norm_num

theorem sampling_corner :
    (atOrigin.set Real.sqrt 0 30 100 (.multipleMove [⟨20, 0, 0⟩, ⟨20, 20, 0⟩])).Sampled [110, 130] := by
  refine (sampling_iff squareRoot_real (o := .multipleMove [⟨20, 0, 0⟩, ⟨20, 20, 0⟩]) (by decide)
    (List.cons_ne_nil _ _) (by norm_num)).mpr ?_
  rw [set_corner]
  intro t ht hs info hinfo hlt hat
  obtain rfl := Option.some.inj hinfo
  have hy := congrArg Position.m_positionY hat
  rcases List.mem_cons.mp ht with rfl | ht
  · norm_num [whereAt, onWay, atOrigin, TimedPath.locate, toward] at hy
  · obtain rfl := List.mem_singleton.mp ht
    norm_num [whereAt, onWay, atOrigin, TimedPath.locate, toward] at hy

/-- Twenty forward and ten back: a look after ten finds the object where it is to arrive. -/
theorem not_sampled : ¬∀ (v : ArMoveVector ℝ) (_speed : UInt8) (_start_time : Nat) (o : MoveOrder ℝ) (ts : List ℝ),
    0 < _speed → waypoints o ≠ [] → ts.Pairwise (· ≤ ·) → (v.set Real.sqrt 0 _speed _start_time o).Sampled ts := by
  intro h
  have hroot : Real.sqrt (20 * 20) = 20 := Real.sqrt_mul_self (by norm_num)
  have hroot' : Real.sqrt ((10 - 20) * (10 - 20)) = 10 := by
    rw [← neg_mul_neg, Real.sqrt_mul_self (by norm_num)]
    norm_num
  have hset : atOrigin.set Real.sqrt 0 30 100 (.multipleMove [⟨20, 0, 0⟩, ⟨10, 0, 0⟩]) =
      onWay [⟨⟨20, 0, 0⟩, 120⟩, ⟨⟨10, 0, 0⟩, 130⟩] := by
    unfold set setMultipleMove onWay timetable atOrigin
    simp [timetable, hroot, hroot']
    norm_num
  have hmoving := (h atOrigin 30 100 (.multipleMove [⟨20, 0, 0⟩, ⟨10, 0, 0⟩]) [110] (by decide) (List.cons_ne_nil _ _)
    (List.pairwise_singleton _ _)).moving [110] (List.prefix_refl _)
  rw [hset] at hmoving
  norm_num [onWay, atOrigin, stepAll, step, moveLoop, toward] at hmoving

end ArMoveVector

end RZEmulator.Chihiro
