import Mathlib.Algebra.Ring.Nat
import RZEmulator.Chihiro.Equipment

/-!
# The states of a unit

`State` and the functions of `Unit.cpp` that put states into the state list of a unit, take them out of it
and move them to the list of the states that its death has removed. A state is named by the order of its
allocation. `DeleteThis` is only a request, and how often it has been made is counted.

A vector is erased from while an iterator points into it: afterwards the iterator points to the element that
has moved up, and has no value where it would be the end. The base damage, the text and the value of a state
and what is sent to clients are not modelled: no modelled function reads them back.
-/

namespace RZEmulator.Chihiro

abbrev StatePtr := Nat

/-- `StateType`: `SG_NORMAL`, `SG_DUPLICATE` and `SG_DEPENDENCE`. -/
abbrev StateType := Fin 3

def SG_NORMAL : StateType := 0

namespace AttributeFlag

def AF_ERASE_ON_DEAD : Nat := 0x1
def AF_NOT_ACTABLE_TO_BOSS : Nat := 0x8
def AF_AF_NOT_ERASABLE : Nat := 0x10
def AF_ERASE_ON_DAMAGED : Nat := 0x40
def AF_ERASE_ON_RESURRECT : Nat := 0x80

end AttributeFlag

namespace StateCode

def SC_HAVOC_BURST : Int := 0x1195
def SC_FEAR : Int := 0x1778
def SC_HIDE : Int := 0x1780
def SC_TRACE_OF_FUGITIVE : Int := 201084

end StateCode

def SEF_RIDING : Int := 200

namespace GameRule

def MAX_STATE_LEVEL : Int := 65535

end GameRule

structure StateTemplate where
  is_harmful : Bool := false
  state_time_type : Nat := 0
  duplicate_group : Fin 3 → Int := fun _ => 0
  effect_type : Int := 0

/-- `state_time_type & flag` is not 0. -/
def StateTemplate.has (info : StateTemplate) (flag : Nat) : Bool := info.state_time_type &&& flag != 0

structure State where
  m_nCode : Int
  m_nUID : Nat
  m_nLevel : StateType → Nat
  m_hCaster : StateType → Nat
  m_nStartTime : StateType → Nat
  m_nEndTime : StateType → Nat
  m_bAura : Bool
  m_pTemplate : Option StateTemplate
  /-- How often `DeleteThis` has been called. -/
  deleteRequests : Nat := 0

namespace State

/-! ## One state -/

def getLevel (s : State) : Nat :=
  if s.m_nLevel 0 ≠ 0 ∨ s.m_nLevel 1 ≠ 0 then (s.m_nLevel 0 + s.m_nLevel 1 + s.m_nLevel 2) % 2 ^ 16 else 0

def getStartTime (s : State) : Nat :=
  if s.m_nStartTime 0 > s.m_nStartTime 1 then s.m_nStartTime 0 else s.m_nStartTime 1

def getEndTime (s : State) : Nat :=
  if s.m_nEndTime 0 > s.m_nEndTime 1 then s.m_nEndTime 0 else s.m_nEndTime 1

def isHarmful (s : State) : Bool :=
  match s.m_pTemplate with
  | none => false
  | some info => info.is_harmful

def getTimeType (s : State) : Nat :=
  match s.m_pTemplate with
  | none => 0
  | some info => info.state_time_type

/-- `GetTimeType() & flag` is not 0. -/
def has (s : State) (flag : Nat) : Bool := s.getTimeType &&& flag != 0

def isDuplicatedGroup (s : State) (nGroupID : Int) : Bool :=
  match s.m_pTemplate with
  | none => false
  | some info => (List.finRange 3).any fun i => info.duplicate_group i != 0 && info.duplicate_group i == nGroupID

/-- `State::AddState`. -/
def addState (s : State) (type : StateType) (caster level start_time end_time : Nat) (bIsAura : Bool) : State :=
  if s.m_nLevel type > level then s
  else
    { s with
      m_nLevel := fun i => if i = type then level else s.m_nLevel i
      m_nStartTime := fun i => if i = type then start_time else s.m_nStartTime i
      m_nEndTime := fun i => if i = type then end_time else s.m_nEndTime i
      m_hCaster := fun i => if i = type then caster else s.m_hCaster i
      m_bAura := bIsAura }

/-- The level `i` is in use and its time is over. -/
def levelExpired (s : State) (t : Nat) (i : StateType) : Bool := s.m_nLevel i != 0 && s.m_nEndTime i < t

/-- The level 2 is cleared: it has expired, or neither of the others is left. -/
def lastExpired (s : State) (t : Nat) : Bool :=
  s.levelExpired t 2 || ((s.m_nLevel 0 == 0 || s.levelExpired t 0) && (s.m_nLevel 1 == 0 || s.levelExpired t 1))

/-- What `State::ClearExpiredState` returns. -/
def expires (s : State) (t : Nat) : Bool := s.levelExpired t 0 || s.levelExpired t 1 || s.lastExpired t

/-- What `State::ClearExpiredState` leaves. -/
def clearExpiredState (s : State) (t : Nat) : State :=
  { s with m_nLevel := fun i =>
      if (if i = 2 then s.lastExpired t else s.levelExpired t i) then 0 else s.m_nLevel i }

def isValid (s : State) (t : Nat) : Bool :=
  (s.m_nLevel 0 != 0 && s.m_nEndTime 0 > t) || (s.m_nLevel 1 != 0 && s.m_nEndTime 1 > t)

end State

/-! ## The unit -/

inductive UnitKind
  | player
  | summon
  | monster
  | other
  deriving DecidableEq, Repr

/-- A `Unit` as far as its states go. `stateInfo` is `ObjectMgr::GetStateInfo`. -/
structure UnitStates where
  kind : UnitKind
  stateInfo : Int → Option StateTemplate
  states : StatePtr → State
  nextState : Nat
  m_vStateList : List StatePtr
  m_vStateListRemovedByDeath : List StatePtr
  m_nCurrentStateUID : Nat

/-- What else a function on the states of a unit reads of it. -/
structure Circumstances where
  isDead : Bool := false
  isHiding : Bool := false
  isBossMonster : Bool := false
  isDungeonConnector : Bool := false
  isAutoTrap : Bool := false
  /-- `UNIT_FIELD_HAVOC`. -/
  havoc : Int := 0
  /-- `UNIT_FIELD_DEAD_TIME`. -/
  deadTime : Nat := 0
  /-- `sWorld.GetArTime()`. -/
  arTime : Nat := 0

namespace UnitStates

def updState (u : UnitStates) (p : StatePtr) (f : State → State) : UnitStates :=
  { u with states := fun q => if q = p then f (u.states p) else u.states q }

theorem updState_states (u : UnitStates) (p : StatePtr) (f : State → State) (q : StatePtr) :
    (u.updState p f).states q = if q = p then f (u.states p) else u.states q := rfl

def deleteThis (u : UnitStates) (p : StatePtr) : UnitStates :=
  u.updState p fun s => { s with deleteRequests := s.deleteRequests + 1 }

/-- `GetState`. -/
def getState (u : UnitStates) (code : Int) : Option StatePtr :=
  u.m_vStateList.find? fun p => (u.states p).m_nCode == code

/-! ## Removal -/

/-- The two functions `RemoveState`: `DeleteThis` is called on what the iterator points to when the state
has been erased. -/
def removeFound (u : UnitStates) (found : State → Bool) : Option UnitStates :=
  match u.m_vStateList.findIdx? fun p => found (u.states p) with
  | none => some u
  | some i => (u.m_vStateList.eraseIdx i)[i]?.map fun next =>
      { u with m_vStateList := u.m_vStateList.eraseIdx i }.deleteThis next

def matchesState (code state_level : Int) (s : State) : Bool :=
  s.m_nCode == code && (s.getLevel : Int) ≤ state_level

/-- `RemoveState(code, state_level)`. -/
def removeState (u : UnitStates) (code state_level : Int) : Option UnitStates :=
  u.removeFound (matchesState code state_level)

def hasUID (uid : Int) (s : State) : Bool := (s.m_nUID : Int) == uid

/-- `RemoveState(uid)`. -/
def removeStateUID (u : UnitStates) (uid : Int) : Option UnitStates :=
  u.removeFound (hasUID uid)

/-- The loop of `RemoveGoodState`; `none` where an erasure has invalidated its iterators. -/
def removeGoodLoop (u : UnitStates) (state_level : Int) : List StatePtr → Option UnitStates
  | [] => some u
  | p :: ps =>
    if ¬(u.states p).isHarmful ∧ (u.states p).getTimeType ≠ 0 then
      (u.removeState (u.states p).m_nCode state_level).bind fun u' =>
        if u'.m_vStateList.length = u.m_vStateList.length then u'.removeGoodLoop state_level ps else none
    else u.removeGoodLoop state_level ps

/-- `RemoveGoodState`. -/
def removeGoodState (u : UnitStates) (state_level : Int) : Option UnitStates :=
  u.removeGoodLoop state_level u.m_vStateList

/-- The body of the loop of `ClearExpiredState` erases this state. -/
def erases (c : Circumstances) (t : Nat) (s : State) : Bool :=
  (s.m_nCode == StateCode.SC_HAVOC_BURST && c.havoc < 1) || (s.expires t && !(s.clearExpiredState t).isValid t)

/-- The loop of `ClearExpiredState`, with the states it has kept. -/
def clearExpiredLoop (c : Circumstances) (t : Nat) : List StatePtr → UnitStates → List StatePtr × UnitStates
  | [], u => ([], u)
  | p :: ps, u =>
    let (kept, u') := clearExpiredLoop c t ps (u.updState p (·.clearExpiredState t))
    (if erases c t (u.states p) then kept else p :: kept, u')

/-- `ClearExpiredState(t)`. -/
def clearExpiredState (u : UnitStates) (c : Circumstances) (t : Nat) : UnitStates :=
  let (kept, u') := clearExpiredLoop c (if t = 0 then c.arTime else t) u.m_vStateList u
  { u' with m_vStateList := kept }

/-- `RemoveStatesOnDamage`. -/
def removeStatesOnDamage (u : UnitStates) : UnitStates :=
  { u with m_vStateList := u.m_vStateList.filter fun p => !(u.states p).has AttributeFlag.AF_ERASE_ON_DAMAGED }

/-! ## Death and resurrection -/

/-- The loop of `RemoveStateIf` over the positions from `it` on: what it keeps is moved down to `trail`. -/
def removeIfLoop (comparer : StatePtr → Bool) :
    (n it trail : Nat) → List StatePtr → List StatePtr → Nat × List StatePtr × List StatePtr
  | 0, _, trail, vStateList, removedStates => (trail, vStateList, removedStates)
  | n + 1, it, trail, vStateList, removedStates =>
    match vStateList[it]? with
    | none => (trail, vStateList, removedStates)
    | some p =>
      if comparer p then removeIfLoop comparer n (it + 1) trail vStateList (removedStates ++ [p])
      else removeIfLoop comparer n (it + 1) (trail + 1)
        (if trail ≠ it then vStateList.set trail p else vStateList) removedStates

/-- `RemoveStateIf` with a vector for the result. -/
def removeStateIf (u : UnitStates) (comparer : State → Bool) : List StatePtr × UnitStates :=
  let (trail, vStateList, removedStates) :=
    removeIfLoop (fun p => comparer (u.states p)) u.m_vStateList.length 0 0 u.m_vStateList []
  (removedStates, { u with m_vStateList := vStateList.take trail })

/-- `ClearRemovedStateByDeath`. -/
def clearRemovedStateByDeath (u : UnitStates) : UnitStates :=
  { u.m_vStateListRemovedByDeath.foldl deleteThis u with m_vStateListRemovedByDeath := [] }

/-- A player's state that his death has removed is kept for the resurrection if it is not harmful. -/
def keepRemoved (u : UnitStates) (p : StatePtr) : UnitStates :=
  if (u.states p).isHarmful then u.deleteThis p
  else { u with m_vStateListRemovedByDeath := u.m_vStateListRemovedByDeath ++ [p] }

/-- `removeStateByDead`. -/
def removeStateByDead (u : UnitStates) : UnitStates :=
  let (removedStates, u) := u.clearRemovedStateByDeath.removeStateIf (·.has AttributeFlag.AF_ERASE_ON_DEAD)
  if u.kind = .player then removedStates.foldl keepRemoved u else u

/-! ## New states -/

/-- What `AddState` is called with. -/
structure NewState where
  type : StateType := SG_NORMAL
  code : Int
  caster : Nat := 0
  level : Int
  start_time : Nat := 0
  end_time : Nat := 0
  bIsAura : Bool := false

/-- A state of the list and the new one exclude each other. -/
def isDuplicate (info : StateTemplate) (a : NewState) (s : State) : Bool :=
  s.m_nCode == a.code || (List.finRange 3).any fun i => s.isDuplicatedGroup (info.duplicate_group i)

/-- The loop of `AddState` that looks for states to replace. Its result is `vDeleteStateUID`, and `none`
where the function returns because a stronger state is there. -/
def duplicates (u : UnitStates) (info : StateTemplate) (a : NewState) : List StatePtr → Option (List Nat)
  | [] => some []
  | p :: ps =>
    let s := u.states p
    let bNotErasable := info.has AttributeFlag.AF_AF_NOT_ERASABLE
    if isDuplicate info a s then
      if bNotErasable = s.has AttributeFlag.AF_AF_NOT_ERASABLE then
        if (s.getLevel : Int) > a.level ∨ ((s.getLevel : Int) = a.level ∧ s.getEndTime > a.end_time) then none
        else if s.m_nCode = a.code then u.duplicates info a ps
        else (u.duplicates info a ps).map (s.m_nUID :: ·)
      else if bNotErasable then (u.duplicates info a ps).map (s.m_nUID :: ·)
      else none
    else u.duplicates info a ps

/-- The loop of `AddState` that deletes the first state with the given `UID`. -/
def deleteUID (u : UnitStates) (uid : Nat) : UnitStates :=
  match u.m_vStateList.findIdx? fun p => (u.states p).m_nUID == uid with
  | none => u
  | some i =>
    match u.m_vStateList[i]? with
    | none => u
    | some p => { u with m_vStateList := u.m_vStateList.eraseIdx i }.deleteThis p

/-- A new object at the end of the list. -/
def allocState (u : UnitStates) (s : State) : UnitStates :=
  { u with
    states := fun q => if q = u.nextState then s else u.states q
    nextState := u.nextState + 1
    m_vStateList := u.m_vStateList ++ [u.nextState]
    m_nCurrentStateUID := (u.m_nCurrentStateUID + 1) % 2 ^ 32 }

/-- The constructor of `State`. -/
def newState (u : UnitStates) (a : NewState) : State :=
  { m_nCode := a.code
    m_nUID := (u.m_nCurrentStateUID + 1) % 2 ^ 16
    m_nLevel := fun i => if i = a.type then (a.level % 2 ^ 16).toNat else 0
    m_hCaster := fun i => if i = a.type then a.caster else 0
    m_nStartTime := fun i => if i = a.type then a.start_time else 0
    m_nEndTime := fun i => if i = a.type then a.end_time else 0
    m_bAura := a.bIsAura
    m_pTemplate := u.stateInfo a.code }

/-- The guards of `AddState`. Between them the function cancels a skill and may call `UnMount`: the calls
that this makes on the states come before the one of `AddState` in a run, since the guard on the dead is
repeated when it returns. -/
def addStateGuard (u : UnitStates) (c : Circumstances) (info : StateTemplate) (a : NewState) : ResultCode :=
  if c.isDead ∧ (info.has AttributeFlag.AF_ERASE_ON_DEAD ∨ info.has AttributeFlag.AF_ERASE_ON_RESURRECT) then
    .notActable
  else if u.kind = .monster ∧ info.has AttributeFlag.AF_NOT_ACTABLE_TO_BOSS ∧ c.isBossMonster then .limitTarget
  else if u.kind = .monster ∧ a.code = StateCode.SC_FEAR ∧ (c.isDungeonConnector ∨ c.isAutoTrap) then
    .limitTarget
  else .success

/-- `AddState` where the states to replace are known. -/
def putState (u : UnitStates) (a : NewState) (vDeleteStateUID : List Nat) : UnitStates :=
  let bAlreadyExist := (u.getState a.code).isSome
  let u := vDeleteStateUID.foldl deleteUID u
  if bAlreadyExist then
    match u.getState a.code with
    | none => u
    | some p => u.updState p fun s =>
        s.addState a.type a.caster (a.level % 2 ^ 16).toNat a.start_time a.end_time a.bIsAura
  else u.allocState (u.newState a)

/-- `AddState` behind its guards. -/
def addStatePast (u : UnitStates) (info : StateTemplate) (a : NewState) : ResultCode × UnitStates :=
  match u.duplicates info a u.m_vStateList with
  | none => (.alreadyExist, u)
  | some vDeleteStateUID => (.success, u.putState a vDeleteStateUID)

/-- `AddState`. -/
def addState (u : UnitStates) (c : Circumstances) (a : NewState) : Option (ResultCode × UnitStates) :=
  match u.stateInfo a.code with
  | none => some (.notExist, u)
  | some info =>
    match u.addStateGuard c info a with
    | .success =>
      (if info.effect_type = SEF_RIDING ∧ c.isHiding then
        (u.removeState StateCode.SC_HIDE GameRule.MAX_STATE_LEVEL).bind fun u =>
          u.removeState StateCode.SC_TRACE_OF_FUGITIVE GameRule.MAX_STATE_LEVEL
      else some u).map fun u => u.addStatePast info a
    | code => some (code, u)

/-- The state that `RestoreRemovedStateByDeath` adds for a removed one. -/
def restored (c : Circumstances) (s : State) : NewState where
  code := s.m_nCode
  caster := s.m_hCaster 0
  level := s.getLevel
  start_time := s.getStartTime
  end_time := if s.getEndTime = 2 ^ 32 - 1 then 2 ^ 32 - 1 else (c.arTime + 2 ^ 32 - c.deadTime) % 2 ^ 32
  bIsAura := s.m_bAura

/-- The loop of `RestoreRemovedStateByDeath`, with the removed states that it leaves. -/
def restoreLoop (c : Circumstances) : List StatePtr → UnitStates → Option (List StatePtr × UnitStates)
  | [], u => some ([], u)
  | p :: ps, u =>
    if (u.getState (u.states p).m_nCode).isSome ∨ (u.states p).has AttributeFlag.AF_ERASE_ON_DEAD then
      (restoreLoop c ps u).map fun (left, u) => (p :: left, u)
    else (u.addState c (restored c (u.states p))).bind fun (_, u) => restoreLoop c ps u

/-- `RestoreRemovedStateByDeath`. -/
def restoreRemovedStateByDeath (u : UnitStates) (c : Circumstances) : Option UnitStates :=
  (restoreLoop c u.m_vStateListRemovedByDeath u).map fun (left, u) =>
    { u with m_vStateListRemovedByDeath := left }.clearRemovedStateByDeath

/-- One row that `Player::ReadStateList` reads: the template is read through its pointer. -/
def readState (u : UnitStates) (code : Int) (s : State) : Option UnitStates :=
  (u.stateInfo code).map fun info => u.allocState
    { s with
      m_nCode := code
      m_nUID := (u.m_nCurrentStateUID + 1) % 2 ^ 16
      m_pTemplate := some info
      deleteRequests := 0 }

/-- `Unit::~Unit`; the vectors are destroyed. -/
def destroy (u : UnitStates) : UnitStates :=
  { u.m_vStateList.foldl deleteThis u with
    m_vStateList := []
    m_vStateListRemovedByDeath := [] }

end UnitStates

end RZEmulator.Chihiro
