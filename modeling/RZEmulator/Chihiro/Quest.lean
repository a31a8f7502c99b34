import Mathlib.Data.Fin.VecNotation
import Mathlib.Data.Fintype.Basic
import Mathlib.Logic.Function.Basic

/-!
# Quests

A quest of a player: the values of its template (`QuestBase`) and the state of this run of it (`QuestInstance`).
The template has twelve values, whose meaning depends on the type; the instance has three status slots, though the
accessors guard the index against another size. An access outside its array has no result. Numbers are exact.
-/

namespace RZEmulator.Chihiro

inductive QuestType where
  | misc
  | killTotal
  | killIndividual
  | collect
  | huntItem
  | huntItemFromAnyMonsters
  | learnSkill
  | upgradeItem
  | contact
  | jobLevel
  | parameter
  | endViaScript
  | randomKillIndividual
  | randomCollect
deriving DecidableEq

/-- The bit of a type in the flags of a search; a quest that ends by script has none. -/
def QuestType.bit : QuestType → Nat
  | misc => 1
  | killTotal => 2
  | killIndividual => 4
  | collect => 8
  | huntItem => 0x10
  | huntItemFromAnyMonsters => 0x1000
  | learnSkill => 0x20
  | upgradeItem => 0x40
  | contact => 0x80
  | jobLevel => 0x100
  | parameter => 0x200
  | endViaScript => 0
  | randomKillIndividual => 0x400
  | randomCollect => 0x800

/-- `ObjectMgr::checkQuestTypeFlag`. -/
def checkQuestTypeFlag (type : QuestType) (flag : Nat) : Bool := flag &&& type.bit != 0

inductive QuestProgress where
  | startable
  | inProgress
  | finishable
deriving DecidableEq

/-- The template of a quest, as far as the functions on its progress read it. -/
structure QuestBase where
  nType : QuestType
  nValue : Fin 12 → Int
  nEndType : Int
deriving DecidableEq

structure QuestInstance where
  nProgress : QuestProgress
  nStatus : Fin 3 → Int
  nRandomKey : Fin 3 → Int
  nRandomValue : Fin 3 → Int
deriving DecidableEq

structure Quest where
  m_QuestBase : QuestBase
  m_Instance : QuestInstance
  m_bIsNeedUpdateToDB : Bool
deriving DecidableEq

namespace Quest

/-! The three status slots, by name. -/

abbrev first : Fin 3 := ⟨0, by decide⟩

abbrev second : Fin 3 := ⟨1, by decide⟩

abbrev third : Fin 3 := ⟨2, by decide⟩

variable (q : Quest)

/-- The quest has not been ended: no search returns it afterwards. -/
abbrev Running : Prop := q.m_Instance.nProgress ≠ .finishable

/-- `Quest::IsRandomQuest` of the quest's code, under which its own template is found again. -/
def isRandomQuest : Bool :=
  q.m_QuestBase.nType = .randomCollect ∨ q.m_QuestBase.nType = .randomKillIndividual

def getValue (idx : Nat) : Int :=
  if h : idx > 11 then 0 else q.m_QuestBase.nValue ⟨idx, by omega⟩

/-- The guard is for six slots, the array has three. -/
def getStatus (idx : Nat) : Option Int :=
  if idx > 5 then some 0
  else if h : idx < 3 then some (q.m_Instance.nStatus ⟨idx, h⟩)
  else none

def setStatus (i : Fin 3) (value : Int) : Quest :=
  { q with
    m_Instance := { q.m_Instance with nStatus := Function.update q.m_Instance.nStatus i value }
    m_bIsNeedUpdateToDB := true }

def updateStatus (idx : Nat) (value : Int) : Option Quest :=
  if idx > 5 then some q
  else if h : idx < 3 then some (q.setStatus ⟨idx, h⟩ value)
  else none

def incStatus (idx : Nat) (value : Int) : Option Quest :=
  if idx > 5 then some q
  else if h : idx < 3 then some (q.setStatus ⟨idx, h⟩ (q.m_Instance.nStatus ⟨idx, h⟩ + value))
  else none

/-- The index is not guarded. -/
def getRandomKey (idx : Nat) : Option Int :=
  if h : idx < 3 then some (q.m_Instance.nRandomKey ⟨idx, h⟩) else none

def getRandomValue (idx : Nat) : Option Int :=
  if h : idx < 3 then some (q.m_Instance.nRandomValue ⟨idx, h⟩) else none

/-- Every status has reached the required value: that of the odd index after it. -/
def allReached : Bool :=
  q.m_Instance.nStatus first ≥ q.m_QuestBase.nValue 1 ∧ q.m_Instance.nStatus second ≥ q.m_QuestBase.nValue 3 ∧
    q.m_Instance.nStatus third ≥ q.m_QuestBase.nValue 5

/-- One objective of a parameter quest: the parameter, the comparison and the number compared with. -/
def parameterReached (status parameter_id relation value : Int) : Bool :=
  parameter_id = 0 ∨ (relation = 2 ∧ status > value) ∨ (relation = 1 ∧ status ≥ value) ∨
    (relation = 0 ∧ status = value) ∨ (relation = -1 ∧ status ≤ value) ∨ (relation = -1 ∧ status < value)

/-- `Quest::IsFinishable`. -/
def isFinishable : Bool :=
  match q.m_QuestBase.nType with
  | .misc => false
  | .killTotal => q.m_Instance.nStatus first ≥ q.m_QuestBase.nValue 1
  | .killIndividual => q.allReached
  | .collect => q.allReached
  | .huntItem => q.allReached
  | .huntItemFromAnyMonsters => q.allReached
  | .learnSkill =>
    (q.m_QuestBase.nValue 0 = 0 ∨ q.m_Instance.nStatus first ≥ q.m_QuestBase.nValue 1) ∧
      (q.m_QuestBase.nValue 2 = 0 ∨ q.m_Instance.nStatus second ≥ q.m_QuestBase.nValue 3) ∧
      (q.m_QuestBase.nValue 4 = 0 ∨ q.m_Instance.nStatus third ≥ q.m_QuestBase.nValue 5)
  | .upgradeItem => q.allReached
  | .contact => true
  | .jobLevel =>
    q.m_Instance.nStatus first ≥ q.m_QuestBase.nValue 0 ∧ q.m_Instance.nStatus second ≥ q.m_QuestBase.nValue 1
  | .parameter =>
    parameterReached (q.m_Instance.nStatus first) (q.m_QuestBase.nValue 0) (q.m_QuestBase.nValue 1)
        (q.m_QuestBase.nValue 2) ∧
      parameterReached (q.m_Instance.nStatus second) (q.m_QuestBase.nValue 3) (q.m_QuestBase.nValue 4)
        (q.m_QuestBase.nValue 5) ∧
      parameterReached (q.m_Instance.nStatus third) (q.m_QuestBase.nValue 6) (q.m_QuestBase.nValue 7)
        (q.m_QuestBase.nValue 8)
  | .endViaScript => (q.m_QuestBase.nEndType = 3 ∧ q.allReached) ∨ q.m_QuestBase.nEndType < 2
  | .randomKillIndividual => false
  | .randomCollect => false

/-- The quest without its progress: what the player was asked to do. -/
def task : Quest :=
  { q with m_Instance := { q.m_Instance with nStatus := fun _ => 0 }, m_bIsNeedUpdateToDB := false }

variable {q} {q' : Quest} {i j : Fin 3} {v : Int} {idx : Nat}

@[simp]
theorem setStatus_base : (q.setStatus i v).m_QuestBase = q.m_QuestBase := rfl

@[simp]
theorem task_setStatus : (q.setStatus i v).task = q.task := rfl

@[simp]
theorem setStatus_nStatus :
    (q.setStatus i v).m_Instance.nStatus = Function.update q.m_Instance.nStatus i v := rfl

theorem updateStatus_val : q.updateStatus i.val v = some (q.setStatus i v) := by
  unfold updateStatus
  rw [if_neg (by omega), dif_pos i.isLt]

theorem getStatus_val : q.getStatus i.val = some (q.m_Instance.nStatus i) := by
  unfold getStatus
  rw [if_neg (by omega), dif_pos i.isLt]

theorem incStatus_val : q.incStatus i.val v = some (q.setStatus i (q.m_Instance.nStatus i + v)) := by
  unfold incStatus
  rw [if_neg (by omega), dif_pos i.isLt]

theorem getRandomKey_val : q.getRandomKey i.val = some (q.m_Instance.nRandomKey i) := by
  unfold getRandomKey
  rw [dif_pos i.isLt]

end Quest

end RZEmulator.Chihiro
