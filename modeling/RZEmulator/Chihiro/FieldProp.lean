import Mathlib.Algebra.Ring.Nat
import RZEmulator.Lib.Run
import RZEmulator.Lib.Arena

/-!
# Field props

`FieldPropManager` keeps the props that wait to be spawned in one list and those in the world that have a life time
in another. `FieldProp::UseProp` counts the uses of a prop and takes it out of the world after the last one; `Update`
spawns what is due and removes what has outlived its time.

The pointers are places in the arena `props`, where a prop stays, with the mark `freed`, after the pool has deleted
it; what reads a freed prop has no result. A registered prop has a number of its own, in place of its position and
looks.
-/

namespace RZEmulator.Chihiro

open Lib

/-- One of `nActivateID`, with its row of `nActivateValue`. -/
structure FieldPropActivate where
  nActivateID : Int
  value₀ : Int
  value₁ : Int
  deriving DecidableEq

/-- `nLimit` is the set of its bits. -/
structure FieldPropTemplate where
  nCastingTime : Nat
  nUseCount : Int
  nRegenTime : Nat
  nLifeTime : Nat
  nMinLevel : Int
  nMaxLevel : Int
  nLimit : Nat
  nLimitJobID : Int
  nActivate : List FieldPropActivate
  nActivateSkillID : Int
  deriving DecidableEq

/-- `base` is what `GetFieldPropBase` gives for the prop. -/
structure FieldPropRespawnInfo where
  number : Nat
  base : FieldPropTemplate
  bOnce : Bool
  deriving DecidableEq

structure FieldPropRegenInfo where
  pRespawnInfo : FieldPropRespawnInfo
  tNextRegen : Nat
  nLifeTime : Nat
  deriving DecidableEq

structure FieldProp where
  m_PropInfo : FieldPropRespawnInfo
  nLifeTime : Nat
  m_nRegenTime : Nat
  m_nUseCount : Int
  m_bIsCasting : Bool := false
  inWorld : Bool := true
  deleteRequest : Bool := false
  freed : Bool := false
  deriving DecidableEq

structure FieldPropManager where
  m_vRespawnInfo : List FieldPropRespawnInfo := []
  m_vRespawnList : List FieldPropRegenInfo := []
  m_vExpireObject : List Nat := []
  props : List FieldProp := []
  deriving DecidableEq

namespace FieldPropManager

/-- A prop that is in the pool. -/
def prop (s : FieldPropManager) (o : Nat) : Option FieldProp := s.props[o]?.filter fun p => !p.freed

def modify (s : FieldPropManager) (o : Nat) (f : FieldProp → FieldProp) : FieldPropManager :=
  { s with props := s.props.modify o f }

/-! ## Registration -/

def addRegen (s : FieldPropManager) (info : FieldPropRespawnInfo) (tNextRegen lifeTime : Nat) : FieldPropManager :=
  { s with m_vRespawnList := s.m_vRespawnList ++ [⟨info, tNextRegen, lifeTime⟩] }

def addInfo (s : FieldPropManager) (info : FieldPropRespawnInfo) : FieldPropManager :=
  { s with m_vRespawnInfo := s.m_vRespawnInfo ++ [info] }

/-- `SpawnFieldPropFromScript`, and what the template is. -/
def spawnFieldPropFromScript (s : FieldPropManager) (base : Option FieldPropTemplate) (bOnce : Bool)
    (lifeTime : Nat) : FieldPropManager :=
  match base with
  | none => s
  | some base =>
    (s.addInfo ⟨s.m_vRespawnInfo.length, base, bOnce⟩).addRegen ⟨s.m_vRespawnInfo.length, base, bOnce⟩ 0 lifeTime

def registerFieldProp (s : FieldPropManager) (base : Option FieldPropTemplate) (bOnce : Bool)
    (ct : Nat) : FieldPropManager :=
  match base with
  | none => s
  | some base =>
    (s.addInfo ⟨s.m_vRespawnInfo.length, base, bOnce⟩).addRegen ⟨s.m_vRespawnInfo.length, base, bOnce⟩
      ((base.nRegenTime + ct) % 2 ^ 32) base.nLifeTime

/-! ## Removal -/

/-- `RemoveObjectFromWorld`. -/
def removeFromWorld (s : FieldPropManager) (o : Nat) : FieldPropManager := s.modify o fun p => { p with inWorld := false }

def deleteThis (s : FieldPropManager) (o : Nat) : FieldPropManager :=
  s.modify o fun p => { p with deleteRequest := true }

/-- The search in `m_vExpireObject` reads the handle of every prop before the one that is looked for. -/
def eraseExpire (s : FieldPropManager) (o : Nat) : Option FieldPropManager :=
  if ∀ o' ∈ s.m_vExpireObject.takeWhile (· ≠ o), (s.prop o').isSome then
    some { s with m_vExpireObject := s.m_vExpireObject.erase o }
  else none

/-- The prop that is deleted goes back to the list, unless it is for one time only. -/
def requeue (s : FieldPropManager) (p : FieldProp) (ct : Nat) : FieldPropManager :=
  if p.m_PropInfo.bOnce then s
  else s.addRegen p.m_PropInfo ((p.m_PropInfo.base.nRegenTime + ct) % 2 ^ 32) p.nLifeTime

def onFieldPropDelete (s : FieldPropManager) (o : Nat) (p : FieldProp) (ct : Nat) : Option FieldPropManager :=
  (s.eraseExpire o).map fun s => s.requeue p ct

/-! ## Uses -/

/-- `FieldProp::Cast`. -/
def cast (s : FieldPropManager) (o : Nat) : FieldPropManager := s.modify o fun p => { p with m_bIsCasting := true }

/-- `m_nUseCount-- >= 0`, and what is done when that fails. -/
def takeUse (p : FieldProp) : FieldProp × Bool :=
  if p.m_PropInfo.base.nUseCount = 0 then (p, true)
  else if 0 ≤ p.m_nUseCount then ({ p with m_nUseCount := p.m_nUseCount - 1 }, true)
  else (p, false)

/-- `FieldProp::UseProp`, without the items and the script. -/
def useProp (s : FieldPropManager) (o ct : Nat) : Option (FieldPropManager × Bool) :=
  (s.prop o).bind fun p =>
    let (p, ok) := takeUse { p with m_bIsCasting := false }
    let s := s.modify o fun _ => p
    if ok ∧ p.m_PropInfo.base.nUseCount ≠ 0 ∧ p.m_nUseCount = 0 then
      ((s.removeFromWorld o).onFieldPropDelete o p ct).map fun s => (s.deleteThis o, true)
    else some (s, ok)

/-! ## `Update` -/

/-- `FieldProp::Create`. -/
def create (info : FieldPropRespawnInfo) (lifeTime ct : Nat) : FieldProp where
  m_PropInfo := info
  nLifeTime := lifeTime
  m_nRegenTime := ct
  m_nUseCount := if info.base.nUseCount = 0 then 1 else info.base.nUseCount

def spawn (s : FieldPropManager) (ct : Nat) (rg : FieldPropRegenInfo) : FieldPropManager :=
  { s with
    m_vExpireObject := if rg.nLifeTime = 0 then s.m_vExpireObject else s.m_vExpireObject ++ [s.props.length]
    props := s.props ++ [create rg.pRespawnInfo rg.nLifeTime ct] }

/-- The props that wait for a time before `ct` are taken off the list and spawned. -/
def spawnDue (s : FieldPropManager) (ct : Nat) : FieldPropManager :=
  (s.m_vRespawnList.filter fun rg => decide (rg.tNextRegen < ct)).foldl (fun s rg => s.spawn ct rg)
    { s with m_vRespawnList := s.m_vRespawnList.filter fun rg => !decide (rg.tNextRegen < ct) }

def lifeOver (p : FieldProp) (ct : Nat) : Bool := decide ((p.m_nRegenTime + p.nLifeTime) % 2 ^ 32 < ct)

/-- What is done with a prop whose time is over: nothing tells the manager. -/
def expire (s : FieldPropManager) (o : Nat) : FieldPropManager :=
  if (s.prop o).any fun p => p.inWorld && !p.deleteRequest then (s.removeFromWorld o).deleteThis o else s

def expireAll (s : FieldPropManager) (ct : Nat) : Option FieldPropManager :=
  if ∀ o ∈ s.m_vExpireObject, (s.prop o).isSome then
    some ((s.m_vExpireObject.filter fun o => (s.prop o).any fun p => lifeOver p ct).foldl expire s)
  else none

def update (s : FieldPropManager) (ct : Nat) : Option FieldPropManager := (s.spawnDue ct).expireAll ct

/-- The pool deletes a prop that has asked for it. -/
def free (s : FieldPropManager) (o : Nat) : Option FieldPropManager :=
  (s.prop o).bind fun p => if p.deleteRequest then some (s.modify o fun p => { p with freed := true }) else none

end FieldPropManager

inductive FieldPropEvent
  | script (base : Option FieldPropTemplate) (bOnce : Bool) (lifeTime : Nat)
  | register (base : Option FieldPropTemplate) (bOnce : Bool) (ct : Nat)
  | cast (o : Nat)
  | use (o ct : Nat)
  | update (ct : Nat)
  | free (o : Nat)
  deriving DecidableEq

namespace FieldPropManager

def handle (s : FieldPropManager) : FieldPropEvent → Option FieldPropManager
  | .script base bOnce lifeTime => some (s.spawnFieldPropFromScript base bOnce lifeTime)
  | .register base bOnce ct => some (s.registerFieldProp base bOnce ct)
  | .cast o => (s.prop o).map fun _ => s.cast o
  | .use o ct => (s.useProp o ct).map Prod.fst
  | .update ct => s.update ct
  | .free o => s.free o

def system : System FieldPropManager FieldPropEvent := .ofFun (· = {}) handle

end FieldPropManager

end RZEmulator.Chihiro
