import RZEmulator.Chihiro.FieldProp

/-!
# Casts on field props

A player activates a prop with a skill. `Skill::Cast` checks the prop, locks it with `FieldProp::Cast` and starts the
cast; `Skill::ProcSkill`, in the updates of the player, cancels it or, when its time has come, fires it, and the
effect of the three kinds of skill that activate a prop is `UseProp`. Everything else that interrupts a player
(its death, a state, a packet, an effect that cancels casts) does so by `Unit::CancelSkill`.

A skill with a status other than idle is the `m_castingSkill` of its player. A skill that does not activate props is
`other`. What the checks read of the player beside the skill itself is `FieldPropUser`; the remaining checks of
`Unit::CastSkill` and `Skill::Cast`, on times, weapons, costs, states and on what the player sees, are `castable`.
-/

namespace RZEmulator.Chihiro

open Lib

/-! ## Who may use a prop -/

def LIMIT_DEVA : Nat := 2
def LIMIT_ASURA : Nat := 3
def LIMIT_GAIA : Nat := 4
def LIMIT_FIGHTER : Nat := 10
def LIMIT_HUNTER : Nat := 11
def LIMIT_MAGICIAN : Nat := 12
def LIMIT_SUMMONER : Nat := 13

/-- `itemCount` is the count of the item that `FindItemByCode` finds. -/
structure FieldPropUser where
  level : Int
  isHunter : Bool
  isFighter : Bool
  isMagician : Bool
  isSummoner : Bool
  race : Int
  currentJob : Int
  itemCount : Int → Option Int
  questProgress : Int → Int
  currentSkillLevel : Int → Int
  isWornByCode : Int → Bool

namespace FieldPropTemplate

def classOk (base : FieldPropTemplate) (user : FieldPropUser) : Bool :=
  (!base.nLimit.testBit LIMIT_HUNTER || user.isHunter) && (!base.nLimit.testBit LIMIT_FIGHTER || user.isFighter) &&
    (!base.nLimit.testBit LIMIT_MAGICIAN || user.isMagician) && (!base.nLimit.testBit LIMIT_SUMMONER || user.isSummoner)

def raceOk (base : FieldPropTemplate) (user : FieldPropUser) : Bool :=
  (user.race == 3 || !base.nLimit.testBit LIMIT_GAIA) && (user.race == 4 || !base.nLimit.testBit LIMIT_DEVA) &&
    (user.race == 5 || !base.nLimit.testBit LIMIT_ASURA)

def jobOk (base : FieldPropTemplate) (user : FieldPropUser) : Bool :=
  base.nLimitJobID == 0 || base.nLimitJobID == user.currentJob

end FieldPropTemplate

/-- An unknown `nActivateID` is no obstacle. -/
def FieldPropActivate.met (a : FieldPropActivate) (user : FieldPropUser) : Bool :=
  match a.nActivateID with
  | 1 => (user.itemCount a.value₀).any fun n => decide (a.value₁ ≤ n)
  | 2 => user.questProgress a.value₀ == a.value₁
  | 3 => user.currentSkillLevel a.value₀ == a.value₁
  | 4 => (a.value₀ == 0 || user.isWornByCode a.value₀) && (a.value₁ == 0 || user.isWornByCode a.value₁)
  | _ => true

def FieldProp.isUsable (p : FieldProp) (user : FieldPropUser) : Bool :=
  !p.m_bIsCasting && decide (p.m_PropInfo.base.nMinLevel ≤ user.level) &&
    decide (user.level ≤ p.m_PropInfo.base.nMaxLevel) && p.m_PropInfo.base.classOk user &&
    p.m_PropInfo.base.raceOk user && p.m_PropInfo.base.jobOk user && p.m_PropInfo.base.nActivate.all fun a => a.met user

/-! ## The skills of the players -/

/-- `SS_CAST` and `SS_COMPLETE`, the two statuses that a skill keeps from one update to the next. -/
inductive SkillStatus
  | cast
  | complete
  deriving DecidableEq

/-- A skill that activates a prop, at work. -/
structure PropCasting where
  m_hTarget : Nat
  m_Status : SkillStatus
  m_nFireTime : Nat
  deriving DecidableEq

inductive CastingSkill
  | onProp (c : PropCasting)
  | other
  deriving DecidableEq

structure Caster where
  m_castingSkill : Option CastingSkill := none
  inGame : Bool := true
  deriving DecidableEq

/-- The prop on which the unit is casting, before the skill fires. -/
def Caster.castTarget (c : Caster) : Option Nat :=
  match c.m_castingSkill with
  | some (.onProp ⟨o, .cast, _⟩) => some o
  | _ => none

/-- What the checks read of the skill. -/
structure PropSkill where
  skillId : Int
  castable : Bool
  castDelay : Nat

structure PropWorld where
  manager : FieldPropManager := {}
  players : List Caster := []
  deriving DecidableEq

namespace PropWorld

def caster (w : PropWorld) (i : Nat) : Option Caster := w.players[i]?.filter (·.inGame)

def target (w : PropWorld) (i : Nat) : Option Nat := w.players[i]?.bind Caster.castTarget

def setManager (w : PropWorld) (m : FieldPropManager) : PropWorld := { w with manager := m }

def addPlayer (w : PropWorld) : PropWorld := { w with players := w.players ++ [{}] }

/-- `m_castingSkill` of the player becomes `x`. -/
def setCasting (w : PropWorld) (i : Nat) (x : Option CastingSkill) : PropWorld :=
  { w with players := w.players.modify i fun c => { c with m_castingSkill := x } }

/-- The player is deleted, with its skills. -/
def leave (w : PropWorld) (i : Nat) : PropWorld :=
  { w with players := w.players.modify i fun c => { c with m_castingSkill := none, inGame := false } }

/-- `GetObjectInWorld` of a prop. -/
def propInWorld (w : PropWorld) (o : Nat) : Option FieldProp := (w.manager.prop o).filter (·.inWorld)

/-- `GetCastingDelay`, and the delay of the skill when that is -1. -/
def delay (p : FieldProp) (skill : PropSkill) : Nat :=
  if p.m_PropInfo.base.nCastingTime = 2 ^ 32 - 1 then skill.castDelay else p.m_PropInfo.base.nCastingTime

/-- The checks of `Skill::Cast` on the prop. -/
def castAccepts (p : FieldProp) (skill : PropSkill) (user : FieldPropUser) : Bool :=
  decide (p.m_PropInfo.base.nActivateSkillID = skill.skillId) && !decide (p.m_nUseCount < 1) && p.isUsable user &&
    skill.castable

/-- `Unit::CastSkill` with a skill that activates props. -/
def castSkill (w : PropWorld) (i : Nat) (c : Caster) (o : Nat) (skill : PropSkill) (user : FieldPropUser)
    (ct : Nat) : PropWorld :=
  match w.propInWorld o with
  | none => w
  | some p =>
    if c.m_castingSkill = none ∧ castAccepts p skill user = true then
      (w.setManager (w.manager.cast o)).setCasting i (some (.onProp ⟨o, .cast, (ct + delay p skill) % 2 ^ 32⟩))
    else w

/-- The end of `ProcSkill`, of a skill that has fired. -/
def completeSkill (w : PropWorld) (i o fireTime ct : Nat) : PropWorld :=
  w.setCasting i (if ct < fireTime then some (.onProp ⟨o, .complete, fireTime⟩) else none)

/-- `ProcSkill`; `dead` is whether the player has no health. -/
def procSkill (w : PropWorld) (i : Nat) (c : Caster) (dead : Bool) (ct commonDelay : Nat) : Option PropWorld :=
  match c.m_castingSkill with
  | none | some .other => some w
  | some (.onProp ⟨o, status, fireTime⟩) =>
    if dead ∨ (w.propInWorld o).isNone then some (w.setCasting i none)
    else if ct < fireTime then some w
    else match status with
      | .cast => (w.manager.useProp o ct).map fun m =>
          (w.setManager m.1).completeSkill i o ((fireTime + commonDelay) % 2 ^ 32) ct
      | .complete => some (w.completeSkill i o fireTime ct)

end PropWorld

inductive PropCastEvent
  | manager (e : FieldPropEvent)
  | join
  | cast (i o : Nat) (skill : PropSkill) (user : FieldPropUser) (ct : Nat)
  | castOther (i : Nat)
  | completeOther (i : Nat)
  | proc (i : Nat) (dead : Bool) (ct commonDelay : Nat)
  | cancel (i : Nat)
  | leave (i : Nat)

namespace PropWorld

/-- The casts and the uses are those of the skills. -/
def handleManager (w : PropWorld) : FieldPropEvent → Option PropWorld
  | .cast _ | .use _ _ => none
  | e => (w.manager.handle e).map w.setManager

def handle (w : PropWorld) : PropCastEvent → Option PropWorld
  | .manager e => w.handleManager e
  | .join => some w.addPlayer
  | .cast i o skill user ct => (w.caster i).map fun c => w.castSkill i c o skill user ct
  | .castOther i => (w.caster i).map fun c => if c.m_castingSkill = none then w.setCasting i (some .other) else w
  | .completeOther i => (w.caster i).map fun c => if c.m_castingSkill = some .other then w.setCasting i none else w
  | .proc i dead ct commonDelay => (w.caster i).bind fun c => w.procSkill i c dead ct commonDelay
  | .cancel i => (w.caster i).map fun _ => w.setCasting i none
  | .leave i => (w.caster i).map fun _ => w.leave i

def system : System PropWorld PropCastEvent := .ofFun (· = {}) handle

end PropWorld

end RZEmulator.Chihiro
