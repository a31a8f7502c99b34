import Mathlib.Algebra.Order.Ring.Rat
import RZEmulator.Lib.Arena
import RZEmulator.Lib.MachineInt
import RZEmulator.Lib.Run
import RZEmulator.Chihiro.UnitState

/-!
# Health and death

`Unit::damage` lowers the health of a unit and processes its death with `onDead`. The other functions that change the
health of a unit call `SetHealth` or `AddHealth`, with amounts that skills, items and states give; each of them is
here the list of the calls that it makes (`HealthCall`), in order.

`deaths` is not in the source: it counts the calls of `onDead` since the health was last positive. What a dead player
or monster does to other objects, its summon, its killer, the ground, is not modelled, nor are moves; an amount that
comes from floating point numbers is an argument.
-/

namespace RZEmulator.Chihiro

open Lib

/-- What a unit is at, as far as its death ends it. -/
structure Pursuits where
  m_castingSkill : Option Nat := none
  target : Nat := 0
  m_vAura : List Nat := []
  m_vEnemyList : List Nat := []
  isHiding : Bool := false
  states : UnitStates

/-- The maximum is not negative: with a negative one `SetHealth` calls itself for ever. -/
structure LifeUnit where
  health : Int
  maxHealth : Nat
  deadTime : Nat
  pursuits : Pursuits
  deaths : Nat

namespace LifeUnit

/-! ## One unit -/

/-- The health that `SetHealth` leaves. -/
def clamp (u : LifeUnit) (hp : Int) : Int := if u.maxHealth < hp then u.maxHealth else if hp < 0 then 0 else hp

def setHealth (u : LifeUnit) (hp : Int) : LifeUnit :=
  { u with health := u.clamp hp, deaths := if 0 < u.clamp hp then 0 else u.deaths }

def addHealth (u : LifeUnit) (n : Int) : Option LifeUnit := (add32 u.health n).map u.setHealth

def setMaxHealth (u : LifeUnit) (n : Nat) : LifeUnit := { u with maxHealth := n }

/-- `CancelSkill`, `EndAttack`, `RemoveAllAura`, `RemoveAllHate` and `removeStateByDead`. -/
def Pursuits.end (x : Pursuits) : Pursuits :=
  { x with
    m_castingSkill := none
    target := 0
    m_vAura := []
    m_vEnemyList := []
    states := x.states.removeStateByDead }

def onDead (u : LifeUnit) : LifeUnit := { u with pursuits := Pursuits.end u.pursuits, deaths := u.deaths + 1 }

/-- What `damage` does to a unit that hides. -/
def reveal (u : LifeUnit) : Option LifeUnit :=
  if u.pursuits.isHiding then
    (u.pursuits.states.removeState StateCode.SC_HIDE GameRule.MAX_STATE_LEVEL).bind fun states =>
      (states.removeState StateCode.SC_TRACE_OF_FUGITIVE GameRule.MAX_STATE_LEVEL).map fun states =>
        { u with pursuits := { u.pursuits with states := states } }
  else some u

/-- The argument of `SetHealth` in `damage`. -/
def damaged (u : LifeUnit) (nDamage : Int) : Option Int :=
  if nDamage < u.health then add32 u.health (-nDamage) else some 0

def dieIfDead (u : LifeUnit) (ct : Nat) : LifeUnit := if u.health = 0 then { u with deadTime := ct }.onDead else u

def damage (u : LifeUnit) (nDamage : Int) (ct : Nat) : Option LifeUnit :=
  if u.health = 0 then some u
  else u.reveal.bind fun u => (u.damaged nDamage).map fun hp => (u.setHealth hp).dieIfDead ct

end LifeUnit

/-! ## Calls -/

inductive HealthCall
  | damage (i : Nat) (nDamage : Int)
  | addHealth (i : Nat) (n : Int)
  | setHealth (i : Nat) (hp : Int)
  | setMaxHealth (i n : Nat)
  deriving DecidableEq

namespace HealthCall

def unit : HealthCall → Nat
  | .damage i _ | .addHealth i _ | .setHealth i _ | .setMaxHealth i _ => i

/-- What the call does to its unit. -/
def act (ct : Nat) : HealthCall → LifeUnit → Option LifeUnit
  | .damage _ nDamage, u => u.damage nDamage ct
  | .addHealth _ n, u => u.addHealth n
  | .setHealth _ hp, u => some (u.setHealth hp)
  | .setMaxHealth _ n, u => some (u.setMaxHealth n)

end HealthCall

abbrev LifeUnits := List LifeUnit

namespace LifeUnits

/-- A function of one unit. -/
def onUnit (s : LifeUnits) (i : Nat) (f : LifeUnit → Option LifeUnit) : Option LifeUnits :=
  (s[i]?).bind fun u => (f u).map fun u' => s.modify i fun _ => u'

def call (s : LifeUnits) (ct : Nat) (c : HealthCall) : Option LifeUnits := s.onUnit c.unit (c.act ct)

def calls (ct : Nat) : List HealthCall → LifeUnits → Option LifeUnits
  | [], s => some s
  | c :: cs, s => (s.call ct c).bind (calls ct cs)

end LifeUnits

/-! ## The functions that change health

`i` is the unit whose function it is, or the target of the skill. -/

namespace HealthCall

/-- `Unit::Heal`, `Unit::HealByItem` and what an attack or its absorption gives to the attacker: `AddHealth` of what
has been computed. -/
def heal (i : Nat) (n : Int) : List HealthCall := [.addHealth i n]

/-- The tags that are activated. -/
def processAddHPMPOnCritical (i : Nat) (nAddHP : List Int) : List HealthCall := nAddHP.map (.addHealth i)

def regenHPMP (u : LifeUnit) (i : Nat) (pti : Int) : List HealthCall :=
  if u.health ≠ 0 ∧ pti ≠ 0 then [.addHealth i pti] else []

/-- `m_vStealOnAttack` of an attack on `target`. -/
def stealOnAttack (i : Nat) (target : LifeUnit) (j : Nat) (hp_steal : Int) : List HealthCall :=
  if hp_steal ≠ 0 then [.addHealth i (min target.health hp_steal), .damage j (min target.health hp_steal)] else []

/-- The cost that `ProcSkill` takes when the skill fires. -/
def skillCost (u : LifeUnit) (i : Nat) (cost_hp : Int) : List HealthCall :=
  if 0 < cost_hp then [.setHealth i (u.health - cost_hp)] else []

/-- The health of the summon that the skill of its master costs, in `ProcSkill`. -/
def dealSummonHP (u : LifeUnit) (i : Nat) (decHP : Int) : List HealthCall := [.addHealth i (-min (u.health - 1) decHP)]

/-- The effects of `SKILL_ADD_HP_MP`. -/
inductive AddHpMpEffect
  | bySummonDead
  | bySummonDamage
  | byStealSummon
  | other
  deriving DecidableEq

/-- `SKILL_ADD_HP_MP` on `j`; `summon` is the main summon of the player and its place, `isPlayer` whether a player
casts it, `nIncHP` what `Heal` makes of the increase. -/
def SKILL_ADD_HP_MP (effect : AddHpMpEffect) (isPlayer : Bool) (summon : Option (LifeUnit × Nat)) (j : Nat)
    (nDecHP nIncHP : Int) : List HealthCall :=
  match effect with
  | .other => heal j nIncHP
  | effect =>
    match summon with
    | none => []
    | some (u, i) =>
      if isPlayer = false ∨ u.health = 0 then []
      else if effect = .bySummonDead then
        if i = j then [] else .damage i u.health :: heal j nIncHP
      else .addHealth i (-nDecHP) :: heal j nIncHP

def ADD_HP_MP_BY_ABSORB_HP_MP (i owner : Nat) (nHPDamage nHPAbsorb : Int) : List HealthCall :=
  [.addHealth i (0 - nHPDamage), .addHealth owner nHPAbsorb]

/-- The skills that deal damage and give a part of it to their owner. -/
def damageWithAbsorb (i owner : Nat) (nDamage nAddHP : Int) : List HealthCall :=
  [.damage i nDamage, .addHealth owner nAddHP]

/-- `ADD_STATE_BY_SELF_COST`, and one unit of `ADD_REGION_STATE_BY_SELF_COST`. -/
def ADD_STATE_BY_SELF_COST (u : LifeUnit) (i : Nat) (fCostHP : Rat) : List HealthCall :=
  if (u.health : Rat) < fCostHP then [] else [.addHealth i ((-fCostHP).num.tdiv (-fCostHP).den)]

def MAGIC_SINGLE_REGION_DAMAGE_BY_SUMMON_DEAD (u : LifeUnit) (i : Nat) : List HealthCall :=
  if u.health = 0 then [] else [.damage i u.health]

/-- `SKILL_RESURRECTION`, `SKILL_RESURRECTION_WITH_RECOVER` and the item effect `RESURECTION`. -/
def SKILL_RESURRECTION (u : LifeUnit) (i : Nat) (nIncHP : Int) : List HealthCall :=
  if u.health ≠ 0 then [] else [.addHealth i nIncHP]

/-- The guard of `Resurrect` and `ResurrectByState`. -/
def resurrectable (u : LifeUnit) : Prop :=
  u.health = 0 ∧ (u.pursuits.states.kind = .summon ∨ u.pursuits.states.kind = .player)

instance (u : LifeUnit) : Decidable (resurrectable u) := inferInstanceAs (Decidable (_ ∧ _))

def resurrect (u : LifeUnit) (i : Nat) (nIncHP : Int) : List HealthCall :=
  if resurrectable u then [.addHealth i (max nIncHP 1)] else []

/-- `nIncHP` is that of the state with the highest level, if there is one. -/
def resurrectByState (u : LifeUnit) (i : Nat) (nIncHP : Option Int) : List HealthCall :=
  if resurrectable u then nIncHP.toList.map (.addHealth i) else []

def calculateStat (u : LifeUnit) (i nMaxHealth : Nat) : List HealthCall :=
  [.setMaxHealth i nMaxHealth, .setHealth i u.health]

/-- What a new level gives. -/
def levelUp (u : LifeUnit) (i : Nat) : List HealthCall := if u.health ≠ 0 then [.setHealth i u.maxHealth] else []

/-- The value `hp` of a script. -/
def script (i : Nat) (hp : Int) : List HealthCall := [.setHealth i hp]

end HealthCall

inductive LifeAction
  | enter (health : Int) (maxHealth : Nat) (pursuits : Pursuits)
  | pursue (i : Nat) (pursuits : Pursuits)
  | damage (i : Nat) (nDamage : Int)
  | heal (i : Nat) (n : Int)
  | processAddHPMPOnCritical (i : Nat) (nAddHP : List Int)
  | regenHPMP (i : Nat) (pti : Int)
  | stealOnAttack (i j : Nat) (hp_steal : Int)
  | skillCost (i : Nat) (cost_hp : Int)
  | dealSummonHP (i : Nat) (decHP : Int)
  | addHpMp (effect : HealthCall.AddHpMpEffect) (isPlayer : Bool) (summon : Option Nat) (j : Nat) (nDecHP nIncHP : Int)
  | absorb (i owner : Nat) (nHPDamage nHPAbsorb : Int)
  | damageWithAbsorb (i owner : Nat) (nDamage nAddHP : Int)
  | selfCost (i : Nat) (fCostHP : Rat)
  | summonDead (i : Nat)
  | skillResurrection (i : Nat) (nIncHP : Int)
  | resurrect (i : Nat) (nIncHP : Int)
  | resurrectByState (i : Nat) (nIncHP : Option Int)
  | calculateStat (i nMaxHealth : Nat)
  | levelUp (i : Nat)
  | script (i : Nat) (hp : Int)

/-- What is done, and the time. -/
structure LifeEvent where
  action : LifeAction
  ct : Nat

namespace LifeUnits

/-- A unit comes into the world; the one that comes with no health has died before. -/
def enter (s : LifeUnits) (health : Int) (maxHealth : Nat) (pursuits : Pursuits) : LifeUnits :=
  s ++ [({ health := 0, maxHealth := maxHealth, deadTime := 0, pursuits := pursuits, deaths := 1 } : LifeUnit).setHealth health]

def pursue (s : LifeUnits) (i : Nat) (pursuits : Pursuits) : Option LifeUnits :=
  s.onUnit i fun u => some { u with pursuits := pursuits }

/-- The calls of an action; there are none of an action on a unit that does not exist. -/
def actionCalls (s : LifeUnits) : LifeAction → Option (List HealthCall)
  | .enter _ _ _ | .pursue _ _ => some []
  | .damage i nDamage => some [.damage i nDamage]
  | .heal i n => some (HealthCall.heal i n)
  | .processAddHPMPOnCritical i nAddHP => some (HealthCall.processAddHPMPOnCritical i nAddHP)
  | .regenHPMP i pti => (s[i]?).map fun u => HealthCall.regenHPMP u i pti
  | .stealOnAttack i j hp_steal => (s[j]?).map fun u => HealthCall.stealOnAttack i u j hp_steal
  | .skillCost i cost_hp => (s[i]?).map fun u => HealthCall.skillCost u i cost_hp
  | .dealSummonHP i decHP => (s[i]?).map fun u => HealthCall.dealSummonHP u i decHP
  | .addHpMp effect isPlayer summon j nDecHP nIncHP => some (HealthCall.SKILL_ADD_HP_MP effect isPlayer
      (summon.bind fun i => (s[i]?).map fun u => (u, i)) j nDecHP nIncHP)
  | .absorb i owner nHPDamage nHPAbsorb => some (HealthCall.ADD_HP_MP_BY_ABSORB_HP_MP i owner nHPDamage nHPAbsorb)
  | .damageWithAbsorb i owner nDamage nAddHP => some (HealthCall.damageWithAbsorb i owner nDamage nAddHP)
  | .selfCost i fCostHP => (s[i]?).map fun u => HealthCall.ADD_STATE_BY_SELF_COST u i fCostHP
  | .summonDead i => (s[i]?).map fun u => HealthCall.MAGIC_SINGLE_REGION_DAMAGE_BY_SUMMON_DEAD u i
  | .skillResurrection i nIncHP => (s[i]?).map fun u => HealthCall.SKILL_RESURRECTION u i nIncHP
  | .resurrect i nIncHP => (s[i]?).map fun u => HealthCall.resurrect u i nIncHP
  | .resurrectByState i nIncHP => (s[i]?).map fun u => HealthCall.resurrectByState u i nIncHP
  | .calculateStat i nMaxHealth => (s[i]?).map fun u => HealthCall.calculateStat u i nMaxHealth
  | .levelUp i => (s[i]?).map fun u => HealthCall.levelUp u i
  | .script i hp => some (HealthCall.script i hp)

def handle (s : LifeUnits) (e : LifeEvent) : Option LifeUnits :=
  match e.action with
  | .enter health maxHealth pursuits => some (s.enter health maxHealth pursuits)
  | .pursue i pursuits => s.pursue i pursuits
  | action => (s.actionCalls action).bind fun cs => calls e.ct cs s

def system : System LifeUnits LifeEvent := .ofFun (· = []) handle

end LifeUnits

end RZEmulator.Chihiro
