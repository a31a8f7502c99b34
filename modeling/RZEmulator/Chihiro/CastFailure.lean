import RZEmulator.Chihiro.SkillCost

/-!
# Casts that fail

`Skill::Cast` as `Unit::CastSkill` calls it, with `PrepareTaming`, `PrepareSummon` and all checks in their order. Floats are rational
numbers, what the checks read besides the units and props is given, and so is the place where the random walk of `PrepareSummon`
ends. `castSkill_noTrace_iff` says which failed casts leave no trace.
-/

namespace RZEmulator.Chihiro

open DropTables

/-- The effects that `Cast` looks at. -/
inductive CastEffect
  | EF_SUMMON
  | EF_UNSUMMON
  | EF_UNSUMMON_AND_ADD_STATE
  | EF_MAGIC_SINGLE_DAMAGE_OR_DEATH
  | EF_ADD_STATE_BY_TARGET_TYPE
  | EF_PHYSICAL_SINGLE_DAMAGE_WITH_SHIELD
  | EF_PHYSICAL_SINGLE_DAMAGE_RUSH_KNOCKBACK_OLD
  | EF_PHYSICAL_SINGLE_DAMAGE_WITHOUT_WEAPON_RUSH_KNOCK_BACK
  | EF_PHYSICAL_SINGLE_DAMAGE_RUSH
  | EF_PHYSICAL_SINGLE_DAMAGE_RUSH_KNOCKBACK
  | EF_ACTIVATE_FIELD_PROP
  | EF_REGION_HEAL_BY_FIELD_PROP
  | EF_AREA_EFFECT_HEAL_BY_FIELD_PROP
  | EF_MAGIC_SINGLE_DAMAGE_BY_CONSUMING_TARGETS_STATE
  | EF_PHYSICAL_SINGLE_DAMAGE_BY_CONSUMING_TARGETS_STATE
  | EF_RESPAWN_MONSTER_NEAR
  | EF_TOGGLE_AURA
  | EF_TOGGLE_DIFFERENTIAL_AURA
  | EF_ADD_STATE_BY_SELF_COST
  | EF_ADD_REGION_STATE_BY_SELF_COST
  | EF_MAGIC_MULTIPLE_DAMAGE_T1_DEAL_SUMMON_HP_OLD
  | EF_ADD_HP_MP_BY_SUMMON_DAMAGE
  | EF_ADD_HP_MP_BY_SUMMON_DEAD
  | EF_ADD_HP_MP_BY_STEAL_SUMMON_HP_MP
  | EF_MAGIC_MULTIPLE_DAMAGE_DEAL_SUMMON_HP
  | other
  deriving DecidableEq

/-- The errors; those for the costs are `CostError`. -/
inductive CastError
  | TS_RESULT_NOT_ACTABLE
  | TS_RESULT_COOL_TIME
  | TS_RESULT_LIMIT_WEAPON
  | TS_RESULT_LIMIT_RACE
  | TS_RESULT_NOT_EXIST
  | TS_RESULT_NOT_ENOUGH_HP
  | TS_RESULT_ALREADY_TAMING
  | cost (e : CostError)

inductive CastStatus
  | SS_IDLE
  | SS_CAST
  | SS_PRE_CAST
  deriving DecidableEq

inductive CastUnitKind
  | player
  | summon
  | monster
  | other
  deriving DecidableEq

structure UnitState where
  code : Int
  uid : Int
  level : Int
  deriving DecidableEq

structure CastUnit where
  kind : CastUnitKind
  vitals : Vitals
  energy : Int
  states : List UnitState
  x : ℚ
  y : ℚ
  layer : Nat
  moving : Bool
  inWorld : Bool
  creatureGroup : Int
  tameItemCode : Int
  tamer : Nat

structure CastProp where
  nActivateSkillID : Int
  m_nUseCount : Int
  isUsable : Bool
  castingDelay : Nat
  visible : Bool
  m_bIsCasting : Bool

/-- What `PrepareSummon` reads of an item. -/
structure CastItem where
  isSummonCard : Bool
  ownerHandle : Nat
  bound : Bool
  summon : Option Nat

/-- The fields of a skill; of the results of the last cast there is only the number. -/
structure CastFields where
  m_nErrorCode : Int
  m_Status : CastStatus
  m_nCastTime : Nat
  m_nCastingDelay : Nat
  m_nFireTime : Nat
  m_nRequestedSkillLevel : Int
  m_hTarget : Nat
  m_targetPosition : ℚ × ℚ
  m_nCurrentFire : Int
  m_nTotalFire : Int
  m_nTargetCount : Int
  m_nFireCount : Int
  m_vResultList : Nat
  m_nNextCoolTime : Nat

/-- What a cast changes. The objects are known by their handles. -/
structure CastWorld where
  units : Nat → CastUnit
  props : Nat → Option CastProp
  skill : CastFields
  /-- The skill is the `m_castingSkill` of its owner. -/
  castingSkill : Bool

/-- A skill of `owner` with what the checks of a cast read. -/
structure CastData where
  owner : Nat
  items : Nat → Option CastItem
  skillId : Int
  effect : CastEffect
  var : Nat → ℚ
  skillLevel : Int
  enhance : Int
  costs : SkillCosts
  exp : Int
  jp : Int
  level : Int
  activeAura : Bool
  manaCostRatio : ℚ
  isNeedWeapon : Bool
  useableShield : Bool
  useableWeapon : Bool
  isWearShield : Bool
  mainSummon : Option Nat
  hasTameItem : Int → Bool
  tamingTarget : Nat
  collisionToLine : ℚ × ℚ → ℚ × ℚ → Bool
  spot : ℚ × ℚ
  calculateStat : List UnitState → Vitals → Vitals
  needStateId : Int
  needStateLevel : Int
  needStateExhaust : Bool
  castDelay : Nat
  scaledDelay : Nat
  time : Nat

def SKILL_CREATURE_TAMING : Int := 4003

/-- `Skill::Init`. -/
def CastFields.init (f : CastFields) : CastFields where
  m_nErrorCode := 0
  m_Status := .SS_IDLE
  m_nCastTime := 0
  m_nCastingDelay := 0
  m_nFireTime := 0
  m_nRequestedSkillLevel := 0
  m_hTarget := 0
  m_targetPosition := (0, 0)
  m_nCurrentFire := 0
  m_nTotalFire := 0
  m_nTargetCount := 1
  m_nFireCount := 1
  m_vResultList := 0
  m_nNextCoolTime := f.m_nNextCoolTime

namespace CastWorld

/-- `GetObjectInWorld<Unit>`. -/
def unitAt (w : CastWorld) (handle : Nat) : Option CastUnit := if (w.units handle).inWorld then some (w.units handle) else none

def updUnit (w : CastWorld) (handle : Nat) (f : CastUnit → CastUnit) : CastWorld :=
  { w with units := fun h => if h = handle then f (w.units handle) else w.units h }

def updSkill (w : CastWorld) (f : CastFields → CastFields) : CastWorld := { w with skill := f w.skill }

end CastWorld

namespace CastData

variable (D : CastData)

def ownerUnit (w : CastWorld) : CastUnit := w.units D.owner

def isPlayer (w : CastWorld) : Bool := (D.ownerUnit w).kind = .player

def isTaming : Bool := D.skillId = SKILL_CREATURE_TAMING

def isPropEffect : Bool :=
  match D.effect with
  | .EF_ACTIVATE_FIELD_PROP | .EF_REGION_HEAL_BY_FIELD_PROP | .EF_AREA_EFFECT_HEAL_BY_FIELD_PROP => true
  | _ => false

/-- The requested level of `SetRequestedSkillLevel`. -/
def requested (nSkillLevel : Int) : Int :=
  let nLevel := min nSkillLevel D.skillLevel
  (if nLevel ≤ D.skillLevel then nLevel else D.skillLevel) % 2 ^ 8

/-- `GetVar(a) + GetVar(b) * level + GetVar(c) * enhance`. -/
def varSum (a b c : Nat) (level : Int) : ℚ := D.var a + D.var b * level + D.var c * D.enhance

/-! ### The checks -/

/-- The cool time and the weapon. -/
def weaponError (w : CastWorld) : Option CastError :=
  if ¬w.skill.m_nNextCoolTime < D.time then some .TS_RESULT_COOL_TIME
  else if D.isNeedWeapon = false then none
  else if D.useableShield = true then if D.isWearShield = true then none else some .TS_RESULT_LIMIT_WEAPON
  else if D.useableWeapon = true then none else some .TS_RESULT_LIMIT_WEAPON

/-- `Skill::PrepareTaming`. -/
def prepareTaming (w : CastWorld) (handle : Nat) : Option CastError :=
  if D.isPlayer w = false then some .TS_RESULT_NOT_ACTABLE
  else match w.unitAt handle with
    | none => some .TS_RESULT_NOT_ACTABLE
    | some u =>
      if u.kind ≠ .monster ∨ u.tameItemCode = 0 ∨ u.tamer ≠ 0 then some .TS_RESULT_NOT_ACTABLE
      else if u.vitals.health ≠ u.vitals.maxHealth then some .TS_RESULT_NOT_ENOUGH_HP
      else if D.hasTameItem u.tameItemCode = false then some .TS_RESULT_NOT_ACTABLE
      else if D.tamingTarget ≠ 0 then some .TS_RESULT_ALREADY_TAMING
      else none

/-- The checks of `Skill::PrepareSummon`, and the summon. -/
def summonOf (w : CastWorld) (handle : Nat) : Except CastError Nat :=
  if D.isPlayer w = false then .error .TS_RESULT_NOT_ACTABLE
  else match D.items handle with
    | none => .error .TS_RESULT_NOT_ACTABLE
    | some item =>
      if item.isSummonCard = false ∨ item.ownerHandle ≠ D.owner ∨ item.bound = false then .error .TS_RESULT_NOT_ACTABLE
      else match item.summon with
        | none => .error .TS_RESULT_NOT_EXIST
        | some summon => if (w.units summon).inWorld = true then .error .TS_RESULT_NOT_ACTABLE else .ok summon

/-- Its end: the summon is put near its master. -/
def placeSummon (w : CastWorld) (summon : Nat) : CastWorld :=
  (w.updUnit summon fun u => { u with x := D.spot.1, y := D.spot.2, layer := (D.ownerUnit w).layer, moving := false }).updSkill
    fun f => { f with m_targetPosition := D.spot }

def hasMainSummon (w : CastWorld) : Bool := D.isPlayer w && D.mainSummon.isSome

def rushError (w : CastWorld) (handle : Nat) (v : ℚ) : Option CastError :=
  match w.unitAt handle with
  | none => some .TS_RESULT_NOT_ACTABLE
  | some u =>
    let me := D.ownerUnit w
    let nMinDistance := truncated (v * 12)
    -- the distance is below `nMinDistance`
    if 0 < nMinDistance ∧ (me.x - u.x) ^ 2 + (me.y - u.y) ^ 2 < nMinDistance ^ 2 then some .TS_RESULT_NOT_ACTABLE
    else if D.collisionToLine (me.x, me.y) (u.x, u.y) = true then some .TS_RESULT_NOT_ACTABLE
    else none

def propUseError (w : CastWorld) (handle : Nat) : Option CastError :=
  if D.isPlayer w = false then some .TS_RESULT_NOT_ACTABLE
  else match w.props handle with
    | none => some .TS_RESULT_NOT_ACTABLE
    | some p =>
      if p.nActivateSkillID ≠ D.skillId ∨ p.m_nUseCount < 1 ∨ p.isUsable = false then some .TS_RESULT_NOT_ACTABLE else none

def dispelError (w : CastWorld) (handle : Nat) : Option CastError :=
  match w.unitAt handle with
  | none => some .TS_RESULT_NOT_ACTABLE
  | some u =>
    if u.states.any fun s => s.code = truncated (D.var 0) || s.code = truncated (D.var 1) || s.code = truncated (D.var 2) ||
        s.code = truncated (D.var 3) then none
    else some .TS_RESULT_NOT_ACTABLE

/-- The checks of the single effects. -/
def effectError (w : CastWorld) (handle : Nat) : Option CastError :=
  match D.effect with
  | .EF_UNSUMMON | .EF_UNSUMMON_AND_ADD_STATE => if D.hasMainSummon w = true then none else some .TS_RESULT_NOT_ACTABLE
  | .EF_MAGIC_SINGLE_DAMAGE_OR_DEATH =>
    match w.unitAt handle with
    | none => some .TS_RESULT_NOT_ACTABLE
    | some u =>
      if u.kind ≠ .monster then some .TS_RESULT_NOT_ACTABLE
      else if D.var 8 ≠ u.creatureGroup then some .TS_RESULT_LIMIT_RACE
      else none
  -- the comparison of the creature groups accepts all of them
  | .EF_ADD_STATE_BY_TARGET_TYPE => if (w.unitAt handle).isSome = true then none else some .TS_RESULT_NOT_ACTABLE
  | .EF_PHYSICAL_SINGLE_DAMAGE_WITH_SHIELD => if D.isWearShield = true then none else some .TS_RESULT_LIMIT_WEAPON
  | .EF_PHYSICAL_SINGLE_DAMAGE_RUSH_KNOCKBACK_OLD | .EF_PHYSICAL_SINGLE_DAMAGE_WITHOUT_WEAPON_RUSH_KNOCK_BACK =>
    D.rushError w handle (D.var 3)
  | .EF_PHYSICAL_SINGLE_DAMAGE_RUSH | .EF_PHYSICAL_SINGLE_DAMAGE_RUSH_KNOCKBACK => D.rushError w handle (D.var 4)
  | .EF_ACTIVATE_FIELD_PROP | .EF_REGION_HEAL_BY_FIELD_PROP | .EF_AREA_EFFECT_HEAL_BY_FIELD_PROP => D.propUseError w handle
  | .EF_MAGIC_SINGLE_DAMAGE_BY_CONSUMING_TARGETS_STATE | .EF_PHYSICAL_SINGLE_DAMAGE_BY_CONSUMING_TARGETS_STATE =>
    D.dispelError w handle
  | .EF_RESPAWN_MONSTER_NEAR => if (D.ownerUnit w).kind = .monster then none else some .TS_RESULT_NOT_ACTABLE
  | _ => none

/-- The caster with its balances. -/
def costCaster (w : CastWorld) : CostCaster :=
  ⟨(D.ownerUnit w).vitals, D.exp, D.jp, (D.ownerUnit w).energy, 0, D.level, D.activeAura, D.manaCostRatio, D.enhance⟩

def skillCosts : SkillCosts :=
  { D.costs with aura := D.effect = .EF_TOGGLE_AURA || D.effect = .EF_TOGGLE_DIFFERENTIAL_AURA }

def isSelfCost : Bool := D.effect = .EF_ADD_STATE_BY_SELF_COST || D.effect = .EF_ADD_REGION_STATE_BY_SELF_COST

/-- The costs of a summon that is the target. -/
def selfCostError (w : CastWorld) (handle : Nat) (level : Int) : Option CastError :=
  let fCostHP := D.varSum 0 1 2 level
  let fCostEnergy := D.varSum 6 7 8 level
  let fCostMP := if D.effect = .EF_ADD_STATE_BY_SELF_COST then D.varSum 9 10 11 level else 0
  match w.unitAt handle with
  | none => some .TS_RESULT_NOT_ACTABLE
  | some u =>
    if u.kind ≠ .summon then some .TS_RESULT_NOT_ACTABLE
    else if fCostHP ≠ 0 ∧ (u.vitals.health : ℚ) < fCostHP then some .TS_RESULT_NOT_ENOUGH_HP
    else if 0 < fCostEnergy ∧ (u.energy : ℚ) < fCostEnergy ∨ fCostEnergy = -1 ∧ u.energy = 0 then some (.cost .TS_RESULT_NOT_ENOUGH_ENERGY)
    else if fCostMP ≠ 0 ∧ (u.vitals.mana : ℚ) < fCostMP then some (.cost .TS_RESULT_NOT_ENOUGH_MP)
    else none

/-- What the main summon is to lose, for the effects that cost it. -/
def summonCost (summon : CastUnit) (level : Int) : Option (Int × Int) :=
  match D.effect with
  | .EF_MAGIC_MULTIPLE_DAMAGE_T1_DEAL_SUMMON_HP_OLD => some (truncated (D.varSum 6 7 8 level), 0)
  | .EF_MAGIC_MULTIPLE_DAMAGE_DEAL_SUMMON_HP => some (truncated (D.varSum 9 10 11 level), 0)
  | .EF_ADD_HP_MP_BY_SUMMON_DAMAGE => some (truncated (summon.vitals.maxHealth * D.var 10), 0)
  | .EF_ADD_HP_MP_BY_STEAL_SUMMON_HP_MP => some (truncated (D.varSum 0 1 4 level), truncated (D.varSum 2 3 5 level))
  | .EF_ADD_HP_MP_BY_SUMMON_DEAD => some (0, 0)
  | _ => none

def summonCostError (w : CastWorld) (level : Int) : Option CastError :=
  match D.summonCost (w.units (D.mainSummon.getD 0)) level with
  | none => none
  | some (decHP, decMP) =>
    if D.hasMainSummon w = false then some .TS_RESULT_NOT_ENOUGH_HP
    else if (w.units (D.mainSummon.getD 0)).vitals.health < decHP + 1 then some .TS_RESULT_NOT_ENOUGH_HP
    else if (w.units (D.mainSummon.getD 0)).vitals.mana < decMP then some (.cost .TS_RESULT_NOT_ENOUGH_MP)
    else none

/-- All checks of costs. -/
def costError (w : CastWorld) (handle : Nat) (level : Int) : Option CastError :=
  match D.skillCosts.castError level (D.costCaster w) with
  | some e => some (.cost e)
  | none =>
    match if D.isSelfCost then D.selfCostError w handle level else none with
    | some e => some e
    | none => D.summonCostError w level

/-- The state that the skill needs. -/
def neededState (w : CastWorld) : Option UnitState := (D.ownerUnit w).states.find? fun s => s.code = D.needStateId

def needStateError (w : CastWorld) : Option CastError :=
  if D.needStateId = 0 then none
  else match D.neededState w with
    | none => some .TS_RESULT_NOT_ACTABLE
    | some s => if s.level < D.needStateLevel then some .TS_RESULT_NOT_ACTABLE else none

/-- `RemoveState` for the state that is needed. -/
def exhaust (w : CastWorld) : CastWorld :=
  match if D.needStateId ≠ 0 ∧ D.needStateExhaust = true then D.neededState w else none with
  | none => w
  | some s => w.updUnit D.owner fun u =>
      let states := u.states.eraseP fun t => t.uid = s.uid
      { u with states := states, vitals := D.calculateStat states u.vitals }

/-- The second check of a prop. -/
def propError (w : CastWorld) (handle : Nat) : Option CastError :=
  if D.isPropEffect = false then none
  else match w.props handle with
    | none => some .TS_RESULT_NOT_ACTABLE
    | some p => if p.visible = true then none else some .TS_RESULT_NOT_ACTABLE

/-! ### The cast -/

/-- What the part of `Cast` for the effects ends with: an error that is returned at once, one that goes through `InitError`, or the world
and the delay with which it goes on. -/
inductive Prepared
  | returned (e : CastError)
  | failed (e : CastError)
  | ready (w : CastWorld) (delay : Option Nat)

def prepare (w : CastWorld) (handle : Nat) : Prepared :=
  if D.isTaming then
    match D.prepareTaming w handle with
    | some e => .returned e
    | none => .ready w none
  else if D.effect = .EF_SUMMON then
    match D.summonOf w handle with
    | .error e => .returned e
    | .ok summon => .ready (D.placeSummon w summon) none
  else match D.effectError w handle with
    | some e => .failed e
    | none => .ready w (if D.isPropEffect then (w.props handle).map CastProp.castingDelay else none)

/-- `Skill::InitError`. -/
def initError (e : CastError) (w : CastWorld) : Option CastError × CastWorld := (some e, w.updSkill CastFields.init)

/-- The lock of the prop. -/
def lockProp (w : CastWorld) (handle : Nat) : CastWorld :=
  if D.isPropEffect then
    { w with props := fun h => if h = handle then (w.props handle).map fun p => { p with m_bIsCasting := true } else w.props h }
  else w

/-- The end of `Cast`; nothing is paid yet. -/
def beginCast (w : CastWorld) (handle : Nat) (pos : ℚ × ℚ) (nMP : Int) (delay : Option Nat) : CastWorld :=
  ((D.lockProp w handle).updUnit D.owner fun u => { u with vitals := u.vitals.setMana nMP }).updSkill fun f =>
    { f with
      m_targetPosition := if D.effect ≠ .EF_SUMMON then pos else f.m_targetPosition
      m_hTarget := handle
      m_nCastTime := D.time
      m_nCastingDelay := delay.getD D.castDelay
      m_nFireTime := D.time + delay.getD D.scaledDelay
      m_Status := .SS_CAST }

/-- The part of `Cast` behind the effects. -/
def castRest (w : CastWorld) (handle : Nat) (pos : ℚ × ℚ) (level : Int) (delay : Option Nat) : Option CastError × CastWorld :=
  match D.costError w handle level with
  | some e => initError e w
  | none =>
    match D.needStateError w with
    | some e => initError e w
    | none =>
      match D.propError (D.exhaust w) handle with
      | some e => initError e (D.exhaust w)
      | none => (none, D.beginCast (D.exhaust w) handle pos (D.ownerUnit w).vitals.mana delay)

/-- The first lines of `Cast`. -/
def preCast (w : CastWorld) (nSkillLevel : Int) : CastWorld :=
  w.updSkill fun f => { f with m_vResultList := 0, m_Status := .SS_PRE_CAST, m_nRequestedSkillLevel := D.requested nSkillLevel }

/-- `Skill::Cast`; without an error it is a success. -/
def cast (w : CastWorld) (nSkillLevel : Int) (handle : Nat) (pos : ℚ × ℚ) : Option CastError × CastWorld :=
  let w := D.preCast w nSkillLevel
  match D.weaponError w with
  | some e => initError e w
  | none =>
    match D.prepare w handle with
    | .returned e => (some e, w)
    | .failed e => initError e w
    | .ready w' delay => D.castRest w' handle pos (D.requested nSkillLevel) delay

/-- The end of `Unit::CastSkill`. -/
def castSkill (w : CastWorld) (nSkillLevel : Int) (handle : Nat) (pos : ℚ × ℚ) : Option CastError × CastWorld :=
  let result := D.cast { w with castingSkill := true } nSkillLevel handle pos
  (result.1, if result.1.isSome then { result.2 with castingSkill := false } else result.2)

end CastData

/-! ## What is claimed -/

/-- Health, mana, energy, states, position and layer. -/
def CastUnit.seen (u : CastUnit) : Vitals × Int × List UnitState × (ℚ × ℚ) × Nat := (u.vitals, u.energy, u.states, (u.x, u.y), u.layer)

/-- A failed cast has left no trace: the skill is idle and has its fields reset, and no cool time has been started. -/
structure NoTrace (w w' : CastWorld) : Prop where
  casting : w'.castingSkill = false
  skill : w'.skill = w.skill.init
  units : ∀ h, (w'.units h).seen = (w.units h).seen
  props : ∀ h, (w'.props h).map CastProp.m_bIsCasting = (w.props h).map CastProp.m_bIsCasting

/-! ## The condition -/

/-- The summon is where it would be put. -/
def CastData.InPlace (D : CastData) (w : CastWorld) (summon : Nat) : Prop :=
  ((w.units summon).x, (w.units summon).y) = D.spot ∧ (w.units summon).layer = (D.ownerUnit w).layer

/-- If the first checks pass: a taming and a summoning pass their own, the summon is in place, and no state is exhausted before the
last check fails. -/
structure CastCareful (D : CastData) (w : CastWorld) (nSkillLevel : Int) (handle : Nat) : Prop where
  taming : D.weaponError w = none → D.isTaming = true → D.prepareTaming w handle = none
  summon : D.weaponError w = none → D.isTaming = false → D.effect = .EF_SUMMON → ∃ s, D.summonOf w handle = .ok s ∧ D.InPlace w s
  exhaust : D.weaponError w = none → (D.isTaming = true ∨ D.effect ≠ .EF_SUMMON ∧ D.effectError w handle = none) →
    D.costError w handle (D.requested nSkillLevel) = none → D.needStateError w = none → D.propError w handle ≠ none →
    D.needStateId ≠ 0 → D.needStateExhaust = false

/-! ## What the steps of a cast change -/

namespace CastData

variable {D : CastData} {w w' : CastWorld} {nSkillLevel : Int} {handle : Nat} {pos : ℚ × ℚ}

/-- An error through `InitError` leaves no trace where the steps before it have left none. -/
theorem noTrace_init_iff (hcool : w'.skill.m_nNextCoolTime = w.skill.m_nNextCoolTime) (hprops : w'.props = w.props) :
    NoTrace w { w'.updSkill CastFields.init with castingSkill := false } ↔ ∀ h, (w'.units h).seen = (w.units h).seen := by
  constructor
  · exact fun h => h.units
  · intro hunits
    refine ⟨rfl, ?_, hunits, ?_⟩
    · show w'.skill.init = w.skill.init
      unfold CastFields.init
      rw [hcool]
    · intro h
      show (w'.props h).map _ = _
      rw [hprops]

theorem placeSummon_seen_iff (summon : Nat) :
    (∀ h, ((D.placeSummon w summon).units h).seen = (w.units h).seen) ↔ D.InPlace w summon := by
  have hsame : (D.placeSummon w summon).units summon =
      { w.units summon with x := D.spot.1, y := D.spot.2, layer := (D.ownerUnit w).layer, moving := false } := if_pos rfl
  constructor
  · intro h
    have hseen := h summon
    rw [hsame] at hseen
    simp only [CastUnit.seen, Prod.mk.injEq, true_and] at hseen
    exact ⟨(Prod.ext hseen.1.1 hseen.1.2).symm, hseen.2.symm⟩
  · rintro ⟨hspot, hlayer⟩ h
    by_cases hh : h = summon
    · subst hh
      rw [hsame]
      simp only [CastUnit.seen, ← hspot, ← hlayer]
    · have hother : (D.placeSummon w summon).units h = w.units h := if_neg hh
      rw [hother]

theorem exhaust_eq_self (h : ¬(D.needStateId ≠ 0 ∧ D.needStateExhaust = true)) : D.exhaust w = w := by
  unfold exhaust
  rw [if_neg h]

/-- A state that is exhausted is missing afterwards. -/
theorem exhaust_seen_ne (hid : D.needStateId ≠ 0) (hexhaust : D.needStateExhaust = true) (herror : D.needStateError w = none) :
    ((D.exhaust w).units D.owner).seen ≠ (w.units D.owner).seen := by
  unfold needStateError at herror
  rw [if_neg hid] at herror
  cases hs : D.neededState w with
  | none =>
    rw [hs] at herror
    exact nomatch herror
  | some s =>
    have hmem : s ∈ (w.units D.owner).states := List.mem_of_find?_eq_some hs
    have hunit : ((D.exhaust w).units D.owner).states = (w.units D.owner).states.eraseP fun t => t.uid = s.uid := by
      unfold exhaust
      rw [if_pos ⟨hid, hexhaust⟩, hs]
      simp only [CastWorld.updUnit, if_true]
    intro heq
    have hstates : ((D.exhaust w).units D.owner).states = (w.units D.owner).states := congrArg (fun x => x.2.2.1) heq
    have hlength := List.length_eraseP_of_mem (p := fun t => decide (t.uid = s.uid)) hmem (by simp)
    have hpos := List.length_pos_of_mem hmem
    rw [← hunit, hstates] at hlength
    omega

theorem exhaust_skill : (D.exhaust w).skill = w.skill := by
  unfold exhaust
  split <;> rfl

theorem exhaust_props : (D.exhaust w).props = w.props := by
  unfold exhaust
  split <;> rfl

theorem propError_exhaust : D.propError (D.exhaust w) handle = D.propError w handle := by
  unfold propError
  rw [exhaust_props]

/-- The two ways in which the part behind the effects fails. -/
theorem castRest_error {level : Int} {delay : Option Nat} {e : CastError} (h : (D.castRest w handle pos level delay).1 = some e) :
    (D.castRest w handle pos level delay).2 = w.updSkill CastFields.init ∧
        ¬(D.costError w handle level = none ∧ D.needStateError w = none) ∨
      (D.castRest w handle pos level delay).2 = (D.exhaust w).updSkill CastFields.init ∧
        D.costError w handle level = none ∧ D.needStateError w = none ∧ D.propError w handle ≠ none := by
  unfold castRest at h ⊢
  cases hcost : D.costError w handle level with
  | some e => exact Or.inl ⟨rfl, fun h => nomatch h.1⟩
  | none =>
    cases hstate : D.needStateError w with
    | some e => exact Or.inl ⟨rfl, fun h => nomatch h.2⟩
    | none =>
      rw [hcost, hstate] at h
      dsimp only at h ⊢
      cases hprop : D.propError (D.exhaust w) handle with
      | some e =>
        refine Or.inr ⟨rfl, rfl, rfl, ?_⟩
        rw [← propError_exhaust, hprop]
        exact Option.some_ne_none e
      | none =>
        rw [hprop] at h
        exact nomatch h

theorem isPropEffect_summon (h : D.effect = .EF_SUMMON) : D.isPropEffect = false := by
  unfold isPropEffect
  rw [h]

/-! ## Failed casts -/

/-- The world in which the checks are made: only fields of the skill have changed. -/
def tried (D : CastData) (w : CastWorld) (nSkillLevel : Int) : CastWorld := D.preCast { w with castingSkill := true } nSkillLevel

/-- An error that does not go through `InitError` leaves the skill in `SS_PRE_CAST`. -/
theorem not_noTrace_returned : ¬NoTrace w { D.tried w nSkillLevel with castingSkill := false } := by
  intro h
  have hstatus : CastStatus.SS_PRE_CAST = CastStatus.SS_IDLE := congrArg CastFields.m_Status h.skill
  exact nomatch hstatus

theorem noTrace_failed : NoTrace w { (D.tried w nSkillLevel).updSkill CastFields.init with castingSkill := false } :=
  (noTrace_init_iff rfl rfl).mpr fun _ => rfl

/-- A cast that fails behind the effects, which have changed nothing. -/
theorem castRest_noTrace_iff {delay : Option Nat} {e : CastError}
    (h : (D.castRest (D.tried w nSkillLevel) handle pos (D.requested nSkillLevel) delay).1 = some e) :
    NoTrace w { (D.castRest (D.tried w nSkillLevel) handle pos (D.requested nSkillLevel) delay).2 with castingSkill := false } ↔
      (D.costError w handle (D.requested nSkillLevel) = none → D.needStateError w = none → D.propError w handle ≠ none →
        D.needStateId ≠ 0 → D.needStateExhaust = false) := by
  rcases castRest_error h with ⟨hresult, hnot⟩ | ⟨hresult, hcost, hstate, hprop⟩
  · rw [hresult]
    exact iff_of_true noTrace_failed fun hcost hstate => absurd ⟨hcost, hstate⟩ hnot
  · have hcool : (D.exhaust (D.tried w nSkillLevel)).skill.m_nNextCoolTime = w.skill.m_nNextCoolTime :=
      (congrArg CastFields.m_nNextCoolTime exhaust_skill).trans rfl
    have hprops : (D.exhaust (D.tried w nSkillLevel)).props = w.props := exhaust_props
    rw [hresult, noTrace_init_iff hcool hprops]
    constructor
    · intro hseen _ _ _ hid
      by_contra hexhaust
      rw [Bool.not_eq_false] at hexhaust
      exact exhaust_seen_ne hid hexhaust hstate (hseen D.owner)
    · intro hcond h
      rw [exhaust_eq_self]
      · rfl
      · rintro ⟨hid, hexhaust⟩
        exact nomatch hexhaust.symm.trans (hcond hcost hstate hprop hid)

/-- A cast that fails when the summon has been put near its master. -/
theorem castRest_placed_iff {summon : Nat} {delay : Option Nat} {e : CastError} (heffect : D.effect = .EF_SUMMON)
    (h : (D.castRest (D.placeSummon (D.tried w nSkillLevel) summon) handle pos (D.requested nSkillLevel) delay).1 = some e) :
    NoTrace w { (D.castRest (D.placeSummon (D.tried w nSkillLevel) summon) handle pos (D.requested nSkillLevel) delay).2 with
      castingSkill := false } ↔ D.InPlace w summon := by
  rcases castRest_error h with ⟨hresult, _⟩ | ⟨_, _, _, hprop⟩
  · have hcool : (D.placeSummon (D.tried w nSkillLevel) summon).skill.m_nNextCoolTime = w.skill.m_nNextCoolTime := rfl
    rw [hresult, noTrace_init_iff hcool rfl]
    exact @placeSummon_seen_iff D (D.tried w nSkillLevel) summon
  · exact absurd (if_pos (isPropEffect_summon heffect)) hprop

/-- The part of `Cast` for a taming. -/
theorem prepare_taming (htaming : D.isTaming = true) : D.prepare (D.tried w nSkillLevel) handle =
    match D.prepareTaming w handle with
    | some e => .returned e
    | none => .ready (D.tried w nSkillLevel) none := if_pos htaming

theorem prepare_summon (htaming : D.isTaming = false) (heffect : D.effect = .EF_SUMMON) :
    D.prepare (D.tried w nSkillLevel) handle =
      match D.summonOf w handle with
      | .error e => .returned e
      | .ok summon => .ready (D.placeSummon (D.tried w nSkillLevel) summon) none := by
  unfold prepare
  rw [if_neg (by simp [htaming]), if_pos heffect]
  rfl

theorem prepare_effect (htaming : D.isTaming = false) (heffect : D.effect ≠ .EF_SUMMON) :
    D.prepare (D.tried w nSkillLevel) handle =
      match D.effectError w handle with
      | some e => .failed e
      | none => .ready (D.tried w nSkillLevel) (if D.isPropEffect then (w.props handle).map CastProp.castingDelay else none) := by
  unfold prepare
  rw [if_neg (by simp [htaming]), if_neg heffect]
  rfl

/-- The result of a cast that fails. -/
theorem castSkill_failed {e : CastError} (herror : (D.castSkill w nSkillLevel handle pos).1 = some e) :
    (D.castSkill w nSkillLevel handle pos).2 =
      { (D.cast { w with castingSkill := true } nSkillLevel handle pos).2 with castingSkill := false } := by
  have hcast : (D.cast { w with castingSkill := true } nSkillLevel handle pos).1 = some e := herror
  show (if _ then _ else _) = _
  rw [if_pos (by rw [hcast]; rfl)]

/-- `Cast` with the world in which its checks are made. -/
theorem cast_eq : D.cast { w with castingSkill := true } nSkillLevel handle pos =
    match D.weaponError w with
    | some e => initError e (D.tried w nSkillLevel)
    | none =>
      match D.prepare (D.tried w nSkillLevel) handle with
      | .returned e => (some e, D.tried w nSkillLevel)
      | .failed e => initError e (D.tried w nSkillLevel)
      | .ready w' delay => D.castRest w' handle pos (D.requested nSkillLevel) delay := rfl

/-- A failed cast of a skill leaves no trace if and only if it is a careful one. -/
theorem castSkill_noTrace_iff (D : CastData) (w : CastWorld) (nSkillLevel : Int) (handle : Nat) (pos : ℚ × ℚ) (e : CastError)
    (herror : (D.castSkill w nSkillLevel handle pos).1 = some e) :
    NoTrace w (D.castSkill w nSkillLevel handle pos).2 ↔ CastCareful D w nSkillLevel handle := by
  rw [castSkill_failed herror]
  have hcast : (D.cast { w with castingSkill := true } nSkillLevel handle pos).1 = some e := herror
  rw [cast_eq] at hcast ⊢
  cases hweapon : D.weaponError w with
  | some x =>
    refine iff_of_true noTrace_failed ⟨?_, ?_, ?_⟩ <;> exact fun h => nomatch hweapon.symm.trans h
  | none =>
    rw [hweapon] at hcast
    dsimp only at hcast ⊢
    cases htaming : D.isTaming with
    | true =>
      rw [prepare_taming htaming] at hcast ⊢
      cases hprepare : D.prepareTaming w handle with
      | some x => exact iff_of_false not_noTrace_returned fun h => nomatch hprepare.symm.trans (h.taming hweapon htaming)
      | none =>
        rw [hprepare] at hcast
        rw [castRest_noTrace_iff hcast]
        constructor
        · intro h
          exact ⟨fun _ _ => hprepare, fun _ hnot => (nomatch htaming.symm.trans hnot), fun _ _ => h⟩
        · exact fun h => h.exhaust hweapon (Or.inl htaming)
    | false =>
      by_cases heffect : D.effect = .EF_SUMMON
      · rw [prepare_summon htaming heffect] at hcast ⊢
        cases hsummon : D.summonOf w handle with
        | error x =>
          refine iff_of_false not_noTrace_returned fun h => ?_
          obtain ⟨s, hs, _⟩ := h.summon hweapon htaming heffect
          exact nomatch hsummon.symm.trans hs
        | ok s =>
          rw [hsummon] at hcast
          rw [castRest_placed_iff heffect hcast]
          constructor
          · intro h
            refine ⟨fun _ hnot => (nomatch htaming.symm.trans hnot), fun _ _ _ => ⟨s, hsummon, h⟩, ?_⟩
            rintro _ (hnot | ⟨hnot, _⟩)
            · exact nomatch htaming.symm.trans hnot
            · exact absurd heffect hnot
          · intro h
            obtain ⟨s', hs', hinplace⟩ := h.summon hweapon htaming heffect
            cases hsummon.symm.trans hs'
            exact hinplace
      · rw [prepare_effect htaming heffect] at hcast ⊢
        cases hx : D.effectError w handle with
        | some x =>
          refine iff_of_true noTrace_failed
            ⟨fun _ hnot => (nomatch htaming.symm.trans hnot), fun _ _ hs => absurd hs heffect, ?_⟩
          rintro _ (hnot | ⟨_, hnone⟩)
          · exact nomatch htaming.symm.trans hnot
          · exact nomatch hx.symm.trans hnone
        | none =>
          rw [hx] at hcast
          rw [castRest_noTrace_iff hcast]
          constructor
          · intro h
            exact ⟨fun _ hnot => (nomatch htaming.symm.trans hnot), fun _ _ hs => absurd hs heffect, fun _ _ => h⟩
          · exact fun h => h.exhaust hweapon (Or.inr ⟨heffect, hx⟩)

/-- A unit of a kind, alone in the world. -/
def loneUnit (kind : CastUnitKind) : CastUnit := ⟨kind, ⟨100, 100, 100, 100⟩, 0, [], 0, 0, 0, false, true, 0, 0, 0⟩

def loneWorld (kind : CastUnitKind) : CastWorld where
  units _ := loneUnit kind
  props _ := none
  skill := (CastFields.init ⟨0, .SS_IDLE, 0, 0, 0, 0, 0, (0, 0), 0, 0, 0, 0, 0, 10⟩)
  castingSkill := false

/-- A skill without costs at a time, whose cool time ends at 10. -/
def tamingSkill (time : Nat) : CastData where
  owner := 0
  items _ := none
  skillId := SKILL_CREATURE_TAMING
  effect := .other
  var _ := 0
  skillLevel := 1
  enhance := 0
  costs := SkillCosts.manaSkill 0 0
  exp := 0
  jp := 0
  level := 1
  activeAura := false
  manaCostRatio := 1
  isNeedWeapon := false
  useableShield := false
  useableWeapon := false
  isWearShield := false
  mainSummon := none
  hasTameItem _ := false
  tamingTarget := 0
  collisionToLine _ _ := false
  spot := (0, 0)
  calculateStat _ v := v
  needStateId := 0
  needStateLevel := 0
  needStateExhaust := false
  castDelay := 0
  scaledDelay := 0
  time := time

theorem castSkill_noTrace_iff_tamingSkill :
    NoTrace (loneWorld .player) ((tamingSkill 5).castSkill (loneWorld .player) 1 0 (0, 0)).2 ↔
      CastCareful (tamingSkill 5) (loneWorld .player) 1 0 :=
  castSkill_noTrace_iff (tamingSkill 5) (loneWorld .player) 1 0 (0, 0) .TS_RESULT_COOL_TIME rfl

/-- A taming by a unit that is no player: the skill stays in `SS_PRE_CAST`. -/
theorem not_noTrace_tamingSkill : ¬∀ (D : CastData) (w : CastWorld) (nSkillLevel : Int) (handle : Nat) (pos : ℚ × ℚ) (e : CastError),
    (D.castSkill w nSkillLevel handle pos).1 = some e → NoTrace w (D.castSkill w nSkillLevel handle pos).2 := by
  intro h
  have htrace := h (tamingSkill 20) (loneWorld .summon) 1 0 (0, 0) .TS_RESULT_NOT_ACTABLE rfl
  have hstatus : CastStatus.SS_PRE_CAST = CastStatus.SS_IDLE := congrArg CastFields.m_Status htrace.skill
  exact nomatch hstatus

end CastData

end RZEmulator.Chihiro
