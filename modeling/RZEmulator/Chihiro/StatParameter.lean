import RZEmulator.Lib.MachineInt
import RZEmulator.Chihiro.AdditionalDamage

/-!
# Parameters of a unit by bits

`incParameter`, `ampParameter`, `incParameter2` and `ampParameter2` of `CalculateStat.cpp`. Each is a list of lines, one for each
`if` of the source in its order, which add a value to a number of the unit, append to its lists of additional damages or stop a
regeneration. What a number becomes is read off the lines that name it. Floats are rational numbers.
-/

namespace RZEmulator.Chihiro

open Lib DropTables

/-! ## The numbers of a unit -/

/-- The seven stats of `CreatureStat` and its amplifier. -/
inductive StatField
  | strength | vital | agility | dexterity | intelligence | mentality | luck
  deriving DecidableEq

/-- The attributes of `CreatureAtributeServer` and its amplifier. -/
inductive AttributeField
  | nCritical | nCriticalPower | nAttackPointRight | nAttackPointLeft | nDefence | nBlockDefence | nMagicPoint | nMagicDefence
  | nAccuracyRight | nAccuracyLeft | nMagicAccuracy | nAvoid | nMagicAvoid | nBlockChance | nMoveSpeed | nAttackSpeed
  | nAttackRange | nMaxWeight | nCastingSpeed | nCoolTimeSpeed | nItemChance | nHPRegenPercentage | nHPRegenPoint
  | nMPRegenPercentage | nMPRegenPoint | nAttackSpeedRight | nAttackSpeedLeft | nDoubleAttackRatio | nStunResistance
  | nMoveSpeedDecreaseResistance | nHPAdd | nMPAdd | nHPAddByItem | nMPAddByItem
  deriving DecidableEq

inductive ElementalType
  | TYPE_NONE | TYPE_FIRE | TYPE_WATER | TYPE_WIND | TYPE_EARTH | TYPE_LIGHT | TYPE_DARK
  deriving DecidableEq

def ElementalType.all : List ElementalType :=
  [.TYPE_NONE, .TYPE_FIRE, .TYPE_WATER, .TYPE_WIND, .TYPE_EARTH, .TYPE_LIGHT, .TYPE_DARK]

/-- A number of the unit. -/
inductive Target
  | m_cStat (f : StatField)
  | m_StatAmplifier (f : StatField)
  | m_Attribute (f : AttributeField)
  | m_AttributeAmplifier (f : AttributeField)
  | m_Resist (e : ElementalType)
  | m_ResistAmplifier (e : ElementalType)
  | maxHealth
  | maxMana
  deriving DecidableEq

/-- The sum as the type of the number keeps it: resists have 16 bits, and the maxima are integers of 32. -/
def Target.add : Target → ℚ → ℚ → ℚ
  | .m_Resist _, x, v => (truncated (x + v) % 2 ^ 16 : Int)
  | .maxHealth, x, v => (narrow32 (truncated (x + v)) : Int)
  | .maxMana, x, v => (narrow32 (truncated (x + v)) : Int)
  | _, x, v => x + v

/-- What the functions ask about the unit and do not change. -/
structure UnitTraits where
  isUsingDoubleWeapon : Bool
  /-- `STATUS_MOVE_SPEED_FIXED` -/
  moveSpeedFixed : Bool
  /-- a player with a riding state -/
  hasRidingState : Bool
  isWearShield : Bool
  level : Int
  deriving DecidableEq

structure StatUnit where
  value : Target → ℚ
  m_vNormalAdditionalDamage : List AdditionalDamageInfo
  m_vRangeAdditionalDamage : List AdditionalDamageInfo
  /-- `STATUS_HP_REGEN_STOPPED` -/
  hpRegenStopped : Bool
  /-- `STATUS_MP_REGEN_STOPPED` -/
  mpRegenStopped : Bool
  traits : UnitTraits

/-! ## Lines -/

/-- The `if` around an addition that does not look at the bits. -/
inductive Gate
  | always
  | usingDoubleWeapon
  | notRiding
  | notFixedNorRiding
  deriving DecidableEq

def Gate.isOpen (x : UnitTraits) : Gate → Bool
  | .always => true
  | .usingDoubleWeapon => x.isUsingDoubleWeapon
  | .notRiding => !x.hasRidingState
  | .notFixedNorRiding => !x.moveSpeedFixed && !x.hasRidingState

/-- What a line does with the value. -/
inductive Effect
  | add (gate : Gate) (t : Target)
  /-- to both lists: the value as a fixed damage, or as a factor -/
  | additionalDamage (fixed : Bool) (e : ElementalType)
  | stopHPRegen
  | stopMPRegen
  deriving DecidableEq

/-- A statement of the source with the bit that is tested for it, by its position in `StateStatFlag` or `FlagEffectType`; a line
without a bit is always run. -/
structure ParamLine where
  bit : Option Nat
  effect : Effect
  deriving DecidableEq

/-- The number of a type of elements. -/
def ElementalType.toNat : ElementalType → Nat
  | .TYPE_NONE => 0
  | .TYPE_FIRE => 1
  | .TYPE_WATER => 2
  | .TYPE_WIND => 3
  | .TYPE_EARTH => 4
  | .TYPE_LIGHT => 5
  | .TYPE_DARK => 6

/-- The entry that is appended to the lists: `fixed` for `incParameter2`, else for `ampParameter2`. -/
def additionalEntry (fixed : Bool) (e : ElementalType) (v : ℚ) : AdditionalDamageInfo where
  ratio := 100
  require_type := 0
  type := e.toNat
  nDamage := if fixed = true then truncated v % 2 ^ 16 else 0
  fDamage := if fixed = true then 0 else v

def Effect.apply (v : ℚ) (u : StatUnit) : Effect → StatUnit
  | .add gate t => if gate.isOpen u.traits = true then { u with value := Function.update u.value t (t.add (u.value t) v) } else u
  | .additionalDamage fixed e => { u with
    m_vNormalAdditionalDamage := u.m_vNormalAdditionalDamage ++ [additionalEntry fixed e v]
    m_vRangeAdditionalDamage := u.m_vRangeAdditionalDamage ++ [additionalEntry fixed e v] }
  | .stopHPRegen => { u with hpRegenStopped := true }
  | .stopMPRegen => { u with mpRegenStopped := true }

/-- The bit of the line is set, if it has one. -/
def ParamLine.runs (nBitset : BitVec 32) (l : ParamLine) : Bool := l.bit.all fun bit => nBitset.getLsbD bit

def ParamLine.run (nBitset : BitVec 32) (v : ℚ) (u : StatUnit) (l : ParamLine) : StatUnit :=
  if l.runs nBitset = true then l.effect.apply v u else u

def runLines (lines : List ParamLine) (nBitset : BitVec 32) (v : ℚ) (u : StatUnit) : StatUnit :=
  lines.foldl (ParamLine.run nBitset v) u

/-! ## The functions -/

section

open StatField AttributeField ElementalType

/-- The lines for the stats. -/
def statLines (stat : StatField → Target) : List ParamLine :=
  [⟨some 0, .add .always (stat strength)⟩,
   ⟨some 1, .add .always (stat vital)⟩,
   ⟨some 2, .add .always (stat agility)⟩,
   ⟨some 3, .add .always (stat dexterity)⟩,
   ⟨some 4, .add .always (stat intelligence)⟩,
   ⟨some 5, .add .always (stat mentality)⟩,
   ⟨some 6, .add .always (stat luck)⟩]

/-- The lines of `incParameter` for the attributes. That for the attack speed of the left hand stands outside the test of its
bit. -/
def incAttributeLines : List ParamLine :=
  [⟨some 7, .add .always (.m_Attribute nAttackPointRight)⟩,
   ⟨some 7, .add .usingDoubleWeapon (.m_Attribute nAttackPointLeft)⟩,
   ⟨some 8, .add .always (.m_Attribute nMagicPoint)⟩,
   ⟨some 9, .add .always (.m_Attribute nDefence)⟩,
   ⟨some 10, .add .always (.m_Attribute nMagicDefence)⟩,
   ⟨some 11, .add .always (.m_Attribute nAttackSpeedRight)⟩,
   ⟨none, .add .usingDoubleWeapon (.m_Attribute nAttackSpeedLeft)⟩,
   ⟨some 12, .add .always (.m_Attribute nCastingSpeed)⟩,
   ⟨some 13, .add .notFixedNorRiding (.m_Attribute nMoveSpeed)⟩,
   ⟨some 14, .add .always (.m_Attribute nAccuracyRight)⟩,
   ⟨some 14, .add .usingDoubleWeapon (.m_Attribute nAccuracyLeft)⟩,
   ⟨some 15, .add .always (.m_Attribute nMagicAccuracy)⟩,
   ⟨some 16, .add .always (.m_Attribute nCritical)⟩,
   ⟨some 17, .add .always (.m_Attribute nBlockChance)⟩,
   ⟨some 18, .add .always (.m_Attribute nBlockDefence)⟩,
   ⟨some 19, .add .always (.m_Attribute nAvoid)⟩,
   ⟨some 20, .add .always (.m_Attribute nMagicAvoid)⟩,
   ⟨some 21, .add .always .maxHealth⟩,
   ⟨some 22, .add .always .maxMana⟩,
   ⟨some 24, .add .always (.m_Attribute nHPRegenPoint)⟩,
   ⟨some 25, .add .always (.m_Attribute nMPRegenPoint)⟩,
   ⟨some 27, .add .always (.m_Attribute nHPRegenPercentage)⟩,
   ⟨some 28, .add .always (.m_Attribute nMPRegenPercentage)⟩,
   ⟨some 30, .add .always (.m_Attribute nMaxWeight)⟩]

/-- The lines of `ampParameter` for the attributes. -/
def ampAttributeLines : List ParamLine :=
  [⟨some 7, .add .always (.m_AttributeAmplifier nAttackPointRight)⟩,
   ⟨some 7, .add .usingDoubleWeapon (.m_AttributeAmplifier nAttackPointLeft)⟩,
   ⟨some 8, .add .always (.m_AttributeAmplifier nMagicPoint)⟩,
   ⟨some 9, .add .always (.m_AttributeAmplifier nDefence)⟩,
   ⟨some 10, .add .always (.m_AttributeAmplifier nMagicDefence)⟩,
   ⟨some 11, .add .always (.m_AttributeAmplifier nAttackSpeedRight)⟩,
   ⟨some 11, .add .usingDoubleWeapon (.m_AttributeAmplifier nAttackSpeedLeft)⟩,
   ⟨some 12, .add .always (.m_AttributeAmplifier nCastingSpeed)⟩,
   ⟨some 13, .add .notRiding (.m_AttributeAmplifier nMoveSpeed)⟩,
   ⟨some 14, .add .always (.m_AttributeAmplifier nAccuracyRight)⟩,
   ⟨some 14, .add .usingDoubleWeapon (.m_AttributeAmplifier nAccuracyLeft)⟩,
   ⟨some 15, .add .always (.m_AttributeAmplifier nMagicAccuracy)⟩,
   ⟨some 16, .add .always (.m_AttributeAmplifier nCritical)⟩,
   ⟨some 17, .add .always (.m_AttributeAmplifier nBlockChance)⟩,
   ⟨some 18, .add .always (.m_AttributeAmplifier nBlockDefence)⟩,
   ⟨some 20, .add .always (.m_AttributeAmplifier nMagicAvoid)⟩,
   ⟨some 24, .add .always (.m_AttributeAmplifier nHPRegenPoint)⟩,
   ⟨some 25, .add .always (.m_AttributeAmplifier nMPRegenPoint)⟩,
   ⟨some 27, .add .always (.m_AttributeAmplifier nHPRegenPercentage)⟩,
   ⟨some 28, .add .always (.m_AttributeAmplifier nMPRegenPercentage)⟩,
   ⟨some 30, .add .always (.m_AttributeAmplifier nMaxWeight)⟩,
   ⟨some 19, .add .always (.m_AttributeAmplifier nAvoid)⟩]

/-- The lines of `incParameter2` and `ampParameter2`: resists, additional damages, the critical damage and the stops. -/
def secondLines (resist : ElementalType → Target) (criticalPower : Target) (fixed : Bool) : List ParamLine :=
  [⟨some 0, .add .always (resist TYPE_NONE)⟩,
   ⟨some 1, .add .always (resist TYPE_FIRE)⟩,
   ⟨some 2, .add .always (resist TYPE_WATER)⟩,
   ⟨some 3, .add .always (resist TYPE_WIND)⟩,
   ⟨some 4, .add .always (resist TYPE_EARTH)⟩,
   ⟨some 5, .add .always (resist TYPE_LIGHT)⟩,
   ⟨some 6, .add .always (resist TYPE_DARK)⟩,
   ⟨some 21, .additionalDamage fixed TYPE_NONE⟩,
   ⟨some 22, .additionalDamage fixed TYPE_FIRE⟩,
   ⟨some 23, .additionalDamage fixed TYPE_WATER⟩,
   ⟨some 24, .additionalDamage fixed TYPE_WIND⟩,
   ⟨some 25, .additionalDamage fixed TYPE_EARTH⟩,
   ⟨some 26, .additionalDamage fixed TYPE_LIGHT⟩,
   ⟨some 27, .additionalDamage fixed TYPE_DARK⟩,
   ⟨some 28, .add .always criticalPower⟩,
   ⟨some 29, .stopHPRegen⟩,
   ⟨some 30, .stopMPRegen⟩]

end

/-- The four functions, two of which have a case for the stats. -/
inductive ParamFunction
  | incParameter (bStat : Bool)
  | ampParameter (bStat : Bool)
  | incParameter2
  | ampParameter2
  deriving DecidableEq

def ParamFunction.lines : ParamFunction → List ParamLine
  | .incParameter bStat => if bStat = true then statLines .m_cStat else incAttributeLines
  | .ampParameter bStat => if bStat = true then statLines .m_StatAmplifier else ampAttributeLines
  | .incParameter2 => secondLines .m_Resist (.m_Attribute .nCriticalPower) true
  | .ampParameter2 => secondLines .m_ResistAmplifier (.m_AttributeAmplifier .nCriticalPower) false

namespace StatUnit

def incParameter (u : StatUnit) (nBitset : BitVec 32) (nValue : ℚ) (bStat : Bool) : StatUnit :=
  runLines (ParamFunction.incParameter bStat).lines nBitset nValue u

def ampParameter (u : StatUnit) (nBitset : BitVec 32) (fValue : ℚ) (bStat : Bool) : StatUnit :=
  runLines (ParamFunction.ampParameter bStat).lines nBitset fValue u

def incParameter2 (u : StatUnit) (nBitset : BitVec 32) (fValue : ℚ) : StatUnit :=
  runLines ParamFunction.incParameter2.lines nBitset fValue u

def ampParameter2 (u : StatUnit) (nBitset : BitVec 32) (fValue : ℚ) : StatUnit :=
  runLines ParamFunction.ampParameter2.lines nBitset fValue u

end StatUnit

/-! ## What the bits name -/

/-- `FLAG_STR` to `FLAG_LUK` -/
def StatField.flag : StatField → Nat
  | .strength => 0
  | .vital => 1
  | .agility => 2
  | .dexterity => 3
  | .intelligence => 4
  | .mentality => 5
  | .luck => 6

/-- The `StateStatFlag` that names an attribute: one flag names that of both hands. -/
def AttributeField.flag : AttributeField → Option Nat
  | .nAttackPointRight | .nAttackPointLeft => some 7
  | .nMagicPoint => some 8
  | .nDefence => some 9
  | .nMagicDefence => some 10
  | .nAttackSpeedRight | .nAttackSpeedLeft => some 11
  | .nCastingSpeed => some 12
  | .nMoveSpeed => some 13
  | .nAccuracyRight | .nAccuracyLeft => some 14
  | .nMagicAccuracy => some 15
  | .nCritical => some 16
  | .nBlockChance => some 17
  | .nBlockDefence => some 18
  | .nAvoid => some 19
  | .nMagicAvoid => some 20
  | .nHPRegenPoint => some 24
  | .nMPRegenPoint => some 25
  | .nHPRegenPercentage => some 27
  | .nMPRegenPercentage => some 28
  | .nMaxWeight => some 30
  | _ => none

/-- The left hand counts with two weapons, and the speed only where it may change. -/
def AttributeField.gate (speed : Gate) : AttributeField → Gate
  | .nAttackPointLeft | .nAttackSpeedLeft | .nAccuracyLeft => .usingDoubleWeapon
  | .nMoveSpeed => speed
  | _ => .always

def ElementalType.resistFlag (e : ElementalType) : Nat := e.toNat

def ElementalType.additionalDamageFlag (e : ElementalType) : Nat := 21 + e.toNat

/-- The bit that names a number in a function, with the gate that is to be open. -/
def ParamFunction.named : ParamFunction → Target → Option (Nat × Gate)
  | .incParameter true, .m_cStat f => some (f.flag, .always)
  | .incParameter false, .m_Attribute f => f.flag.map fun bit => (bit, f.gate .notFixedNorRiding)
  | .incParameter false, .maxHealth => some (21, .always)
  | .incParameter false, .maxMana => some (22, .always)
  | .ampParameter true, .m_StatAmplifier f => some (f.flag, .always)
  | .ampParameter false, .m_AttributeAmplifier f => f.flag.map fun bit => (bit, f.gate .notRiding)
  | .incParameter2, .m_Resist e => some (e.resistFlag, .always)
  | .incParameter2, .m_Attribute .nCriticalPower => some (28, .always)
  | .ampParameter2, .m_ResistAmplifier e => some (e.resistFlag, .always)
  | .ampParameter2, .m_AttributeAmplifier .nCriticalPower => some (28, .always)
  | _, _ => none

/-- The entries of the lists that the bits name, in the order of the types. -/
def ParamFunction.entries (f : ParamFunction) (nBitset : BitVec 32) (v : ℚ) : List AdditionalDamageInfo :=
  match f with
  | .incParameter _ | .ampParameter _ => []
  | .incParameter2 => (ElementalType.all.filter fun e => nBitset.getLsbD e.additionalDamageFlag).map (additionalEntry true · v)
  | .ampParameter2 => (ElementalType.all.filter fun e => nBitset.getLsbD e.additionalDamageFlag).map (additionalEntry false · v)

/-- The bits that stop a regeneration. -/
def ParamFunction.stops (f : ParamFunction) (nBitset : BitVec 32) (flag : Nat) : Bool :=
  match f with
  | .incParameter _ | .ampParameter _ => false
  | .incParameter2 | .ampParameter2 => nBitset.getLsbD flag

/-- A set bit names the number, and its gate is open. -/
def ParamFunction.affects (f : ParamFunction) (x : UnitTraits) (nBitset : BitVec 32) (t : Target) : Bool :=
  (f.named t).any fun (bit, gate) => nBitset.getLsbD bit && gate.isOpen x

/-- `u'` is `u` with exactly what the set bits name changed by the value. -/
structure AppliedExactly (f : ParamFunction) (nBitset : BitVec 32) (v : ℚ) (u u' : StatUnit) : Prop where
  value : ∀ t, u'.value t = if f.affects u.traits nBitset t = true then t.add (u.value t) v else u.value t
  normal : u'.m_vNormalAdditionalDamage = u.m_vNormalAdditionalDamage ++ f.entries nBitset v
  range : u'.m_vRangeAdditionalDamage = u.m_vRangeAdditionalDamage ++ f.entries nBitset v
  hpRegen : u'.hpRegenStopped = (u.hpRegenStopped || f.stops nBitset 29)
  mpRegen : u'.mpRegenStopped = (u.mpRegenStopped || f.stops nBitset 30)
  traits : u'.traits = u.traits

/-- The line outside the test of its bit does not matter: there are no two weapons, or the bit is set. -/
def Braced (f : ParamFunction) (nBitset : BitVec 32) (u : StatUnit) : Prop :=
  f = .incParameter false → u.traits.isUsingDoubleWeapon = true → nBitset.getLsbD 11 = true

/-! ## Running lines -/

section

variable {lines : List ParamLine} {nBitset : BitVec 32} {v : ℚ} {u : StatUnit} {t : Target}

/-- The line is an addition to the number. -/
def ParamLine.names (t : Target) (l : ParamLine) : Bool :=
  match l.effect with
  | .add _ t' => decide (t' = t)
  | _ => false

def ParamLine.gateOpen (x : UnitTraits) (l : ParamLine) : Bool :=
  match l.effect with
  | .add gate _ => gate.isOpen x
  | _ => true

/-- What the line appends to the lists. -/
def ParamLine.entry (v : ℚ) (l : ParamLine) : Option AdditionalDamageInfo :=
  match l.effect with
  | .additionalDamage fixed e => some (additionalEntry fixed e v)
  | _ => none

/-- One line: the number it names, the entry it appends, the regeneration it stops, and nothing else. -/
theorem ParamLine.run_spec (nBitset : BitVec 32) (v : ℚ) (u : StatUnit) (l : ParamLine) :
    (∀ t, (l.run nBitset v u).value t =
        if (l.runs nBitset && l.gateOpen u.traits && l.names t) = true then t.add (u.value t) v else u.value t) ∧
      (l.run nBitset v u).m_vNormalAdditionalDamage =
        u.m_vNormalAdditionalDamage ++ ((l.entry v).filter fun _ => l.runs nBitset).toList ∧
      (l.run nBitset v u).m_vRangeAdditionalDamage =
        u.m_vRangeAdditionalDamage ++ ((l.entry v).filter fun _ => l.runs nBitset).toList ∧
      (l.run nBitset v u).hpRegenStopped = (u.hpRegenStopped || decide (l.effect = .stopHPRegen) && l.runs nBitset) ∧
      (l.run nBitset v u).mpRegenStopped = (u.mpRegenStopped || decide (l.effect = .stopMPRegen) && l.runs nBitset) ∧
      (l.run nBitset v u).traits = u.traits := by
  obtain ⟨bit, effect⟩ := l
  unfold ParamLine.run ParamLine.names ParamLine.gateOpen ParamLine.entry
  dsimp only
  cases hruns : ParamLine.runs nBitset ⟨bit, effect⟩ with
  | false => cases effect <;> simp
  | true =>
    rw [if_pos rfl]
    cases effect with
    | add gate t' =>
      unfold Effect.apply
      dsimp only
      split_ifs with hgate
      · refine ⟨fun t => ?_, ?_⟩
        · by_cases ht : t' = t
          · subst ht
            simp [hgate]
          · simp [ht, Function.update_of_ne (Ne.symm ht)]
        · simp
      · simp [hgate]
    | additionalDamage fixed e => simp [Effect.apply, Option.filter]
    | stopHPRegen => simp [Effect.apply]
    | stopMPRegen => simp [Effect.apply]

theorem runLines_traits (lines : List ParamLine) (nBitset : BitVec 32) (v : ℚ) (u : StatUnit) :
    (runLines lines nBitset v u).traits = u.traits := by
  induction lines generalizing u with
  | nil => rfl
  | cons l lines ih => exact (ih _).trans (l.run_spec nBitset v u).2.2.2.2.2

/-- A number becomes the sum with the value for each line that names it and is run. -/
theorem runLines_value (lines : List ParamLine) (nBitset : BitVec 32) (v : ℚ) (u : StatUnit) (t : Target) :
    (runLines lines nBitset v u).value t =
      ((lines.filter fun l => l.names t).filter fun l => l.runs nBitset && l.gateOpen u.traits).foldl (fun x _ => t.add x v)
        (u.value t) := by
  induction lines generalizing u with
  | nil => rfl
  | cons l lines ih =>
    obtain ⟨hvalue, -, -, -, -, htraits⟩ := l.run_spec nBitset v u
    refine (ih (l.run nBitset v u)).trans ?_
    rw [hvalue t, htraits]
    cases hnames : l.names t with
    | false =>
      rw [List.filter_cons_of_neg (by rw [hnames]; exact Bool.false_ne_true), Bool.and_false, if_neg Bool.false_ne_true]
    | true =>
      rw [List.filter_cons_of_pos hnames, Bool.and_true, List.filter_cons]
      cases l.runs nBitset && l.gateOpen u.traits with
      | false => rw [if_neg Bool.false_ne_true, if_neg Bool.false_ne_true]
      | true => rw [if_pos rfl, if_pos rfl, List.foldl_cons]

/-- The lists get the entries of the lines that are run, in their order. -/
theorem runLines_lists (lines : List ParamLine) (nBitset : BitVec 32) (v : ℚ) (u : StatUnit) :
    (runLines lines nBitset v u).m_vNormalAdditionalDamage =
        u.m_vNormalAdditionalDamage ++ lines.filterMap (fun l => (l.entry v).filter fun _ => l.runs nBitset) ∧
      (runLines lines nBitset v u).m_vRangeAdditionalDamage =
        u.m_vRangeAdditionalDamage ++ lines.filterMap (fun l => (l.entry v).filter fun _ => l.runs nBitset) := by
  induction lines generalizing u with
  | nil => exact ⟨(List.append_nil _).symm, (List.append_nil _).symm⟩
  | cons l lines ih =>
    obtain ⟨-, hnormal, hrange, -⟩ := l.run_spec nBitset v u
    obtain ⟨hn, hr⟩ := ih (l.run nBitset v u)
    have hcons : (l :: lines).filterMap (fun l => (l.entry v).filter fun _ => l.runs nBitset) =
        ((l.entry v).filter fun _ => l.runs nBitset).toList ++
          lines.filterMap (fun l => (l.entry v).filter fun _ => l.runs nBitset) := by
      rw [List.filterMap_cons]
      cases (l.entry v).filter fun _ => l.runs nBitset <;> rfl
    rw [hcons, ← List.append_assoc, ← List.append_assoc, ← hnormal, ← hrange]
    exact ⟨hn, hr⟩

theorem runLines_stops (lines : List ParamLine) (nBitset : BitVec 32) (v : ℚ) (u : StatUnit) :
    (runLines lines nBitset v u).hpRegenStopped =
        (u.hpRegenStopped || lines.any fun l => decide (l.effect = .stopHPRegen) && l.runs nBitset) ∧
      (runLines lines nBitset v u).mpRegenStopped =
        (u.mpRegenStopped || lines.any fun l => decide (l.effect = .stopMPRegen) && l.runs nBitset) := by
  induction lines generalizing u with
  | nil => exact ⟨(Bool.or_false _).symm, (Bool.or_false _).symm⟩
  | cons l lines ih =>
    obtain ⟨-, -, -, hhp, hmp, -⟩ := l.run_spec nBitset v u
    obtain ⟨hh, hm⟩ := ih (l.run nBitset v u)
    rw [List.any_cons, List.any_cons, ← Bool.or_assoc, ← Bool.or_assoc, ← hhp, ← hmp]
    exact ⟨hh, hm⟩

end

/-! ## The lines of the functions -/

/-- The bit of the one line that names the number; it is missing for the attack speed of the left hand in `incParameter`. -/
def ParamFunction.lineBit (f : ParamFunction) (t : Target) (bit : Nat) : Option Nat :=
  if f = .incParameter false ∧ t = .m_Attribute .nAttackSpeedLeft then none else some bit

/-- In every function a number is named by one line or none. -/
theorem ParamFunction.lines_filter (f : ParamFunction) (t : Target) :
    f.lines.filter (fun l => l.names t) =
      ((f.named t).map fun (bit, gate) => (⟨f.lineBit t bit, .add gate t⟩ : ParamLine)).toList := by
  cases f with
  | incParameter bStat => cases bStat <;> cases t <;> (try rename_i f; cases f) <;> rfl
  | ampParameter bStat => cases bStat <;> cases t <;> (try rename_i f; cases f) <;> rfl
  | incParameter2 => cases t <;> (try rename_i f; cases f) <;> rfl
  | ampParameter2 => cases t <;> (try rename_i f; cases f) <;> rfl

theorem filterMap_filter_some {α β : Type*} (p : α → Bool) (g : α → β) (l : List α) :
    l.filterMap (fun a => (some (g a)).filter fun _ => p a) = (l.filter p).map g := by
  induction l with
  | nil => rfl
  | cons a l ih =>
    cases h : p a with
    | true =>
      rw [List.filter_cons_of_pos h, List.map_cons, ← ih]
      exact List.filterMap_cons_some (by rw [Option.filter_some, if_pos h])
    | false =>
      rw [List.filter_cons_of_neg (by rw [h]; exact Bool.false_ne_true), ← ih]
      exact List.filterMap_cons_none (by rw [Option.filter_some, if_neg (by rw [h]; exact Bool.false_ne_true)])

theorem ParamFunction.lines_entries (f : ParamFunction) (nBitset : BitVec 32) (v : ℚ) :
    f.lines.filterMap (fun l => (l.entry v).filter fun _ => l.runs nBitset) = f.entries nBitset v := by
  cases f with
  | incParameter bStat => cases bStat <;> rfl
  | ampParameter bStat => cases bStat <;> rfl
  | incParameter2 =>
    exact filterMap_filter_some (fun e => nBitset.getLsbD e.additionalDamageFlag) (additionalEntry true · v) ElementalType.all
  | ampParameter2 =>
    exact filterMap_filter_some (fun e => nBitset.getLsbD e.additionalDamageFlag) (additionalEntry false · v) ElementalType.all

theorem ParamFunction.lines_stops (f : ParamFunction) (nBitset : BitVec 32) :
    (f.lines.any fun l => decide (l.effect = .stopHPRegen) && l.runs nBitset) = f.stops nBitset 29 ∧
      (f.lines.any fun l => decide (l.effect = .stopMPRegen) && l.runs nBitset) = f.stops nBitset 30 := by
  cases f with
  | incParameter bStat => cases bStat <;> exact ⟨rfl, rfl⟩
  | ampParameter bStat => cases bStat <;> exact ⟨rfl, rfl⟩
  | incParameter2 => exact ⟨Bool.or_false _, Bool.or_false _⟩
  | ampParameter2 => exact ⟨Bool.or_false _, Bool.or_false _⟩

/-- **The functions change what the bits name.** -/
theorem appliedExactly {f : ParamFunction} {nBitset : BitVec 32} {u : StatUnit} (hbraced : Braced f nBitset u) (v : ℚ) :
    AppliedExactly f nBitset v u (runLines f.lines nBitset v u) := by
  obtain ⟨hnormal, hrange⟩ := runLines_lists f.lines nBitset v u
  obtain ⟨hhp, hmp⟩ := runLines_stops f.lines nBitset v u
  rw [f.lines_entries] at hnormal hrange
  rw [(f.lines_stops nBitset).1] at hhp
  rw [(f.lines_stops nBitset).2] at hmp
  refine ⟨fun t => ?_, hnormal, hrange, hhp, hmp, runLines_traits f.lines nBitset v u⟩
  rw [runLines_value, f.lines_filter]
  unfold ParamFunction.affects
  cases hnamed : f.named t with
  | none => rfl
  | some named =>
    obtain ⟨bit, gate⟩ := named
    have hbit : ((f.lineBit t bit).all (fun bit => nBitset.getLsbD bit) && gate.isOpen u.traits) =
        (nBitset.getLsbD bit && gate.isOpen u.traits) := by
      unfold ParamFunction.lineBit
      split_ifs with hline
      · -- the line without a bit runs with two weapons, when the bit is set anyway
        obtain ⟨rfl, rfl⟩ := hline
        obtain ⟨rfl, rfl⟩ := Prod.mk.inj (Option.some.inj hnamed)
        show (true && u.traits.isUsingDoubleWeapon) = (nBitset.getLsbD 11 && u.traits.isUsingDoubleWeapon)
        cases hdouble : u.traits.isUsingDoubleWeapon with
        | false => rw [Bool.and_false, Bool.and_false]
        | true => rw [hbraced rfl hdouble]
      · rfl
    rw [Option.map_some, Option.toList_some, Option.any_some, List.filter_cons, List.filter_nil]
    show List.foldl (fun x _ => t.add x v) (u.value t)
      (if ((f.lineBit t bit).all (fun bit => nBitset.getLsbD bit) && gate.isOpen u.traits) = true then _ else []) = _
    rw [hbit]
    dsimp only
    split_ifs <;> rfl

/-! ## Two bitsets -/

/-- The units have the same numbers, and the same entries in their lists, in any order. -/
structure SameUpToOrder (u u' : StatUnit) : Prop where
  value : u.value = u'.value
  normal : u.m_vNormalAdditionalDamage.Perm u'.m_vNormalAdditionalDamage
  range : u.m_vRangeAdditionalDamage.Perm u'.m_vRangeAdditionalDamage
  hpRegen : u.hpRegenStopped = u'.hpRegenStopped
  mpRegen : u.mpRegenStopped = u'.mpRegenStopped
  traits : u.traits = u'.traits

theorem getLsbD_disjoint {b b' : BitVec 32} (h : b &&& b' = 0#32) {i : Nat} (hi : b.getLsbD i = true) : b'.getLsbD i = false := by
  have hand : (b &&& b').getLsbD i = false := by
    rw [h]
    exact BitVec.getLsbD_zero
  rw [BitVec.getLsbD_and, hi, Bool.true_and] at hand
  exact hand

theorem ParamFunction.affects_or (f : ParamFunction) (x : UnitTraits) (b b' : BitVec 32) (t : Target) :
    f.affects x (b ||| b') t = (f.affects x b t || f.affects x b' t) := by
  unfold ParamFunction.affects
  cases f.named t with
  | none => rfl
  | some named =>
    simp only [Option.any_some, BitVec.getLsbD_or]
    exact Bool.and_or_distrib_right _ _ _

theorem ParamFunction.affects_disjoint {f : ParamFunction} {x : UnitTraits} {b b' : BitVec 32} {t : Target} (h : b &&& b' = 0#32)
    (hb : f.affects x b t = true) : f.affects x b' t = false := by
  unfold ParamFunction.affects at hb ⊢
  cases hnamed : f.named t with
  | none => rfl
  | some named =>
    rw [hnamed, Option.any_some, Bool.and_eq_true] at hb
    rw [Option.any_some]
    dsimp only
    rw [getLsbD_disjoint h hb.1, Bool.false_and]

theorem ParamFunction.affects_zero (f : ParamFunction) (x : UnitTraits) (t : Target) : f.affects x 0#32 t = false := by
  unfold ParamFunction.affects
  cases f.named t with
  | none => rfl
  | some named => simp only [Option.any_some, BitVec.getLsbD_zero, Bool.false_and]

theorem filter_or_perm {α : Type*} {p q : α → Bool} (h : ∀ a, p a = true → q a = false) (l : List α) :
    (l.filter fun a => p a || q a).Perm (l.filter p ++ l.filter q) := by
  induction l with
  | nil => exact List.Perm.refl _
  | cons a l ih =>
    cases hp : p a with
    | true =>
      rw [List.filter_cons_of_pos (by rw [hp]; rfl), List.filter_cons_of_pos hp,
        List.filter_cons_of_neg (by rw [h a hp]; exact Bool.false_ne_true)]
      exact ih.cons a
    | false =>
      rw [List.filter_cons_of_neg (a := a) (p := p) (by rw [hp]; exact Bool.false_ne_true)]
      cases hq : q a with
      | true =>
        rw [List.filter_cons_of_pos (by rw [hp, hq]; rfl), List.filter_cons_of_pos hq]
        exact (ih.cons a).trans List.perm_middle.symm
      | false =>
        rw [List.filter_cons_of_neg (by rw [hp, hq]; exact Bool.false_ne_true),
          List.filter_cons_of_neg (by rw [hq]; exact Bool.false_ne_true)]
        exact ih

theorem ParamFunction.entries_or (f : ParamFunction) {b b' : BitVec 32} (h : b &&& b' = 0#32) (v : ℚ) :
    (f.entries (b ||| b') v).Perm (f.entries b v ++ f.entries b' v) := by
  have hperm : ∀ g : ElementalType → AdditionalDamageInfo,
      ((ElementalType.all.filter fun e => (b ||| b').getLsbD e.additionalDamageFlag).map g).Perm
        ((ElementalType.all.filter fun e => b.getLsbD e.additionalDamageFlag).map g ++
          (ElementalType.all.filter fun e => b'.getLsbD e.additionalDamageFlag).map g) := by
    intro g
    rw [← List.map_append]
    refine List.Perm.map g ?_
    simp only [BitVec.getLsbD_or]
    exact filter_or_perm (fun e he => getLsbD_disjoint h he) ElementalType.all
  cases f with
  | incParameter bStat => exact List.Perm.refl _
  | ampParameter bStat => exact List.Perm.refl _
  | incParameter2 => exact hperm _
  | ampParameter2 => exact hperm _

/-- Two disjoint bitsets applied at once and one after the other give the same. -/
theorem sameUpToOrder_or {f : ParamFunction} {b b' : BitVec 32} (h : b &&& b' = 0#32) {v : ℚ} {u u₁ u₂ w : StatUnit}
    (h₁ : AppliedExactly f b v u u₁) (h₂ : AppliedExactly f b' v u₁ u₂) (hw : AppliedExactly f (b ||| b') v u w) :
    SameUpToOrder w u₂ where
  value := by
    funext t
    rw [hw.value, h₂.value, h₁.value, h₁.traits, f.affects_or]
    cases hb : f.affects u.traits b t with
    | true => rw [ParamFunction.affects_disjoint h hb, Bool.or_false, if_pos rfl, if_neg Bool.false_ne_true]
    | false => rw [Bool.false_or, if_neg Bool.false_ne_true]
  normal := by
    rw [hw.normal, h₂.normal, h₁.normal, List.append_assoc]
    exact (f.entries_or h v).append_left _
  range := by
    rw [hw.range, h₂.range, h₁.range, List.append_assoc]
    exact (f.entries_or h v).append_left _
  hpRegen := by
    rw [hw.hpRegen, h₂.hpRegen, h₁.hpRegen, Bool.or_assoc]
    cases f <;> simp [ParamFunction.stops]
  mpRegen := by
    rw [hw.mpRegen, h₂.mpRegen, h₁.mpRegen, Bool.or_assoc]
    cases f <;> simp [ParamFunction.stops]
  traits := by rw [hw.traits, h₂.traits, h₁.traits]

/-- The empty bitset changes nothing. -/
theorem AppliedExactly.eq_of_zero {f : ParamFunction} {v : ℚ} {u u' : StatUnit} (h : AppliedExactly f 0#32 v u u') : u' = u := by
  have hvalue : u'.value = u.value := by
    funext t
    rw [h.value, f.affects_zero, if_neg Bool.false_ne_true]
  have hentries : f.entries 0#32 v = [] := by cases f <;> simp [ParamFunction.entries]
  have hstops : ∀ flag, f.stops 0#32 flag = false := by
    intro flag
    cases f <;> simp [ParamFunction.stops]
  obtain ⟨value, normal, range, hpRegen, mpRegen, traits⟩ := u'
  have hnormal := h.normal
  have hrange := h.range
  have hhp := h.hpRegen
  have hmp := h.mpRegen
  have htraits := h.traits
  rw [hentries, List.append_nil] at hnormal hrange
  rw [hstops, Bool.or_false] at hhp hmp
  dsimp only at hvalue hnormal hrange hhp hmp htraits
  rw [hvalue, hnormal, hrange, hhp, hmp, htraits]

end RZEmulator.Chihiro
