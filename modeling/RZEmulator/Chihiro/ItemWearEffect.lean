import RZEmulator.Chihiro.RuleTables
import RZEmulator.Chihiro.StatParameter

/-!
# Effects of a worn item

`onItemWearEffect` of `CalculateStat.cpp`: an option of an item raises what its type names, by a value computed from the item. The
options with a bitset are those of `StatParameter`.
-/

namespace RZEmulator.Chihiro

open Lib AttributeField

/-! ## The value of an option -/

@[match_pattern] abbrev IEP_ATTACK_POINT : Int := 11
@[match_pattern] abbrev IEP_MAGIC_POINT : Int := 12
@[match_pattern] abbrev IEP_ACCURACY : Int := 13
@[match_pattern] abbrev IEP_ATTACK_SPEED : Int := 14
@[match_pattern] abbrev IEP_DEFENCE : Int := 15
@[match_pattern] abbrev IEP_MAGIC_DEFENCE : Int := 16
@[match_pattern] abbrev IEP_AVOID : Int := 17
@[match_pattern] abbrev IEP_MOVE_SPEED : Int := 18
@[match_pattern] abbrev IEP_BLOCK_CHANCE : Int := 19
@[match_pattern] abbrev IEP_CARRY_WEIGHT : Int := 20
@[match_pattern] abbrev IEP_BLOCK_DEFENCE : Int := 21
@[match_pattern] abbrev IEP_CASTING_SPEED : Int := 22
@[match_pattern] abbrev IEP_MAGIC_ACCURACY : Int := 23
@[match_pattern] abbrev IEP_MAGIC_AVOID : Int := 24
@[match_pattern] abbrev IEP_COOLTIME_SPEED : Int := 25
@[match_pattern] abbrev IEP_MAX_HP : Int := 30
@[match_pattern] abbrev IEP_MAX_MP : Int := 31
@[match_pattern] abbrev IEP_MP_REGEN_POINT : Int := 33
@[match_pattern] abbrev IEP_BOW_INTERVAL : Int := 34
@[match_pattern] abbrev IEP_INC_PARAMETER_A : Int := 96
@[match_pattern] abbrev IEP_INC_PARAMETER_B : Int := 97
@[match_pattern] abbrev IEP_AMP_PARAMETER_A : Int := 98
@[match_pattern] abbrev IEP_AMP_PARAMETER_B : Int := 99

/-- What an effect asks about the item. -/
structure EffectItem where
  nLevel : Int
  getItemRank : Int
  isWeapon : Bool
  /-- `GetWearInfo()` is `WEAR_SHIELD` -/
  inShieldSlot : Bool

def GameRule.getItemValue (item_current_value : ℚ) (item_rank_value creature_level item_rank item_level : Int) : Option ℚ :=
  (GameRule.getItemLevelPenalty creature_level item_rank item_level).map fun ilp =>
    (item_current_value - item_rank_value) * ilp + item_rank_value

/-- `item_var_penalty` -/
def itemVarPenalty (u : StatUnit) (pItem : Option EffectItem) (bIsBaseVar : Bool) (type : Int) (var1 var2 fRatio : ℚ) : Option ℚ :=
  if type = IEP_ATTACK_SPEED then some var1
  else
    match pItem with
    | some item =>
      if bIsBaseVar = true then
        GameRule.getItemValue (var1 * fRatio + var2 * (item.nLevel - 1 : Int)) (truncated var1) u.traits.level item.getItemRank
          item.nLevel
      else some (var1 * fRatio)
    | none => some (var1 * fRatio)

/-- `bApplyRight` and `bApplyLeft` -/
def applyHands (u : StatUnit) (pItem : Option EffectItem) : Bool × Bool :=
  if u.traits.isUsingDoubleWeapon = true then
    match pItem with
    | some item =>
      if item.isWeapon = true then if item.inShieldSlot = true then (false, true) else (true, false)
      else (true, true)
    | none => (true, true)
  else (true, false)

/-! ## The effect -/

namespace StatUnit

def setValue (u : StatUnit) (value : Target → ℚ) : StatUnit := { u with value := value }

theorem setValue_value (u : StatUnit) : u.setValue u.value = u := rfl

theorem setValue_setValue (u : StatUnit) (value value' : Target → ℚ) : (u.setValue value).setValue value' = u.setValue value' := rfl

def inc (u : StatUnit) (f : AttributeField) (v : ℚ) : StatUnit :=
  u.setValue (Function.update u.value (.m_Attribute f) (u.value (.m_Attribute f) + v))

/-- The additions for the hands, that for the left one first. -/
def incHands (u : StatUnit) (hands : Bool × Bool) (right left : AttributeField) (v : ℚ) : StatUnit :=
  let u := if hands.2 = true then u.inc left v else u
  if hands.1 = true then u.inc right v else u

/-- `SetFlag` of a number with 32 bits, which keeps the bits that are set. -/
def setFlag (u : StatUnit) (t : Target) (newFlag : Int) : StatUnit :=
  let newval := BitVec.ofInt 32 (truncated (u.value t)) ||| BitVec.ofInt 32 newFlag
  u.setValue (Function.update u.value t newval.toInt)

def onItemWearEffect (u : StatUnit) (pItem : Option EffectItem) (bIsBaseVar : Bool) (type : Int) (var1 var2 fRatio : ℚ) :
    Option StatUnit :=
  (itemVarPenalty u pItem bIsBaseVar type var1 var2 fRatio).map fun item_var_penalty =>
    match type with
    | IEP_MAGIC_POINT => u.inc nMagicPoint (truncated item_var_penalty)
    | IEP_ATTACK_POINT => u.incHands (applyHands u pItem) nAttackPointRight nAttackPointLeft (truncated item_var_penalty)
    | IEP_BLOCK_DEFENCE => u.inc nBlockDefence (truncated item_var_penalty)
    | IEP_DEFENCE => u.inc nDefence (truncated item_var_penalty)
    | IEP_ACCURACY => u.incHands (applyHands u pItem) nAccuracyRight nAccuracyLeft (truncated item_var_penalty)
    -- the right hand gets attack points
    | IEP_ATTACK_SPEED => u.incHands (applyHands u pItem) nAttackPointRight nAttackSpeedLeft item_var_penalty
    | IEP_MAGIC_DEFENCE => u.inc nMagicDefence (truncated item_var_penalty)
    | IEP_AVOID => u.inc nAvoid (truncated item_var_penalty)
    | IEP_MOVE_SPEED => if u.traits.moveSpeedFixed = true then u else u.inc nMoveSpeed (truncated item_var_penalty)
    | IEP_BLOCK_CHANCE => u.inc nBlockChance (truncated item_var_penalty)
    | IEP_CARRY_WEIGHT => u.inc nMaxWeight (truncated item_var_penalty)
    | IEP_CASTING_SPEED => u.inc nCastingSpeed item_var_penalty
    | IEP_MAGIC_ACCURACY => u.inc nMagicAccuracy (truncated item_var_penalty)
    | IEP_MAGIC_AVOID => u.inc nMagicAvoid item_var_penalty
    | IEP_COOLTIME_SPEED => u.inc nCoolTimeSpeed (truncated item_var_penalty)
    -- bits are set where a sum is meant
    | IEP_MAX_HP => u.setFlag .maxHealth (truncated (u.value .maxHealth) + truncated item_var_penalty)
    | IEP_MAX_MP => u.setFlag .maxMana (truncated (u.value .maxMana) + truncated item_var_penalty)
    | IEP_MP_REGEN_POINT => u.inc nMPRegenPoint (truncated item_var_penalty)
    | IEP_BOW_INTERVAL => u
    | IEP_INC_PARAMETER_A => u.incParameter (BitVec.ofInt 32 (truncated var1)) var2 false
    | IEP_INC_PARAMETER_B => u.incParameter2 (BitVec.ofInt 32 (truncated var1)) var2
    | IEP_AMP_PARAMETER_A => u.ampParameter (BitVec.ofInt 32 (truncated var1)) var2 false
    | IEP_AMP_PARAMETER_B => u.ampParameter2 (BitVec.ofInt 32 (truncated var1)) var2
    | _ => u

end StatUnit

/-! ## What the options name -/

/-- The functions that options with a bitset call. -/
def optionParameter : Int → Option ParamFunction
  | IEP_INC_PARAMETER_A => some (.incParameter false)
  | IEP_INC_PARAMETER_B => some .incParameter2
  | IEP_AMP_PARAMETER_A => some (.ampParameter false)
  | IEP_AMP_PARAMETER_B => some .ampParameter2
  | _ => none

/-- The attributes of the right and the left hand that a type names; one that is not of a hand is named as both. -/
def optionAttribute : Int → Option (AttributeField × AttributeField)
  | IEP_ATTACK_POINT => some (nAttackPointRight, nAttackPointLeft)
  | IEP_MAGIC_POINT => some (nMagicPoint, nMagicPoint)
  | IEP_ACCURACY => some (nAccuracyRight, nAccuracyLeft)
  | IEP_ATTACK_SPEED => some (nAttackSpeedRight, nAttackSpeedLeft)
  | IEP_DEFENCE => some (nDefence, nDefence)
  | IEP_MAGIC_DEFENCE => some (nMagicDefence, nMagicDefence)
  | IEP_AVOID => some (nAvoid, nAvoid)
  | IEP_MOVE_SPEED => some (nMoveSpeed, nMoveSpeed)
  | IEP_BLOCK_CHANCE => some (nBlockChance, nBlockChance)
  | IEP_CARRY_WEIGHT => some (nMaxWeight, nMaxWeight)
  | IEP_BLOCK_DEFENCE => some (nBlockDefence, nBlockDefence)
  | IEP_CASTING_SPEED => some (nCastingSpeed, nCastingSpeed)
  | IEP_MAGIC_ACCURACY => some (nMagicAccuracy, nMagicAccuracy)
  | IEP_MAGIC_AVOID => some (nMagicAvoid, nMagicAvoid)
  | IEP_COOLTIME_SPEED => some (nCoolTimeSpeed, nCoolTimeSpeed)
  | IEP_MP_REGEN_POINT => some (nMPRegenPoint, nMPRegenPoint)
  | _ => none

/-- The option names the number: that of the hands to which it applies, and the move speed only where it may change. -/
def optionNames (u : StatUnit) (pItem : Option EffectItem) (type : Int) (t : Target) : Bool :=
  match optionAttribute type with
  | some (right, left) =>
    if right = left then decide (t = .m_Attribute right) && !(decide (type = IEP_MOVE_SPEED) && u.traits.moveSpeedFixed)
    else (applyHands u pItem).1 && decide (t = .m_Attribute right) || (applyHands u pItem).2 && decide (t = .m_Attribute left)
  | none => decide (type = IEP_MAX_HP) && decide (t = .maxHealth) || decide (type = IEP_MAX_MP) && decide (t = .maxMana)

/-- What the option adds: a whole number but for three types. -/
def optionAmount (type : Int) (item_var_penalty : ℚ) : ℚ :=
  if type = IEP_ATTACK_SPEED ∨ type = IEP_CASTING_SPEED ∨ type = IEP_MAGIC_AVOID then item_var_penalty
  else truncated item_var_penalty

/-- `u'` is `u` with what the option names raised by its value, or as the function of its bitset leaves it. -/
def WearApplied (u : StatUnit) (pItem : Option EffectItem) (type : Int) (var1 var2 item_var_penalty : ℚ) (u' : StatUnit) : Prop :=
  match optionParameter type with
  | some f => AppliedExactly f (BitVec.ofInt 32 (truncated var1)) var2 u u'
  | none => u' = u.setValue fun t =>
      if optionNames u pItem type t = true then u.value t + optionAmount type item_var_penalty else u.value t

/-- The option reaches one of the lines that do not do what their names say. -/
def WearSlip (u : StatUnit) (pItem : Option EffectItem) (type : Int) (var1 : ℚ) : Prop :=
  type = IEP_MAX_HP ∨ type = IEP_MAX_MP ∨ (type = IEP_ATTACK_SPEED ∧ (applyHands u pItem).1 = true) ∨
    (type = IEP_INC_PARAMETER_A ∧ ¬ Braced (.incParameter false) (BitVec.ofInt 32 (truncated var1)) u)

theorem StatUnit.inc_eq (u : StatUnit) (f : AttributeField) (v : ℚ) :
    u.inc f v = u.setValue fun t => if t = .m_Attribute f then u.value t + v else u.value t := by
  unfold StatUnit.inc
  congr 1
  funext t
  by_cases ht : t = .m_Attribute f
  · rw [ht, Function.update_self, if_pos rfl]
  · rw [Function.update_of_ne ht, if_neg ht]

theorem StatUnit.incHands_eq (u : StatUnit) (hands : Bool × Bool) {right left : AttributeField} (hne : right ≠ left) (v : ℚ) :
    u.incHands hands right left v = u.setValue fun t =>
      if (hands.1 && decide (t = .m_Attribute right) || hands.2 && decide (t = .m_Attribute left)) = true then u.value t + v
      else u.value t := by
  obtain ⟨applyRight, applyLeft⟩ := hands
  unfold StatUnit.incHands
  cases applyRight <;> cases applyLeft
  · exact u.setValue_value.symm
  · simp [StatUnit.inc_eq]
  · simp [StatUnit.inc_eq]
  · rw [if_pos rfl, if_pos rfl, StatUnit.inc_eq u, StatUnit.inc_eq, StatUnit.setValue_setValue]
    congr 1
    funext t
    by_cases ht : t = .m_Attribute right
    · simp [StatUnit.setValue, ht, hne]
    · by_cases ht' : t = .m_Attribute left <;> simp [StatUnit.setValue, ht, ht', hne.symm]

section

variable {u : StatUnit} {pItem : Option EffectItem} {type : Int} {var1 var2 penalty : ℚ}

theorem wearApplied_inc {f : AttributeField} (hparameter : optionParameter type = none) (hattribute : optionAttribute type = some (f, f))
    (hspeed : type = IEP_MOVE_SPEED → u.traits.moveSpeedFixed = false) :
    WearApplied u pItem type var1 var2 penalty (u.inc f (optionAmount type penalty)) := by
  unfold WearApplied optionNames
  rw [hparameter, hattribute]
  have hopen : (!(decide (type = IEP_MOVE_SPEED) && u.traits.moveSpeedFixed)) = true := by
    by_cases h : type = IEP_MOVE_SPEED
    · rw [hspeed h, Bool.and_false]
      rfl
    · rw [decide_eq_false h]
      rfl
  simp only [if_true, hopen, Bool.and_true, decide_eq_true_eq]
  exact u.inc_eq f _

theorem wearApplied_hands {right left : AttributeField} (hparameter : optionParameter type = none)
    (hattribute : optionAttribute type = some (right, left)) (hne : right ≠ left) :
    WearApplied u pItem type var1 var2 penalty (u.incHands (applyHands u pItem) right left (optionAmount type penalty)) := by
  unfold WearApplied optionNames
  rw [hparameter, hattribute]
  simp only [if_neg hne]
  exact u.incHands_eq _ hne _

/-- An option that names nothing. -/
theorem wearApplied_self (hparameter : optionParameter type = none) (hnames : ∀ t, optionNames u pItem type t = false) :
    WearApplied u pItem type var1 var2 penalty u := by
  unfold WearApplied
  rw [hparameter]
  simp only [hnames, Bool.false_eq_true, if_false]
  exact u.setValue_value.symm

theorem wearApplied_parameter {f : ParamFunction} (hparameter : optionParameter type = some f)
    (hbraced : Braced f (BitVec.ofInt 32 (truncated var1)) u) :
    WearApplied u pItem type var1 var2 penalty (runLines f.lines (BitVec.ofInt 32 (truncated var1)) var2 u) := by
  unfold WearApplied
  rw [hparameter]
  exact appliedExactly hbraced var2

/-- **An option raises what its type names by its value**, but for the lines that slip. -/
theorem wearApplied {u' : StatUnit} {bIsBaseVar : Bool} {fRatio : ℚ}
    (hpenalty : itemVarPenalty u pItem bIsBaseVar type var1 var2 fRatio = some penalty)
    (hrun : u.onItemWearEffect pItem bIsBaseVar type var1 var2 fRatio = some u') (hslip : ¬ WearSlip u pItem type var1) :
    WearApplied u pItem type var1 var2 penalty u' := by
  rw [StatUnit.onItemWearEffect, hpenalty, Option.map_some, Option.some.injEq] at hrun
  subst hrun
  split
  case h_2 => exact wearApplied_hands rfl rfl (by decide)
  case h_5 => exact wearApplied_hands rfl rfl (by decide)
  case h_6 =>
    -- the attack speed of the left hand only
    have hright : (applyHands u pItem).1 = false := by
      rw [← Bool.not_eq_true]
      exact fun h => hslip (.inr (.inr (.inl ⟨rfl, h⟩)))
    have hsame : u.incHands (applyHands u pItem) nAttackPointRight nAttackSpeedLeft penalty =
        u.incHands (applyHands u pItem) nAttackSpeedRight nAttackSpeedLeft penalty := by
      unfold StatUnit.incHands
      rw [hright, if_neg Bool.false_ne_true, if_neg Bool.false_ne_true]
    rw [hsame]
    exact wearApplied_hands rfl rfl (by decide)
  case h_9 =>
    split_ifs with hfixed
    · refine wearApplied_self rfl fun t => ?_
      show (decide (t = .m_Attribute nMoveSpeed) && !(true && u.traits.moveSpeedFixed)) = false
      rw [hfixed]
      exact Bool.and_false _
    · exact wearApplied_inc rfl rfl fun _ => Bool.eq_false_of_not_eq_true hfixed
  case h_16 => exact absurd (Or.inl rfl) hslip
  case h_17 => exact absurd (Or.inr (Or.inl rfl)) hslip
  case h_19 => exact wearApplied_self rfl fun t => rfl
  case h_20 =>
    refine wearApplied_parameter rfl ?_
    by_contra hbraced
    exact hslip (.inr (.inr (.inr ⟨rfl, hbraced⟩)))
  case h_21 => exact wearApplied_parameter rfl fun h => by cases h
  case h_22 => exact wearApplied_parameter rfl fun h => by cases h
  case h_23 => exact wearApplied_parameter rfl fun h => by cases h
  case h_24 h12 h11 h21 h15 h13 h14 h16 h17 h18 h19 h20 h22 h23 h24 h25 h30 h31 h33 _ h96 h97 h98 h99 =>
    have hattribute : optionAttribute type = none := by
      unfold optionAttribute
      split <;> first | contradiction | rfl
    have hparameter : optionParameter type = none := by
      unfold optionParameter
      split <;> first | contradiction | rfl
    refine wearApplied_self hparameter fun t => ?_
    unfold optionNames
    rw [hattribute]
    show (decide (type = IEP_MAX_HP) && decide (t = .maxHealth) || decide (type = IEP_MAX_MP) && decide (t = .maxMana)) = false
    rw [decide_eq_false (show ¬ type = IEP_MAX_HP from h30), decide_eq_false (show ¬ type = IEP_MAX_MP from h31)]
    rfl
  -- the attributes that are not of a hand
  all_goals exact wearApplied_inc rfl rfl fun h => absurd h (by decide)

end

/-! ## Parameters and options together -/

namespace StatUnit

/-- One of the four functions. -/
def callParameter (u : StatUnit) (f : ParamFunction) (nBitset : BitVec 32) (v : ℚ) : StatUnit :=
  match f with
  | .incParameter bStat => u.incParameter nBitset v bStat
  | .ampParameter bStat => u.ampParameter nBitset v bStat
  | .incParameter2 => u.incParameter2 nBitset v
  | .ampParameter2 => u.ampParameter2 nBitset v

theorem callParameter_eq (u : StatUnit) (f : ParamFunction) (nBitset : BitVec 32) (v : ℚ) :
    u.callParameter f nBitset v = runLines f.lines nBitset v u := by
  cases f <;> rfl

/-- The functions change what the bits name by the value, disjoint bitsets add up and the empty one does nothing; the line of
`incParameter` outside the test of its bit is left out. -/
structure ParametersExact (u : StatUnit) (v : ℚ) : Prop where
  appliedExactly : ∀ f nBitset, Braced f nBitset u → AppliedExactly f nBitset v u (u.callParameter f nBitset v)
  additive : ∀ f b b', b &&& b' = 0#32 → (f = .incParameter false → u.traits.isUsingDoubleWeapon = false) →
    SameUpToOrder (u.callParameter f (b ||| b') v) ((u.callParameter f b v).callParameter f b' v)
  empty : ∀ f, Braced f 0#32 u → u.callParameter f 0#32 v = u

/-- Every option of every item raises what its type names, but for the lines that slip. -/
def WearEffectsExact (u : StatUnit) : Prop :=
  ∀ pItem bIsBaseVar type var1 var2 fRatio penalty u', itemVarPenalty u pItem bIsBaseVar type var1 var2 fRatio = some penalty →
    u.onItemWearEffect pItem bIsBaseVar type var1 var2 fRatio = some u' → ¬ WearSlip u pItem type var1 →
    WearApplied u pItem type var1 var2 penalty u'

theorem callParameter_exactly {u : StatUnit} {f : ParamFunction} {nBitset : BitVec 32} (hbraced : Braced f nBitset u) (v : ℚ) :
    AppliedExactly f nBitset v u (u.callParameter f nBitset v) := by
  rw [callParameter_eq]
  exact Chihiro.appliedExactly hbraced v

/-- **Parameters and options are applied exactly**: every bitset, value, unit, item and option. -/
theorem parametersExact (u : StatUnit) (v : ℚ) : ParametersExact u v ∧ WearEffectsExact u := by
  refine ⟨⟨fun f nBitset hbraced => callParameter_exactly hbraced v, fun f b b' hdisjoint hdouble => ?_, fun f hbraced => ?_⟩,
    fun pItem bIsBaseVar type var1 var2 fRatio penalty u' => wearApplied⟩
  · have hbraced : ∀ w : StatUnit, w.traits = u.traits → ∀ nBitset, Braced f nBitset w := by
      intro w hw nBitset hf h
      rw [hw, hdouble hf] at h
      exact absurd h Bool.false_ne_true
    have hfirst := callParameter_exactly (hbraced u rfl b) v
    exact sameUpToOrder_or hdisjoint hfirst (callParameter_exactly (hbraced _ hfirst.traits b') v)
      (callParameter_exactly (hbraced u rfl (b ||| b')) v)
  · exact (callParameter_exactly hbraced v).eq_of_zero

/-- A player who rides. -/
def rider : StatUnit where
  value _ := 0
  m_vNormalAdditionalDamage := []
  m_vRangeAdditionalDamage := []
  hpRegenStopped := false
  mpRegenStopped := false
  traits := { isUsingDoubleWeapon := false, moveSpeedFixed := false, hasRidingState := true, isWearShield := false, level := 1 }

/-- The move speed of a rider stays as it is, and the lists are filled in the order of the types, not of the calls. -/
theorem not_parametersExact :
    (¬ ∀ (u : StatUnit) (nBitset : BitVec 32) (v : ℚ), (u.incParameter nBitset v false).value (.m_Attribute nMoveSpeed) =
        if nBitset.getLsbD 13 = true then u.value (.m_Attribute nMoveSpeed) + v else u.value (.m_Attribute nMoveSpeed)) ∧
      ¬ ∀ (u : StatUnit) (b b' : BitVec 32) (v : ℚ), b &&& b' = 0#32 →
        u.incParameter2 (b ||| b') v = (u.incParameter2 b v).incParameter2 b' v := by
  refine ⟨fun h => ?_, fun h => ?_⟩
  · have hbraced : Braced (.incParameter false) (BitVec.ofNat 32 (2 ^ 13)) rider := fun _ h => absurd h Bool.false_ne_true
    have hkept := (callParameter_exactly hbraced 1).value (.m_Attribute nMoveSpeed)
    rw [if_neg (by decide)] at hkept
    have hspeed := (h rider (BitVec.ofNat 32 (2 ^ 13)) 1).symm.trans hkept
    rw [if_pos (by decide)] at hspeed
    exact absurd hspeed (by norm_num)
  · have hlist := congrArg m_vNormalAdditionalDamage (h rider (BitVec.ofNat 32 (2 ^ 22)) (BitVec.ofNat 32 (2 ^ 21)) 1 (by decide))
    exact absurd (congrArg (List.map AdditionalDamageInfo.type) hlist) (by decide)

end StatUnit

end RZEmulator.Chihiro
