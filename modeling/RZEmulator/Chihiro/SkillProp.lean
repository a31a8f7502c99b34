import Mathlib.Logic.Function.Basic
import RZEmulator.Chihiro.WearPosition
import RZEmulator.Lib.MachineInt
import RZEmulator.Lib.Run

/-!
# Props of skills

`SkillProp::Update` with the `INIT` and `FIRE` functions as far as they set times, `PendRemove`, and
`Skill::MAKE_AREA_EFFECT_PROP`, by which a trap of the caster replaces the one before. Times are `uint32_t`; floats are
rationals, and each of their operations is followed by a rounding `fl`, of which nothing is assumed.
-/

namespace RZEmulator.Chihiro

open Lib

/-- The effects of skills that leave a prop. -/
inductive PropEffect
  | areaEffectMagicDamageOld
  | areaEffectHeal
  | areaEffectHealByFieldProp
  | areaEffectMagicDamage
  | areaEffectMagicDamageAndHeal
  | areaEffectMagicDamageAndHealT2
  | trapPhysicalDamage
  | trapMagicalDamage
  | trapMultiplePhysicalDamage
  | trapMultipleMagicalDamage
  deriving DecidableEq, Repr

namespace PropEffect

/-- Fires once. -/
def isSingle : PropEffect → Bool
  | trapPhysicalDamage | trapMagicalDamage => true
  | _ => false

def isMultiple : PropEffect → Bool
  | trapMultiplePhysicalDamage | trapMultipleMagicalDamage => true
  | _ => false

/-- The argument `bIsTrap` of `MAKE_AREA_EFFECT_PROP`. -/
def isTrap (e : PropEffect) : Bool := e.isSingle || e.isMultiple

end PropEffect

/-- The conversion of a float to `uint32_t`. -/
def toUInt32 (x : ℚ) : Nat := (wrap32 (truncated x)).toNat

/-- The copy of the skill that a prop keeps. -/
structure TimedSkill where
  effect : PropEffect
  var : Nat → ℚ
  requestedSkillLevel : Nat

namespace TimedSkill

variable (fl : ℚ → ℚ) (k : TimedSkill)

/-- `(GetVar(i) + GetVar(j) * GetRequestedSkillLevel()) * 100`. -/
def ticks (i j : Nat) : ℚ := fl (fl (k.var i + fl (k.var j * fl k.requestedSkillLevel)) * 100)

/-- `GetVar(i) * 100`. -/
def tickVar (i : Nat) : Nat := toUInt32 (fl (k.var i * 100))

/-- A time of `uint32_t` and a duration that is a float. -/
def floatEnd (ct : Nat) (duration : ℚ) : Nat := toUInt32 (fl (fl ct + duration))

/-- `nFireEndTime` of a multiple trap that is triggered at `t`. -/
def fireEndTime (t : Nat) : Nat := floatEnd fl t (k.ticks fl 7 8)

def fireInterval : Nat := k.tickVar fl 9

end TimedSkill

structure SkillProp (ι : Type) where
  m_hCaster : ι
  m_pSkill : TimedSkill
  m_nStartTime : Nat
  m_nEndTime : Nat
  m_nInterval : Nat
  m_nLastFireTime : Nat
  m_bFired : Bool
  m_bProcessEnded : Bool
  m_bIsRemovePended : Bool

/-- What an update does to the prop: `damage` says that a trap has found an enemy in its range, or has fired before. -/
inductive PropOutcome
  | idle
  | removed
  | fired (damage : Bool)
  deriving DecidableEq, Repr

namespace SkillProp

variable {ι : Type} (fl : ℚ → ℚ)

/-! ## Creation -/

def started (caster : ι) (k : TimedSkill) (ct m_nEndTime m_nInterval : Nat) : SkillProp ι :=
  ⟨caster, k, ct, m_nEndTime, m_nInterval, 0, false, false, false⟩

/-- The `INIT` functions of the older effects: the end is a sum of floats. -/
def initAreaEffect (i j interval : Nat) (caster : ι) (k : TimedSkill) (ct : Nat) : SkillProp ι :=
  started caster k ct (TimedSkill.floatEnd fl ct (k.ticks fl i j)) (k.tickVar fl interval)

def initAreaEffectMagicDamage (caster : ι) : TimedSkill → Nat → SkillProp ι := initAreaEffect fl 3 4 6 caster

def initAreaEffectHeal (caster : ι) : TimedSkill → Nat → SkillProp ι := initAreaEffect fl 7 8 10 caster

def initAreaEffectHealByFieldProp (caster : ι) : TimedSkill → Nat → SkillProp ι := initAreaEffect fl 7 8 5 caster

/-- `INIT_SKILL_PROP_PARAMETER`. -/
def initSkillPropParameter (nDuration nInterval : Nat) (caster : ι) (k : TimedSkill) (ct : Nat) : SkillProp ι :=
  started caster k ct ((ct + nDuration) % 2 ^ 32) nInterval

/-- The constructor. -/
def create (caster : ι) (k : TimedSkill) (ct : Nat) : SkillProp ι :=
  match k.effect with
  | .areaEffectMagicDamageOld => initAreaEffectMagicDamage fl caster k ct
  | .areaEffectHeal => initAreaEffectHeal fl caster k ct
  | .areaEffectHealByFieldProp => initAreaEffectHealByFieldProp fl caster k ct
  | .areaEffectMagicDamage | .areaEffectMagicDamageAndHeal =>
    initSkillPropParameter (toUInt32 (k.ticks fl 6 7)) (k.tickVar fl 8) caster k ct
  | .areaEffectMagicDamageAndHealT2 =>
    initSkillPropParameter (toUInt32 (k.ticks fl 12 13)) (k.tickVar fl 14) caster k ct
  | .trapPhysicalDamage | .trapMagicalDamage | .trapMultiplePhysicalDamage | .trapMultipleMagicalDamage =>
    initSkillPropParameter (toUInt32 (k.ticks fl 3 4)) 30 caster k ct

/-! ## Updates -/

variable (p : SkillProp ι)

def pendRemove : SkillProp ι :=
  if p.m_bProcessEnded = false ∧ p.m_bIsRemovePended = false then { p with m_bIsRemovePended := true } else p

/-- `FIRE_TRAP_DAMAGE`; `enemy`: an enemy is in the fire range. -/
def fireTrapDamage (t : Nat) (enemy : Bool) : Bool × SkillProp ι :=
  if enemy = false then (false, p) else (true, { p with m_nEndTime := t })

/-- `FIRE_TRAP_MULTIPLE_DAMAGE`. -/
def fireTrapMultipleDamage (t : Nat) (enemy : Bool) : Bool × SkillProp ι :=
  if p.m_bFired = true then (true, p)
  else if enemy = false then (false, p)
  else
    let nFireEndTime := p.m_pSkill.fireEndTime fl t
    (true, { p with m_bFired := true, m_nInterval := p.m_pSkill.fireInterval fl, m_nEndTime := nFireEndTime })

/-- The `FIRE` functions; those of area effects set no times. -/
def fire (t : Nat) (enemy : Bool) : Bool × SkillProp ι :=
  if p.m_pSkill.effect.isSingle then p.fireTrapDamage t enemy
  else if p.m_pSkill.effect.isMultiple then p.fireTrapMultipleDamage fl t enemy
  else (true, p)

/-- `Update` of the prop that carries `handle`, at the time `ct`; `trapHandle` is that of the caster, if he is there. -/
def update (handle : Nat) (trapHandle : Option Nat) (ct : Nat) (enemy : Bool) :
    PropOutcome × SkillProp ι × Option Nat :=
  if p.m_bProcessEnded = true then (.idle, p, trapHandle)
  else if ct > p.m_nEndTime ∨ p.m_bIsRemovePended = true then
    (.removed, { p with m_bProcessEnded := true }, trapHandle.map fun h => if h = handle then 0 else h)
  else if ct < (p.m_nLastFireTime + p.m_nInterval) % 2 ^ 32 then (.idle, p, trapHandle)
  else
    let p := { p with m_nLastFireTime := ct }
    match trapHandle with
    | none => (.removed, { p with m_bProcessEnded := true }, none)
    | some h => (.fired (p.fire fl ct enemy).1, (p.fire fl ct enemy).2, some h)

end SkillProp

/-! ## The props of all casters -/

/-- The last time that `GetArTime` returns: its milliseconds are a `uint32_t`. -/
def arTimeMax : Nat := (2 ^ 32 - 1) / 10

structure SkillProps (ι : Type) where
  clock : Nat
  /-- `UNIT_FIELD_TRAP_HANDLE` of the units that are there. -/
  trapHandle : ι → Option Nat
  /-- The prop that carries a handle. -/
  prop : Nat → Option (SkillProp ι)

inductive SkillPropEvent (ι : Type)
  /-- The caster leaves a prop, to which the pool has given the handle. -/
  | makeAreaEffectProp (caster : ι) (skill : TimedSkill) (handle ct : Nat)
  | update (handle ct : Nat) (enemy : Bool)
  | pendRemove (handle : Nat)
  /-- The caster is deleted. -/
  | depart (caster : ι)

namespace SkillProps

variable {ι : Type} [DecidableEq ι] (fl : ℚ → ℚ) (s : SkillProps ι)

def setProp (h : Nat) (p : SkillProp ι) : SkillProps ι := { s with prop := Function.update s.prop h (some p) }

def setTrapHandle (c : ι) (h : Option Nat) : SkillProps ι :=
  { s with trapHandle := Function.update s.trapHandle c h }

def pendRemove (h : Nat) : SkillProps ι := (s.prop h).elim s fun p => s.setProp h p.pendRemove

/-- The clock does not go back, and no prop carries the new handle. -/
def makeAreaEffectProp (c : ι) (k : TimedSkill) (h ct : Nat) : Option (SkillProps ι) :=
  if s.clock ≤ ct ∧ ct ≤ arTimeMax ∧ h ≠ 0 ∧ (s.prop h).isNone then
    (s.trapHandle c).map fun trap =>
      let s := { s with clock := ct }
      if k.effect.isTrap then
        let s := if trap ≠ 0 then s.pendRemove trap else s
        (s.setTrapHandle c (some h)).setProp h (SkillProp.create fl c k ct)
      else s.setProp h (SkillProp.create fl c k ct)
  else none

def update (h ct : Nat) (enemy : Bool) : Option (SkillProps ι) :=
  if s.clock ≤ ct ∧ ct ≤ arTimeMax then
    (s.prop h).map fun p =>
      let out := p.update fl h (s.trapHandle p.m_hCaster) ct enemy
      let s := { s with clock := ct }
      (s.setTrapHandle p.m_hCaster out.2.2).setProp h out.2.1
  else none

def handle : SkillPropEvent ι → Option (SkillProps ι)
  | .makeAreaEffectProp c k h ct => s.makeAreaEffectProp fl c k h ct
  | .update h ct enemy => s.update fl h ct enemy
  | .pendRemove h => some (s.pendRemove h)
  | .depart c => some (s.setTrapHandle c none)

end SkillProps

/-- No prop is there at the start, and no caster has a trap. -/
def skillPropSystem (ι : Type) [DecidableEq ι] (fl : ℚ → ℚ) : System (SkillProps ι) (SkillPropEvent ι) :=
  .ofFun (fun s => (∀ h, s.prop h = none) ∧ ∀ c h, s.trapHandle c = some h → h = 0) (SkillProps.handle fl)

/-! ## One update -/

/-- Nothing keeps the prop from firing but times. -/
def SkillProp.CanFire {ι : Type} (p : SkillProp ι) : Prop := p.m_bProcessEnded = false ∧ p.m_bIsRemovePended = false

namespace SkillProp

variable {ι : Type} {fl : ℚ → ℚ} {p : SkillProp ι}

/-- The time of the last firing is noted. -/
def tick (p : SkillProp ι) (ct : Nat) : SkillProp ι := { p with m_nLastFireTime := ct }

/-- What an update can do. -/
inductive Updated (fl : ℚ → ℚ) (p : SkillProp ι) (handle : Nat) (trapHandle : Option Nat) (ct : Nat)
    (enemy : Bool) : PropOutcome × SkillProp ι × Option Nat → Prop
  | idle : Updated fl p handle trapHandle ct enemy (.idle, p, trapHandle)
  | removed (l : Nat) : p.m_bProcessEnded = false → l = p.m_nLastFireTime ∨ l = ct ∧ ct ≤ p.m_nEndTime →
      Updated fl p handle trapHandle ct enemy (.removed, { p with m_nLastFireTime := l, m_bProcessEnded := true },
        trapHandle.map fun h => if h = handle then 0 else h)
  | fired (h : Nat) : trapHandle = some h → p.CanFire → ct ≤ p.m_nEndTime →
      (p.m_nLastFireTime + p.m_nInterval) % 2 ^ 32 ≤ ct →
      Updated fl p handle trapHandle ct enemy
        (.fired ((p.tick ct).fire fl ct enemy).1, ((p.tick ct).fire fl ct enemy).2, some h)

theorem updated_update (fl : ℚ → ℚ) (p : SkillProp ι) (handle : Nat) (trapHandle : Option Nat) (ct : Nat)
    (enemy : Bool) : Updated fl p handle trapHandle ct enemy (p.update fl handle trapHandle ct enemy) := by
  unfold update
  by_cases hended : p.m_bProcessEnded = true
  · rw [if_pos hended]
    exact .idle
  rw [if_neg hended]
  rw [Bool.not_eq_true] at hended
  by_cases hend : ct > p.m_nEndTime ∨ p.m_bIsRemovePended = true
  · rw [if_pos hend]
    exact .removed p.m_nLastFireTime hended (Or.inl rfl)
  rw [if_neg hend]
  obtain ⟨hct, hpended⟩ := not_or.mp hend
  rw [Bool.not_eq_true] at hpended
  by_cases hwait : ct < (p.m_nLastFireTime + p.m_nInterval) % 2 ^ 32
  · rw [if_pos hwait]
    exact .idle
  rw [if_neg hwait]
  cases trapHandle with
  | none => exact .removed ct hended (Or.inr ⟨rfl, by omega⟩)
  | some h => exact .fired h rfl ⟨hended, hpended⟩ (by omega) (by omega)

/-- What a firing leaves as it is. -/
theorem fire_same (fl : ℚ → ℚ) (p : SkillProp ι) (t : Nat) (enemy : Bool) :
    (p.fire fl t enemy).2.m_hCaster = p.m_hCaster ∧ (p.fire fl t enemy).2.m_pSkill = p.m_pSkill ∧
      (p.fire fl t enemy).2.m_nLastFireTime = p.m_nLastFireTime ∧
      (p.fire fl t enemy).2.m_bProcessEnded = p.m_bProcessEnded ∧
      (p.fire fl t enemy).2.m_bIsRemovePended = p.m_bIsRemovePended := by
  unfold fire fireTrapDamage fireTrapMultipleDamage
  split
  · split <;> exact ⟨rfl, rfl, rfl, rfl, rfl⟩
  · split
    · split
      · exact ⟨rfl, rfl, rfl, rfl, rfl⟩
      · split <;> exact ⟨rfl, rfl, rfl, rfl, rfl⟩
    · exact ⟨rfl, rfl, rfl, rfl, rfl⟩

theorem fire_of_single (hsingle : p.m_pSkill.effect.isSingle = true) (t : Nat) (enemy : Bool) :
    p.fire fl t enemy = p.fireTrapDamage t enemy := by
  unfold fire
  rw [if_pos hsingle]

theorem fire_of_multiple (hmultiple : p.m_pSkill.effect.isMultiple = true) (t : Nat) (enemy : Bool) :
    p.fire fl t enemy = p.fireTrapMultipleDamage fl t enemy := by
  have hsingle : p.m_pSkill.effect.isSingle = false := by
    cases heffect : p.m_pSkill.effect with
    | trapMultiplePhysicalDamage | trapMultipleMagicalDamage => rfl
    | _ =>
      rw [heffect] at hmultiple
      cases hmultiple
  unfold fire
  rw [hsingle, if_neg nofun, if_pos hmultiple]

/-- The start of a multiple trap. -/
def trigger (fl : ℚ → ℚ) (p : SkillProp ι) (t : Nat) : SkillProp ι :=
  { p with m_bFired := true, m_nInterval := p.m_pSkill.fireInterval fl, m_nEndTime := p.m_pSkill.fireEndTime fl t }

theorem fire_multiple_cases (hmultiple : p.m_pSkill.effect.isMultiple = true) (t : Nat) (enemy : Bool) :
    p.m_bFired = true ∧ p.fire fl t enemy = (true, p) ∨
      p.m_bFired = false ∧ (p.fire fl t enemy = (false, p) ∨ p.fire fl t enemy = (true, p.trigger fl t)) := by
  rw [fire_of_multiple hmultiple]
  unfold fireTrapMultipleDamage
  cases p.m_bFired with
  | true => exact Or.inl ⟨rfl, rfl⟩
  | false =>
    cases enemy with
    | false => exact Or.inr ⟨rfl, Or.inl rfl⟩
    | true => exact Or.inr ⟨rfl, Or.inr rfl⟩

theorem fire_single_cases (hsingle : p.m_pSkill.effect.isSingle = true) (t : Nat) (enemy : Bool) :
    p.fire fl t enemy = (false, p) ∨ p.fire fl t enemy = (true, { p with m_nEndTime := t }) := by
  rw [fire_of_single hsingle]
  unfold fireTrapDamage
  cases enemy with
  | false => exact Or.inl rfl
  | true => exact Or.inr rfl

/-- A firing keeps the interval, or triggers a multiple trap. -/
theorem fire_interval (fl : ℚ → ℚ) (p : SkillProp ι) (t : Nat) (enemy : Bool) :
    (p.fire fl t enemy).2.m_nInterval = p.m_nInterval ∨
      p.m_pSkill.effect.isMultiple = true ∧ (p.fire fl t enemy).2.m_bFired = true := by
  by_cases hmultiple : p.m_pSkill.effect.isMultiple = true
  · rcases fire_multiple_cases hmultiple t enemy with ⟨-, hfire⟩ | ⟨-, hfire | hfire⟩
    · exact Or.inl (by rw [hfire])
    · exact Or.inl (by rw [hfire])
    · exact Or.inr ⟨hmultiple, by rw [hfire]; rfl⟩
  · left
    by_cases hsingle : p.m_pSkill.effect.isSingle = true
    · rcases fire_single_cases hsingle t enemy with hfire | hfire
      · rw [hfire]
      · rw [hfire]
    · unfold fire
      rw [if_neg hsingle, if_neg hmultiple]

theorem toUInt32_lt (x : ℚ) : toUInt32 x < 2 ^ 32 := by
  unfold toUInt32 wrap32
  omega

/-- A prop at its start. -/
theorem create_eq (fl : ℚ → ℚ) (c : ι) (k : TimedSkill) (ct : Nat) :
    ∃ e i, create fl c k ct = started c k ct e i ∧ (k.effect.isSingle = true → i = 30) ∧ i < 2 ^ 32 := by
  unfold create
  split
  case h_1 heffect => exact ⟨_, _, rfl, by rw [heffect]; nofun, toUInt32_lt _⟩
  case h_2 heffect => exact ⟨_, _, rfl, by rw [heffect]; nofun, toUInt32_lt _⟩
  case h_3 heffect => exact ⟨_, _, rfl, by rw [heffect]; nofun, toUInt32_lt _⟩
  case h_4 heffect => exact ⟨_, _, rfl, by rw [heffect]; nofun, toUInt32_lt _⟩
  case h_5 heffect => exact ⟨_, _, rfl, by rw [heffect]; nofun, toUInt32_lt _⟩
  case h_6 heffect => exact ⟨_, _, rfl, by rw [heffect]; nofun, toUInt32_lt _⟩
  all_goals exact ⟨_, _, rfl, fun _ => rfl, by decide⟩

theorem pendRemove_eq (p : SkillProp ι) : ∃ b, p.pendRemove = { p with m_bIsRemovePended := b } ∧
    (p.m_bIsRemovePended = true → b = true) := by
  unfold pendRemove
  split
  · exact ⟨true, rfl, fun _ => rfl⟩
  · exact ⟨p.m_bIsRemovePended, rfl, id⟩

theorem not_canFire_pendRemove (p : SkillProp ι) : ¬p.pendRemove.CanFire := by
  unfold pendRemove
  split
  next => exact fun h => absurd h.2 nofun
  next hnot => exact hnot

end SkillProp

end RZEmulator.Chihiro
