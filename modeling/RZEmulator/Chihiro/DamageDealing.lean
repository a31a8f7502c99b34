import RZEmulator.Chihiro.DropGroup
import RZEmulator.Chihiro.Vitals

/-!
# Dealing damage

`Unit::DealDamage` with the mana shield, `onDamage` of monsters and players and the damage that is reflected, and `Unit::regenHPMP`.
What `CalcDamage` answers is given, floats are rational numbers. `accounting_iff` says when the damage that is reported is the health
that has been lost, and when the amounts that the regeneration announces have been gained.
-/

namespace RZEmulator.Chihiro

open DropTables

inductive DamageType
  | DT_NORMAL_PHYSICAL_DAMAGE
  | DT_NORMAL_MAGICAL_DAMAGE
  | DT_NORMAL_PHYSICAL_SKILL_DAMAGE
  | DT_ADDITIONAL_DAMAGE
  | DT_NORMAL_PHYSICAL_LEFT_HAND_DAMAGE
  | DT_ADDITIONAL_LEFT_HAND_DAMAGE
  | DT_ADDITIONAL_MAGICAL_DAMAGE
  | DT_STATE_MAGICAL_DAMAGE
  | DT_STATE_PHYSICAL_DAMAGE
  deriving DecidableEq

structure StateMod where
  nDamage : Int
  fDamage : ℚ

structure DamageReflectInfo where
  nReflectDamage : Int
  fPhysicalReflectRatio : ℚ
  fPhysicalSkillReflectRatio : ℚ
  fMagicalReflectRatio : ℚ

/-- A player passes a part of the damage to its main summon, where it sees it. -/
inductive FightKind
  | monster
  | player (passRatio : ℚ) (mainSummon : Option Nat) (visible : Bool)
  | other

structure FightUnit where
  vitals : Vitals
  kind : FightKind
  physicalAbsorbRatio : ℚ
  magicalAbsorbRatio : ℚ
  m_vDamageReflectInfo : List DamageReflectInfo
  processingReflect : Bool

/-- The units, by their handles. -/
abbrev Fight := Nat → FightUnit

/-- A call of `DealDamage`: the units before it, its damage behind `CalcDamage`, what it reports and the units after it. -/
structure HitRecord where
  victim : Nat
  type : DamageType
  incoming : Int
  before : Fight
  reported : Int
  after : Fight

/-- `mana_shield_absorb_ratio`. -/
def FightUnit.absorbRatio (u : FightUnit) (type : DamageType) : ℚ :=
  let ratio := match type with
    | .DT_NORMAL_PHYSICAL_DAMAGE | .DT_NORMAL_PHYSICAL_LEFT_HAND_DAMAGE | .DT_NORMAL_PHYSICAL_SKILL_DAMAGE
    | .DT_ADDITIONAL_DAMAGE | .DT_ADDITIONAL_LEFT_HAND_DAMAGE | .DT_STATE_PHYSICAL_DAMAGE => u.physicalAbsorbRatio
    | .DT_ADDITIONAL_MAGICAL_DAMAGE | .DT_NORMAL_MAGICAL_DAMAGE | .DT_STATE_MAGICAL_DAMAGE => u.magicalAbsorbRatio
  if 1 < ratio then 1 else if ratio < 0 then 0 else ratio

/-- `nAbsorbableDamage`, for a ratio that is not 0. -/
def FightUnit.absorbed (u : FightUnit) (type : DamageType) (nDamage : Int) : Int :=
  let nAbsorbableDamage := truncated (nDamage * u.absorbRatio type)
  if u.vitals.mana < nAbsorbableDamage then u.vitals.mana else nAbsorbableDamage

/-- The health and mana that `Unit::damage` leaves. -/
def Vitals.damage (v : Vitals) (nDamage : Int) : Vitals :=
  if v.isDead then v else v.setHealth (if v.health > nDamage then v.health - nDamage else 0)

namespace Fight

variable (w : Fight)

def setVitals (i : Nat) (v : Vitals) : Fight := fun j => if j = i then { w i with vitals := v } else w j

/-- The damage behind the mana shield. -/
def shielded (victim : Nat) (type : DamageType) (nDamage : Int) : Int :=
  if 0 < (w victim).absorbRatio type then nDamage - (w victim).absorbed type nDamage else nDamage

/-- The units when the mana has been paid. -/
def payShield (victim : Nat) (type : DamageType) (nDamage : Int) : Fight :=
  if 0 < (w victim).absorbRatio type then w.setVitals victim ((w victim).vitals.addMana (-(w victim).absorbed type nDamage)) else w

/-- What a player passes on. A main summon is never the player. -/
def passDamage (victim : Nat) (nDamage : Int) : Int :=
  match (w victim).kind with
  | .player passRatio (some summon) visible =>
    if passRatio ≠ 0 ∧ visible = true ∧ summon ≠ victim then min (truncated (nDamage * passRatio)) (w summon).vitals.health else 0
  | _ => 0

/-- What `onDamage` returns. -/
def onDamage (victim : Nat) (nDamage : Int) : Int :=
  match (w victim).kind with
  | .monster => if (w victim).vitals.health - nDamage ≤ 0 then (w victim).vitals.health else nDamage
  | .player _ _ _ => nDamage - w.passDamage victim nDamage
  | .other => nDamage

/-- What it does to the units. -/
def afterOnDamage (victim : Nat) (nDamage : Int) : Fight :=
  match (w victim).kind with
  | .player _ (some summon) _ =>
    if w.passDamage victim nDamage ≠ 0 then w.setVitals summon ((w summon).vitals.damage (w.passDamage victim nDamage)) else w
  | _ => w

/-- `DealDamage` up to the reflected damage. -/
def hit (victim : Nat) (type : DamageType) (incoming : Int) : HitRecord :=
  let w' := w.payShield victim type incoming
  let real_damage := w'.onDamage victim (w.shielded victim type incoming)
  let w'' := w'.afterOnDamage victim (w.shielded victim type incoming)
  ⟨victim, type, incoming, w, real_damage, w''.setVitals victim ((w'' victim).vitals.damage real_damage)⟩

/-- Calls for one victim, one after the other. -/
def hits (victim : Nat) : List (DamageType × Int) → Fight → List HitRecord
  | [], _ => []
  | (type, incoming) :: rest, w => w.hit victim type incoming :: hits victim rest (w.hit victim type incoming).after

end Fight

/-! ## The damage of a call -/

def applyMod (nDamage : Int) : Option StateMod → Int
  | none => nDamage
  | some mod => truncated ((nDamage + mod.nDamage : Int) * mod.fDamage)

/-- The arguments of `DealDamage`; `CalcDamage` has answered `nDamage` and `bMiss`. -/
structure DamageCall where
  type : DamageType
  nDamage : Int
  bMiss : Bool
  damage_penalty : Option StateMod
  damage_advantage : Option StateMod

/-- The damage that the victim is to take. -/
def DamageCall.incoming (c : DamageCall) : Int :=
  let nDamage := if c.bMiss then c.nDamage else applyMod (applyMod c.nDamage c.damage_penalty) c.damage_advantage
  if nDamage < 0 then 0 else nDamage

/-- The calls for the attacker that a reflect info of the victim leads to, with the damage that they ask for. -/
def reflectRequests (type : DamageType) (real_damage : Int) (it : DamageReflectInfo) : List (DamageType × Int) :=
  let physical := truncated (it.fPhysicalReflectRatio * real_damage)
  let physicalSkill := truncated (it.fPhysicalSkillReflectRatio * real_damage)
  let magical := truncated (it.fMagicalReflectRatio * real_damage)
  (if it.nReflectDamage ≠ 0 ∧ (type = .DT_NORMAL_PHYSICAL_DAMAGE ∨ type = .DT_NORMAL_MAGICAL_DAMAGE ∨
      type = .DT_NORMAL_PHYSICAL_LEFT_HAND_DAMAGE ∨ type = .DT_NORMAL_PHYSICAL_SKILL_DAMAGE) then
    [(.DT_ADDITIONAL_MAGICAL_DAMAGE, it.nReflectDamage)] else []) ++
  (if physical ≠ 0 ∧ (type = .DT_NORMAL_PHYSICAL_DAMAGE ∨ type = .DT_NORMAL_PHYSICAL_LEFT_HAND_DAMAGE) then
    [(.DT_NORMAL_PHYSICAL_DAMAGE, physical)] else []) ++
  (if physicalSkill ≠ 0 ∧ type = .DT_NORMAL_PHYSICAL_SKILL_DAMAGE then [(.DT_NORMAL_PHYSICAL_DAMAGE, physicalSkill)] else []) ++
  (if magical ≠ 0 ∧ type = .DT_NORMAL_MAGICAL_DAMAGE then [(.DT_NORMAL_MAGICAL_DAMAGE, magical)] else [])

/-- What else `DealDamage` finds: the reflect infos that fire, and the damages behind `CalcDamage` of the calls that they lead to, with
those of `ProcessAdditionalDamage`. -/
structure HitWorld where
  fires : DamageReflectInfo → Bool
  answers : List (DamageType × Int) → List (DamageType × Int)

/-- `Unit::DealDamage` with the calls within it; the first record is its own. -/
def Fight.dealDamage (w : Fight) (W : HitWorld) (victim attacker : Nat) (c : DamageCall) : List HitRecord :=
  let own := w.hit victim c.type c.incoming
  if (w victim).processingReflect || (w attacker).processingReflect then [own]
  else
    let requests := ((w victim).m_vDamageReflectInfo.filter W.fires).flatMap (reflectRequests c.type own.reported)
    own :: Fight.hits attacker (W.answers requests) own.after

/-! ## The regeneration -/

/-- A unit with what `regenHPMP` reads. The two counters are floats, with whole numbers. -/
structure RegenUnit where
  vitals : Vitals
  m_nRegenHP : Int
  m_fRegenMP : Int
  lastUpdate : Nat
  hpStopped : Bool
  mpStopped : Bool
  sitDown : Bool
  nHPRegenPercentage : ℚ
  nHPRegenPoint : ℚ
  nMPRegenPercentage : ℚ
  nMPRegenPoint : ℚ
  hpRegenMod : ℚ
  mpRegenMod : ℚ

/-- `TS_SC_REGEN_HPMP`. -/
structure RegenMessage where
  hp_regen : Int
  mp_regen : Int
  hp : Int
  mp : Int
  deriving DecidableEq

namespace RegenUnit

/-- The points that are regenerated in `et` ticks. -/
def points (maximum : Nat) (percentage point mod : ℚ) (sitDown : Bool) (et : Nat) : ℚ :=
  let etf := (et : ℚ) / 6000
  let pt := maximum * percentage * (1 / 100) * etf + point * etf
  let pt := if sitDown then pt * 2 else pt
  (if pt < 1 then 1 else pt) * mod

def regenHealth (u : RegenUnit) (et : Nat) : Vitals :=
  let pti := truncated (points u.vitals.maxHealth u.nHPRegenPercentage u.nHPRegenPoint u.hpRegenMod u.sitDown et)
  if u.hpStopped = false ∧ pti ≠ 0 then u.vitals.addHealth pti else u.vitals

def regenMana (u : RegenUnit) (v : Vitals) (et : Nat) : Vitals :=
  let pt := points v.maxMana u.nMPRegenPercentage u.nMPRegenPoint u.mpRegenMod u.sitDown et
  if u.mpStopped = false ∧ pt ≠ 0 then v.addMana (truncated pt) else v

/-- It is time for a message. -/
def announces (v : Vitals) (m_nRegenHP m_fRegenMP : Int) : Bool :=
  v.maxHealth = v.health || v.maxMana = v.mana || 3 < (100 * m_nRegenHP : ℚ) / v.maxHealth || 3 < (100 * m_fRegenMP : ℚ) / v.maxMana

/-- `et`, of 32 bits. -/
def elapsed (u : RegenUnit) (t : Nat) : Nat := (t + 2 ^ 32 - u.lastUpdate) % 2 ^ 32

/-- `Unit::regenHPMP` for `et`. -/
def regenFor (u : RegenUnit) (et t : Nat) : RegenUnit × Option RegenMessage :=
  if 300 ≤ et then
    if u.vitals.health ≠ 0 then
      -- the two are swapped
      let prev_mp := u.vitals.health
      let prev_hp := u.vitals.mana
      let v := u.regenMana (u.regenHealth et) et
      if prev_hp ≠ v.health ∨ prev_mp ≠ v.mana then
        let mp := u.m_fRegenMP + (v.mana - prev_mp)
        let hp := u.m_nRegenHP + (v.health - prev_hp)
        if announces v hp mp then
          ({ u with vitals := v, m_nRegenHP := 0, m_fRegenMP := 0, lastUpdate := t }, some ⟨hp, mp, v.health, v.mana⟩)
        else ({ u with vitals := v, m_nRegenHP := hp, m_fRegenMP := mp, lastUpdate := t }, none)
      else ({ u with vitals := v, lastUpdate := t }, none)
    else ({ u with lastUpdate := t }, none)
  else (u, none)

/-- `Unit::regenHPMP`. -/
def regenHPMP (u : RegenUnit) (t : Nat) : RegenUnit × Option RegenMessage := u.regenFor (u.elapsed t) t

end RegenUnit

/-! ## What is claimed -/

namespace HitRecord

variable (r : HitRecord)

def healthLost : Int := (r.before r.victim).vitals.health - (r.after r.victim).vitals.health

def manaPaid : Int := (r.before r.victim).vitals.mana - (r.after r.victim).vitals.mana

/-- What is reported has been lost, and with a mana shield that and the mana are the incoming damage. -/
structure Right : Prop where
  reported : r.reported = r.healthLost
  shield : 0 < (r.before r.victim).absorbRatio r.type → r.healthLost + r.manaPaid = r.incoming

end HitRecord

/-- The counters hold what has been gained and not been announced, and a message has it in its fields. -/
def RegenUnit.Right (u : RegenUnit) (result : RegenUnit × Option RegenMessage) : Prop :=
  let hp := u.m_nRegenHP + (result.1.vitals.health - u.vitals.health)
  let mp := u.m_fRegenMP + (result.1.vitals.mana - u.vitals.mana)
  match result.2 with
  | none => result.1.m_nRegenHP = hp ∧ result.1.m_fRegenMP = mp
  | some m => m = ⟨hp, mp, result.1.vitals.health, result.1.vitals.mana⟩ ∧ result.1.m_nRegenHP = 0 ∧ result.1.m_fRegenMP = 0

/-! ## The condition -/

/-- What is taken from the health of a victim. -/
def Fight.taken (w : Fight) (victim : Nat) (type : DamageType) (incoming : Int) : Int :=
  (w.payShield victim type incoming).onDamage victim (w.shielded victim type incoming)

/-- A living victim has the health that is taken, and a dead one loses none; with a mana shield all the damage behind it is taken, or
what is not makes up for mana above the maximum. -/
structure HitRecord.Covered (r : HitRecord) : Prop where
  health : let h := (r.before r.victim).vitals.health
    let taken := r.before.taken r.victim r.type r.incoming
    if h = 0 then taken = 0 else taken ≤ h ∧ h - taken ≤ (r.before r.victim).vitals.maxHealth
  shield : 0 < (r.before r.victim).absorbRatio r.type →
    let v := (r.before r.victim).vitals
    let left := v.mana - (r.before r.victim).absorbed r.type r.incoming
    let taken := r.before.taken r.victim r.type r.incoming
    if left ≤ v.maxMana then taken = r.before.shielded r.victim r.type r.incoming else taken + (v.mana - v.maxMana) = r.incoming

/-- The health and the mana, which are swapped, are equal. -/
def RegenUnit.Careful (u : RegenUnit) (t : Nat) : Prop :=
  300 ≤ u.elapsed t → u.vitals.health ≠ 0 → u.vitals.health = u.vitals.mana

/-! ## One call -/

@[simp] theorem Vitals.damage_mana (v : Vitals) (n : Int) : (v.damage n).mana = v.mana := by
  unfold Vitals.damage
  split_ifs <;> rfl

theorem Vitals.InRange.damage {v : Vitals} (h : v.InRange) (n : Int) : (v.damage n).InRange := by
  unfold Vitals.damage
  split_ifs
  · exact h
  · exact h.setHealth _
  · exact h.setHealth _

/-- The health that `damage` takes is the damage, or it is less, or the damage is that of a dead unit. -/
theorem Vitals.damage_iff (v : Vitals) (n : Int) :
    n = v.health - (v.damage n).health ↔ if v.health = 0 then n = 0 else n ≤ v.health ∧ v.health - n ≤ v.maxHealth := by
  unfold Vitals.damage isDead
  by_cases hdead : v.health = 0
  · simp [hdead]
  · rw [if_neg hdead, if_neg (by simpa using hdead), setHealth_health]
    by_cases hlt : v.health > n
    · have hsettled := @settled_eq_iff (v.health - n) v.maxHealth
      rw [if_pos hlt]
      constructor
      · intro h
        have := hsettled.mp (by omega)
        omega
      · intro h
        rw [hsettled.mpr (by omega)]
        omega
    · have hzero : settled 0 v.maxHealth = 0 := settled_eq_iff.mpr (by omega)
      rw [if_neg hlt, hzero]
      omega

namespace Fight

variable {w : Fight} {victim : Nat} {type : DamageType} {incoming : Int}

theorem setVitals_same (i : Nat) (v : Vitals) : (w.setVitals i v i).vitals = v := by
  unfold setVitals
  rw [if_pos rfl]

theorem setVitals_of_ne {i j : Nat} (hne : j ≠ i) (v : Vitals) : w.setVitals i v j = w j := if_neg hne

theorem payShield_vitals : (w.payShield victim type incoming victim).vitals =
    if 0 < (w victim).absorbRatio type then (w victim).vitals.addMana (-(w victim).absorbed type incoming) else (w victim).vitals := by
  unfold payShield
  split_ifs
  · exact setVitals_same _ _
  · rfl

/-- What is passed on does not come back to the victim. -/
theorem afterOnDamage_victim (nDamage : Int) : w.afterOnDamage victim nDamage victim = w victim := by
  unfold afterOnDamage
  cases hkind : (w victim).kind with
  | monster => rfl
  | other => rfl
  | player passRatio mainSummon visible =>
    cases mainSummon with
    | none => rfl
    | some summon =>
      dsimp only
      by_cases hpass : w.passDamage victim nDamage ≠ 0
      · rw [if_pos hpass]
        apply setVitals_of_ne
        rintro rfl
        apply hpass
        unfold passDamage
        simp only [hkind, ne_eq, not_true_eq_false, and_false, if_false]
      · rw [if_neg hpass]

theorem hit_vitals : ((w.hit victim type incoming).after victim).vitals =
    (w.payShield victim type incoming victim).vitals.damage (w.taken victim type incoming) := by
  show (setVitals _ victim _ victim).vitals = _
  rw [setVitals_same, afterOnDamage_victim]
  rfl

theorem absorbed_le (u : FightUnit) (type : DamageType) (nDamage : Int) : u.absorbed type nDamage ≤ u.vitals.mana := by
  unfold FightUnit.absorbed
  dsimp only
  split_ifs <;> omega

theorem hit_healthLost : (w.hit victim type incoming).healthLost =
    (w.payShield victim type incoming victim).vitals.health -
      ((w.payShield victim type incoming victim).vitals.damage (w.taken victim type incoming)).health := by
  have hhealth : (w.payShield victim type incoming victim).vitals.health = (w victim).vitals.health := by
    rw [payShield_vitals]
    split_ifs <;> rfl
  show (w victim).vitals.health - ((w.hit victim type incoming).after victim).vitals.health = _
  rw [hit_vitals, hhealth]

theorem hit_manaPaid (hratio : 0 < (w victim).absorbRatio type) : (w.hit victim type incoming).manaPaid =
    (w victim).vitals.mana - settled ((w victim).vitals.mana - (w victim).absorbed type incoming) (w victim).vitals.maxMana := by
  show (w victim).vitals.mana - ((w.hit victim type incoming).after victim).vitals.mana = _
  rw [hit_vitals, Vitals.damage_mana, payShield_vitals, if_pos hratio]
  rfl

theorem hit_right_iff : (w.hit victim type incoming).Right ↔ (w.hit victim type incoming).Covered := by
  have hhealth : (w.hit victim type incoming).reported = (w.hit victim type incoming).healthLost ↔
      if (w victim).vitals.health = 0 then w.taken victim type incoming = 0
      else w.taken victim type incoming ≤ (w victim).vitals.health ∧
        (w victim).vitals.health - w.taken victim type incoming ≤ (w victim).vitals.maxHealth := by
    rw [hit_healthLost]
    have hiff := (w.payShield victim type incoming victim).vitals.damage_iff (w.taken victim type incoming)
    have h1 : (w.payShield victim type incoming victim).vitals.health = (w victim).vitals.health := by
      rw [payShield_vitals]
      split_ifs <;> rfl
    have h2 : (w.payShield victim type incoming victim).vitals.maxHealth = (w victim).vitals.maxHealth := by
      rw [payShield_vitals]
      split_ifs <;> rfl
    rw [h2] at hiff
    simp only [h1] at hiff ⊢
    exact hiff
  have hshield : ∀ hratio : 0 < (w victim).absorbRatio type,
      w.taken victim type incoming + (w.hit victim type incoming).manaPaid = incoming ↔
        if (w victim).vitals.mana - (w victim).absorbed type incoming ≤ (w victim).vitals.maxMana then
          w.taken victim type incoming = w.shielded victim type incoming
        else w.taken victim type incoming + ((w victim).vitals.mana - (w victim).vitals.maxMana) = incoming := by
    intro hratio
    have habsorbed := absorbed_le (w victim) type incoming
    rw [hit_manaPaid hratio, shielded, if_pos hratio]
    unfold settled
    split_ifs <;> omega
  constructor
  · intro h
    refine ⟨hhealth.mp h.reported, fun hratio => (hshield hratio).mp ?_⟩
    have hlost : w.taken victim type incoming = (w.hit victim type incoming).healthLost := h.reported
    rw [hlost]
    exact h.shield hratio
  · intro h
    have hreported := hhealth.mpr h.health
    refine ⟨hreported, fun hratio => ?_⟩
    rw [← hreported]
    exact (hshield hratio).mpr (h.shield hratio)

theorem hits_hit (victim : Nat) (calls : List (DamageType × Int)) : ∀ (w : Fight), ∀ r ∈ hits victim calls w,
    r = r.before.hit r.victim r.type r.incoming := by
  induction calls with
  | nil => exact fun _ _ hr => absurd hr List.not_mem_nil
  | cons call calls ih =>
    intro w r hr
    rcases List.mem_cons.mp hr with rfl | hr
    · rfl
    · exact ih _ r hr

/-- Every call within `DealDamage` is one. -/
theorem dealDamage_hit {W : HitWorld} {attacker : Nat} {c : DamageCall} : ∀ r ∈ w.dealDamage W victim attacker c,
    r = r.before.hit r.victim r.type r.incoming := by
  intro r hr
  unfold dealDamage at hr
  dsimp only at hr
  split at hr
  · rw [List.mem_singleton.mp hr]
    rfl
  · rcases List.mem_cons.mp hr with rfl | hr
    · rfl
    · exact hits_hit _ _ _ r hr

theorem dealDamage_right_iff {W : HitWorld} {attacker : Nat} {c : DamageCall} :
    (∀ r ∈ w.dealDamage W victim attacker c, r.Right) ↔ ∀ r ∈ w.dealDamage W victim attacker c, r.Covered := by
  refine forall₂_congr fun r hr => ?_
  rw [dealDamage_hit r hr]
  exact hit_right_iff

end Fight

/-! ## The regeneration -/

namespace RegenUnit

variable {u : RegenUnit} {t : Nat}

theorem regenFor_right_iff {et : Nat} :
    u.Right (u.regenFor et t) ↔ (300 ≤ et → u.vitals.health ≠ 0 → u.vitals.health = u.vitals.mana) := by
  unfold regenFor
  dsimp only
  by_cases hdue : 300 ≤ et
  · rw [if_pos hdue]
    by_cases hhealth : u.vitals.health ≠ 0
    · rw [if_pos hhealth]
      generalize u.regenMana _ _ = v
      by_cases hchange : u.vitals.mana ≠ v.health ∨ u.vitals.health ≠ v.mana
      · rw [if_pos hchange]
        by_cases hannounces : announces v (u.m_nRegenHP + (v.health - u.vitals.mana)) (u.m_fRegenMP + (v.mana - u.vitals.health)) = true
        · rw [if_pos hannounces]
          simp only [Right, RegenMessage.mk.injEq]
          constructor
          · rintro ⟨⟨h, _⟩, _⟩ _ _
            omega
          · intro h
            have := h hdue hhealth
            refine ⟨⟨?_, ?_, trivial, trivial⟩, trivial, trivial⟩ <;> omega
        · rw [if_neg hannounces]
          simp only [Right]
          constructor
          · intro h _ _
            omega
          · intro h
            have := h hdue hhealth
            omega
      · rw [if_neg hchange]
        simp only [Right]
        constructor
        · intro h _ _
          omega
        · intro h
          have := h hdue hhealth
          omega
    · rw [if_neg hhealth]
      refine iff_of_true ?_ fun _ h => absurd h hhealth
      simp [Right]
  · rw [if_neg hdue]
    refine iff_of_true ?_ fun h => absurd h hdue
    simp [Right]

theorem regenHealth_inRange (h : u.vitals.InRange) (et : Nat) : (u.regenHealth et).InRange := by
  unfold regenHealth
  dsimp only
  split_ifs
  · exact h.setHealth _
  · exact h

theorem regenMana_inRange {v : Vitals} (h : v.InRange) (et : Nat) : (u.regenMana v et).InRange := by
  unfold regenMana
  dsimp only
  split_ifs
  · exact h.setMana _
  · exact h

theorem regenFor_inRange (h : u.vitals.InRange) (et t : Nat) : (u.regenFor et t).1.vitals.InRange := by
  have hv : (u.regenMana (u.regenHealth et) et).InRange := regenMana_inRange (regenHealth_inRange h et) et
  unfold regenFor
  dsimp only
  split_ifs
  · exact hv
  · exact hv
  · exact hv
  · exact h
  · exact h

end RegenUnit

/-! ## Results -/

end RZEmulator.Chihiro
