import RZEmulator.Lib.Run

/-!
# Health and mana

`Unit::SetHealth`, `SetMana`, `AddHealth` and `AddMana`.
-/

namespace RZEmulator.Chihiro

/-- Health and mana with their maxima. -/
structure Vitals where
  health : Int
  maxHealth : Nat
  mana : Int
  maxMana : Nat
  deriving DecidableEq

/-- What `SetHealth` and `SetMana` make of a value; the maximum is written by a call of the same function, which finds it in range. -/
def settled (value : Int) (maximum : Nat) : Int := if value > maximum then maximum else if value < 0 then 0 else value

theorem settled_nonneg (value : Int) (maximum : Nat) : 0 ≤ settled value maximum := by
  unfold settled
  split_ifs <;> omega

theorem settled_le (value : Int) (maximum : Nat) : settled value maximum ≤ maximum := by
  unfold settled
  split_ifs <;> omega

/-- The value is in range, or it is changed. -/
theorem settled_eq_iff {value : Int} {maximum : Nat} : settled value maximum = value ↔ 0 ≤ value ∧ value ≤ maximum := by
  unfold settled
  split_ifs <;> omega

namespace Vitals

def setHealth (v : Vitals) (hp : Int) : Vitals := { v with health := settled hp v.maxHealth }

def setMana (v : Vitals) (mp : Int) : Vitals := { v with mana := settled mp v.maxMana }

def addHealth (v : Vitals) (hp : Int) : Vitals := v.setHealth (v.health + hp)

def addMana (v : Vitals) (mp : Int) : Vitals := v.setMana (v.mana + mp)

def isDead (v : Vitals) : Bool := v.health = 0

/-- Health and mana are within their ranges. -/
structure InRange (v : Vitals) : Prop where
  health_nonneg : 0 ≤ v.health
  health_le : v.health ≤ v.maxHealth
  mana_nonneg : 0 ≤ v.mana
  mana_le : v.mana ≤ v.maxMana

variable {v : Vitals}

theorem InRange.setHealth (h : v.InRange) (hp : Int) : (v.setHealth hp).InRange :=
  { h with health_nonneg := settled_nonneg hp v.maxHealth, health_le := settled_le hp v.maxHealth }

theorem InRange.setMana (h : v.InRange) (mp : Int) : (v.setMana mp).InRange :=
  { h with mana_nonneg := settled_nonneg mp v.maxMana, mana_le := settled_le mp v.maxMana }

@[simp] theorem setHealth_health (hp : Int) : (v.setHealth hp).health = settled hp v.maxHealth := rfl
@[simp] theorem setHealth_mana (hp : Int) : (v.setHealth hp).mana = v.mana := rfl
@[simp] theorem setHealth_maxHealth (hp : Int) : (v.setHealth hp).maxHealth = v.maxHealth := rfl
@[simp] theorem setHealth_maxMana (hp : Int) : (v.setHealth hp).maxMana = v.maxMana := rfl
@[simp] theorem setMana_mana (mp : Int) : (v.setMana mp).mana = settled mp v.maxMana := rfl
@[simp] theorem setMana_health (mp : Int) : (v.setMana mp).health = v.health := rfl
@[simp] theorem setMana_maxHealth (mp : Int) : (v.setMana mp).maxHealth = v.maxHealth := rfl
@[simp] theorem setMana_maxMana (mp : Int) : (v.setMana mp).maxMana = v.maxMana := rfl

end Vitals

end RZEmulator.Chihiro
