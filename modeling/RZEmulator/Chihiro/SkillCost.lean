import RZEmulator.Chihiro.DropGroup
import RZEmulator.Chihiro.Vitals

/-!
# The costs of a skill

What `Skill::Cast` checks of the costs of a skill and what `Skill::ProcSkill` takes when it fires. Floats are rational numbers.
Between the two anything may happen to the caster, and a skill of several hits fires more than once. `costRight` says which steps keep
the payment as it is to be: those in which the costs have not changed, and can still be paid.
-/

namespace RZEmulator.Chihiro

open Lib DropTables

/-- What `SkillBase` says of the costs. `aura` stands for the two toggled effects. -/
structure SkillCosts where
  aura : Bool
  m_bMultiple : Bool
  cost_hp : Int
  cost_hp_per_skl : Int
  cost_hp_per : ℚ
  cost_hp_per_skl_per : ℚ
  cost_mp : Int
  cost_mp_per_skl : Int
  cost_mp_per_enhance : Int
  cost_mp_per : ℚ
  cost_mp_per_skl_per : ℚ
  cost_energy : ℚ
  cost_energy_per_skl : ℚ
  cost_exp : Int
  cost_exp_per_enhance : Int
  cost_jp : Int
  cost_jp_per_enhance : Int
  need_hp : Int
  need_mp : Int
  need_level : Int

/-- The caster: `activeAura` says that the skill is one of its active auras, `manaCostRatio` and `enhance` are those for the skill. -/
structure CostCaster where
  vitals : Vitals
  exp : Int
  jp : Int
  energy : Int
  energyStart : Int
  level : Int
  activeAura : Bool
  manaCostRatio : ℚ
  enhance : Int

/-- The amounts of a payment. -/
structure Costs where
  hp : Int
  mp : Int
  exp : Int
  jp : Int
  energy : Int
  deriving DecidableEq

inductive CostError
  | TS_RESULT_NOT_ENOUGH_HP
  | TS_RESULT_NOT_ENOUGH_MP
  | TS_RESULT_NOT_ACTABLE
  | TS_RESULT_NOT_ENOUGH_ENERGY
  | TS_RESULT_NOT_ENOUGH_LEVEL
  | TS_RESULT_NOT_ENOUGH_JP
  | TS_RESULT_NOT_ENOUGH_EXP

namespace SkillCosts

variable (C : SkillCosts)

def getCostHP (skill_lv : Int) : Int := C.cost_hp + C.cost_hp_per_skl * skill_lv

def getCostHPPercent (skill_lv : Int) : ℚ := C.cost_hp_per + C.cost_hp_per_skl_per * skill_lv

def getCostMP (skill_lv enhance : Int) : Int := C.cost_mp + C.cost_mp_per_skl * skill_lv + C.cost_mp_per_enhance * enhance

def getCostMPPercent (skill_lv : Int) : ℚ := C.cost_mp_per + C.cost_mp_per_skl_per * skill_lv

def getCostEnergy (skill_lv : Int) : Int := truncated (C.cost_energy_per_skl * skill_lv + C.cost_energy)

def getCostEXP (enhance : Int) : Int := C.cost_exp + C.cost_exp_per_enhance * enhance

def getCostJP (enhance : Int) : Int := C.cost_jp + C.cost_jp_per_enhance * enhance

/-- The costs for a caster; the percentage of the mana cost is one of `mana`. -/
def costs (level : Int) (u : CostCaster) (mana : Int) : Costs where
  hp := truncated (C.getCostHP level + C.getCostHPPercent level * u.vitals.maxHealth / 100)
  mp := if C.aura && u.activeAura then 0
    else truncated ((C.getCostMP level u.enhance + C.getCostMPPercent level * mana / 100) * u.manaCostRatio)
  exp := C.getCostEXP u.enhance
  jp := C.getCostJP u.enhance
  energy := C.getCostEnergy level

/-- The costs in `Cast`, which has the percentage of the mana that there is. -/
def castCosts (level : Int) (u : CostCaster) : Costs := C.costs level u u.vitals.mana

/-- The costs in `ProcSkill`, which has that of the maximum. -/
def fireCosts (level : Int) (u : CostCaster) : Costs := C.costs level u u.vitals.maxMana

def percentage (value : Int) (maximum : Nat) : Int := if 0 < maximum then (value * 100).tdiv maximum else 0

/-- The checks of `Cast`. -/
def castError (level : Int) (u : CostCaster) : Option CostError :=
  let c := C.castCosts level u
  let nCurrentHPPercentage := percentage u.vitals.health u.vitals.maxHealth
  if 0 < C.need_hp ∧ nCurrentHPPercentage < C.need_hp then some .TS_RESULT_NOT_ENOUGH_HP
  else if C.need_hp < 0 ∧ -C.need_hp < nCurrentHPPercentage then some .TS_RESULT_NOT_ACTABLE
  else if percentage u.vitals.mana u.vitals.maxMana < C.need_mp then some .TS_RESULT_NOT_ENOUGH_MP
  else if u.vitals.health - 1 < c.hp then some .TS_RESULT_NOT_ENOUGH_HP
  else if u.vitals.mana < c.mp then some .TS_RESULT_NOT_ENOUGH_MP
  else if u.energy < c.energy then some .TS_RESULT_NOT_ENOUGH_ENERGY
  else if u.level < C.need_level then some .TS_RESULT_NOT_ENOUGH_LEVEL
  else if u.jp < c.jp then some .TS_RESULT_NOT_ENOUGH_JP
  else if 0 < c.exp ∧ u.exp < c.exp then some .TS_RESULT_NOT_ENOUGH_EXP
  else none

end SkillCosts

namespace CostCaster

/-- `Unit::RemoveEnergy`. -/
def removeEnergy (u : CostCaster) (nEnergy : Int) : CostCaster :=
  let energy := if u.energy < nEnergy then u.energy else nEnergy
  if 1 ≤ energy then
    let start := u.energyStart + energy
    { u with energy := u.energy - energy, energyStart := if 10 ≤ start then start - 10 else start }
  else u

/-- `Unit::SetEXP` and `SetJP`. -/
def setEXP (u : CostCaster) (exp : Int) : CostCaster := { u with exp := exp }

def setJP (u : CostCaster) (jp : Int) : CostCaster := { u with jp := if jp < 0 then 0 else jp }

/-- The deduction in `ProcSkill`. -/
def pay (u : CostCaster) (c : Costs) : CostCaster :=
  let u := if 0 < c.hp then { u with vitals := u.vitals.setHealth (u.vitals.health - c.hp) } else u
  let u := if 0 < c.mp then { u with vitals := u.vitals.setMana (u.vitals.mana - c.mp) } else u
  let u := if 0 < c.exp then u.setEXP (u.exp - c.exp) else u
  let u := if 0 < c.jp then u.setJP (u.jp - c.jp) else u
  u.removeEnergy c.energy

end CostCaster

/-! ## Runs -/

inductive CostStatus
  | idle
  | cast
  | fire
  | complete
  deriving DecidableEq

/-- A payment: the caster before it, the amounts, and the caster after it. -/
structure CostPayment where
  before : CostCaster
  asked : Costs
  after : CostCaster

/-- A caster with a skill. `checked` are the costs of the last `Cast`, `payments` what has been paid since then. -/
structure CostRun where
  caster : CostCaster
  m_Status : CostStatus
  m_nRequestedSkillLevel : Int
  m_nCurrentFire : Int
  m_nTotalFire : Int
  checked : Costs
  payments : List CostPayment

/-- What happens: a `Cast` that succeeds, something else that happens to the caster, a call of `ProcSkill` that fires, after which the
function of the effect has left the two counters, the end of the skill and a cancel. -/
inductive CostEvent
  | cast (level : Int)
  | other (u : CostCaster)
  | fire (current total : Int)
  | complete
  | cancel

namespace SkillCosts

variable (C : SkillCosts)

/-- `Skill::Init`. -/
def initRun (s : CostRun) : CostRun := { s with m_Status := .idle, m_nRequestedSkillLevel := 0, m_nCurrentFire := 0, m_nTotalFire := 0 }

/-- The end of `Cast`; a skill costs nothing when it is cast (`SKILL_CAST_COST`). -/
def cast (s : CostRun) (level : Int) : CostRun :=
  { s with
    caster := { s.caster with vitals := s.caster.vitals.setMana (s.caster.vitals.mana - (C.castCosts level s.caster).mp * 0) }
    m_Status := .cast, m_nRequestedSkillLevel := level, checked := C.castCosts level s.caster, payments := [] }

def paysNow (s : CostRun) : Bool := !C.m_bMultiple || s.m_nCurrentFire == 0

/-- The costs in the part of `ProcSkill` for `SS_FIRE`. -/
def payCosts (s : CostRun) : CostRun :=
  if C.paysNow s then
    let c := C.fireCosts s.m_nRequestedSkillLevel s.caster
    { s with caster := s.caster.pay c, payments := ⟨s.caster, c, s.caster.pay c⟩ :: s.payments }
  else s

/-- That part, when the function of the effect leaves the two counters. -/
def procFire (s : CostRun) (current total : Int) : CostRun :=
  { C.payCosts s with
    m_nCurrentFire := current, m_nTotalFire := total,
    m_Status := if !C.m_bMultiple || current == total then .complete else .fire }

/-- The functions of the effects of several hits return before they touch the counters, or count the hit. -/
def Counts (s : CostRun) (current total : Int) : Prop :=
  C.m_bMultiple = true → current = s.m_nCurrentFire ∧ total = s.m_nTotalFire ∨ 0 < current

inductive CostStep : CostRun → CostEvent → CostRun → Prop
  | cast {s : CostRun} (level : Int) :
      s.m_Status = .idle → C.castError level s.caster = none → CostStep s (.cast level) (C.cast s level)
  | other {s : CostRun} (u : CostCaster) : CostStep s (.other u) { s with caster := u }
  | fire {s : CostRun} (current total : Int) :
      s.m_Status = .cast ∨ s.m_Status = .fire → C.Counts s current total →
      CostStep s (.fire current total) (C.procFire s current total)
  | complete {s : CostRun} : s.m_Status = .complete → CostStep s .complete (initRun s)
  | cancel {s : CostRun} : CostStep s .cancel (initRun s)

def costSystem : System CostRun CostEvent where
  Init s := s.m_Status = .idle ∧ s.m_nCurrentFire = 0 ∧ s.m_nTotalFire = 0 ∧ s.payments = []
  Step := C.CostStep

end SkillCosts

/-! ## What is claimed -/

/-- A cost that is not positive is none. -/
def Costs.amounts (c : Costs) : Costs := ⟨max 0 c.hp, max 0 c.mp, max 0 c.exp, max 0 c.jp, max 0 c.energy⟩

/-- What a payment has taken. -/
def CostPayment.taken (p : CostPayment) : Costs :=
  ⟨p.before.vitals.health - p.after.vitals.health, p.before.vitals.mana - p.after.vitals.mana, p.before.exp - p.after.exp,
    p.before.jp - p.after.jp, p.before.energy - p.after.energy⟩

/-- A payment is of the amounts that have been checked, and in full; no balance becomes negative, and what is left of the health is
not 0. -/
structure PaymentRight (checked : Costs) (p : CostPayment) : Prop where
  same : p.asked.amounts = checked.amounts
  full : p.taken = p.asked.amounts
  mana_nonneg : 0 ≤ p.before.vitals.mana → 0 ≤ p.after.vitals.mana
  exp_nonneg : 0 ≤ p.before.exp → 0 ≤ p.after.exp
  jp_nonneg : 0 ≤ p.before.jp → 0 ≤ p.after.jp
  energy_nonneg : 0 ≤ p.before.energy → 0 ≤ p.after.energy
  alive : 0 < p.before.vitals.health → 0 < p.after.vitals.health

/-- A skill is paid once, when it fires for the first time. -/
structure CostRight (s : CostRun) : Prop where
  right : ∀ p ∈ s.payments, PaymentRight s.checked p
  once : s.payments.length ≤ 1
  unpaid : s.m_Status = .cast → s.payments = []
  paid : s.m_Status = .fire ∨ s.m_Status = .complete → s.payments.length = 1

/-! ## The condition -/

/-- The caster has the costs `c`, and health and mana that are within their maxima afterwards. -/
structure Covered (c : Costs) (u : CostCaster) : Prop where
  hp : 0 < c.hp → c.hp < u.vitals.health ∧ u.vitals.health - c.hp ≤ u.vitals.maxHealth
  mp : 0 < c.mp → c.mp ≤ u.vitals.mana ∧ u.vitals.mana - c.mp ≤ u.vitals.maxMana
  exp : 0 < c.exp → 0 ≤ u.exp → c.exp ≤ u.exp
  jp : 0 < c.jp → c.jp ≤ u.jp
  energy : 0 < c.energy → c.energy ≤ u.energy

/-- A call that pays finds the costs as they have been checked, and covered. -/
structure FireCareful (C : SkillCosts) (s : CostRun) : Prop where
  same : (C.fireCosts s.m_nRequestedSkillLevel s.caster).amounts = s.checked.amounts
  covered : Covered (C.fireCosts s.m_nRequestedSkillLevel s.caster) s.caster

def CostCareful (C : SkillCosts) (_ : History CostRun CostEvent) (s : CostRun) (e : CostEvent) : Prop :=
  match e with
  | .fire _ _ => C.paysNow s = true → FireCareful C s
  | _ => True

/-! ## One payment -/

namespace CostCaster

theorem removeEnergy_energy (u : CostCaster) (nEnergy : Int) :
    (u.removeEnergy nEnergy).energy = u.energy - max 0 (min u.energy nEnergy) := by
  unfold removeEnergy
  dsimp only
  split_ifs <;> (try dsimp only) <;> omega

@[simp]
theorem removeEnergy_vitals (u : CostCaster) (nEnergy : Int) : (u.removeEnergy nEnergy).vitals = u.vitals := by
  unfold removeEnergy
  dsimp only
  split_ifs <;> rfl

@[simp]
theorem removeEnergy_exp (u : CostCaster) (nEnergy : Int) : (u.removeEnergy nEnergy).exp = u.exp := by
  unfold removeEnergy
  dsimp only
  split_ifs <;> rfl

@[simp]
theorem removeEnergy_jp (u : CostCaster) (nEnergy : Int) : (u.removeEnergy nEnergy).jp = u.jp := by
  unfold removeEnergy
  dsimp only
  split_ifs <;> rfl

variable (u : CostCaster) (c : Costs)

theorem pay_health : (u.pay c).vitals.health =
    if 0 < c.hp then settled (u.vitals.health - c.hp) u.vitals.maxHealth else u.vitals.health := by
  unfold pay setEXP setJP
  split_ifs <;> simp

theorem pay_mana : (u.pay c).vitals.mana =
    if 0 < c.mp then settled (u.vitals.mana - c.mp) u.vitals.maxMana else u.vitals.mana := by
  unfold pay setEXP setJP
  split_ifs <;> simp

theorem pay_exp : (u.pay c).exp = if 0 < c.exp then u.exp - c.exp else u.exp := by
  unfold pay setEXP setJP
  split_ifs <;> simp

theorem pay_jp : (u.pay c).jp = if 0 < c.jp then max 0 (u.jp - c.jp) else u.jp := by
  unfold pay setEXP setJP
  split_ifs <;> simp <;> omega

theorem pay_energy : (u.pay c).energy = u.energy - max 0 (min u.energy c.energy) := by
  unfold pay setEXP setJP
  split_ifs <;> simp only [removeEnergy_energy]

end CostCaster

theorem taken_iff {value cost taken : Int} {maximum : Nat}
    (ht : taken = if 0 < cost then settled (value - cost) maximum else value) :
    value - taken = max 0 cost ↔ (0 < cost → cost ≤ value ∧ value - cost ≤ maximum) := by
  subst ht
  by_cases hc : 0 < cost
  · have hsettled : value - settled (value - cost) maximum = max 0 cost ↔ settled (value - cost) maximum = value - cost := by omega
    rw [if_pos hc, hsettled, settled_eq_iff]
    constructor
    · intro h _
      omega
    · intro h
      have := h hc
      omega
  · rw [if_neg hc]
    constructor
    · exact fun _ h => absurd h hc
    · intro _
      omega

section

variable {checked c : Costs} {u : CostCaster}

theorem PaymentRight.covered (h : PaymentRight checked ⟨u, c, u.pay c⟩) : Covered c u := by
  have hfull := h.full
  simp only [CostPayment.taken, Costs.amounts, Costs.mk.injEq] at hfull
  obtain ⟨h1, h2, h3, h4, h5⟩ := hfull
  refine ⟨?_, (taken_iff (u.pay_mana c)).mp h2, ?_, ?_, ?_⟩
  · intro hc
    have hle := (taken_iff (u.pay_health c)).mp h1 hc
    have halive := h.alive (by dsimp only; omega)
    dsimp only at halive
    omega
  · intro hc hpos
    have := h.exp_nonneg hpos
    dsimp only at this
    rw [u.pay_exp, if_pos hc] at this
    omega
  · intro hc
    rw [u.pay_jp, if_pos hc] at h4
    omega
  · intro hc
    rw [u.pay_energy] at h5
    omega

theorem Covered.full (h : Covered c u) : CostPayment.taken ⟨u, c, u.pay c⟩ = c.amounts := by
  have h1 := (taken_iff (u.pay_health c)).mpr fun hc => ⟨(h.hp hc).1.le, (h.hp hc).2⟩
  have h2 := (taken_iff (u.pay_mana c)).mpr h.mp
  simp only [CostPayment.taken, Costs.amounts, Costs.mk.injEq]
  refine ⟨h1, h2, ?_, ?_, ?_⟩
  · rw [u.pay_exp]
    split_ifs <;> omega
  · rw [u.pay_jp]
    split_ifs with hc
    · have := h.jp hc
      omega
    · omega
  · rw [u.pay_energy]
    by_cases hc : 0 < c.energy
    · have := h.energy hc
      omega
    · omega

theorem Covered.paymentRight (h : Covered c u) (hsame : c.amounts = checked.amounts) : PaymentRight checked ⟨u, c, u.pay c⟩ := by
  have hfull := h.full
  simp only [CostPayment.taken, Costs.amounts, Costs.mk.injEq] at hfull
  refine ⟨hsame, h.full, ?_, ?_, ?_, ?_, ?_⟩ <;> dsimp only <;> intro hpos
  · by_cases hc : 0 < c.mp
    · have := h.mp hc
      omega
    · omega
  · rw [u.pay_exp]
    split_ifs with hc
    · have := h.exp hc hpos
      omega
    · exact hpos
  · rw [u.pay_jp]
    split_ifs <;> omega
  · rw [u.pay_energy]
    omega
  · by_cases hc : 0 < c.hp
    · have := h.hp hc
      omega
    · omega

/-- A payment is right if and only if its amounts are those that have been checked, and covered. -/
theorem paymentRight_iff : PaymentRight checked ⟨u, c, u.pay c⟩ ↔ c.amounts = checked.amounts ∧ Covered c u :=
  ⟨fun h => ⟨h.same, h.covered⟩, fun h => h.2.paymentRight h.1⟩

end

/-! ## Runs of careful steps -/

/-- The counters while the skill is on its way. -/
structure CostInv (C : SkillCosts) (s : CostRun) : Prop extends CostRight s where
  fresh : s.m_Status = .idle ∨ s.m_Status = .cast → s.m_nCurrentFire = 0 ∧ s.m_nTotalFire = 0
  counting : s.m_Status = .fire → C.m_bMultiple = true ∧ 0 < s.m_nCurrentFire

namespace SkillCosts

variable {C : SkillCosts} {s : CostRun}

theorem CostInv.init (h : CostInv C s) : CostInv C (initRun s) where
  right := h.right
  once := h.once
  unpaid hs := by exact nomatch hs
  paid hs := by rcases hs with hs | hs <;> exact nomatch hs
  fresh _ := ⟨rfl, rfl⟩
  counting hs := by exact nomatch hs

theorem CostInv.cast (h : CostInv C s) (hidle : s.m_Status = .idle) (level : Int) : CostInv C (C.cast s level) where
  right _ hp := absurd hp List.not_mem_nil
  once := Nat.zero_le 1
  unpaid _ := rfl
  paid hs := by rcases hs with hs | hs <;> exact nomatch hs
  fresh _ := h.fresh (Or.inl hidle)
  counting hs := by exact nomatch hs

/-- The status after a call that fires. -/
theorem procFire_status (s : CostRun) (current total : Int) :
    (C.procFire s current total).m_Status = .complete ∨
      (C.procFire s current total).m_Status = .fire ∧ C.m_bMultiple = true ∧ current ≠ total := by
  unfold procFire
  dsimp only
  by_cases h : (!C.m_bMultiple || current == total) = true
  · rw [if_pos h]
    exact Or.inl rfl
  · rw [if_neg h]
    rw [Bool.not_eq_true, Bool.or_eq_false_iff, Bool.not_eq_false', beq_eq_false_iff_ne] at h
    exact Or.inr ⟨rfl, h⟩

/-- A call that fires, when what is paid then is right. -/
theorem CostInv.procFire {current total : Int} (h : CostInv C s) (hs : s.m_Status = .cast ∨ s.m_Status = .fire)
    (hcounts : C.Counts s current total) (hcareful : C.paysNow s = true → FireCareful C s) : CostInv C (C.procFire s current total) := by
  have hstatus := @procFire_status C s current total
  have hpayments : (C.payCosts s).payments.length = 1 ∧ ∀ p ∈ (C.payCosts s).payments, PaymentRight s.checked p := by
    unfold payCosts
    rcases hs with hcast | hfire
    · have hpays : C.paysNow s = true := by
        unfold paysNow
        rw [(h.fresh (Or.inr hcast)).1]
        simp
      rw [if_pos hpays, h.unpaid hcast]
      refine ⟨rfl, ?_⟩
      intro p hp
      obtain rfl := List.mem_singleton.mp hp
      exact paymentRight_iff.mpr ⟨(hcareful hpays).same, (hcareful hpays).covered⟩
    · obtain ⟨hmultiple, hpos⟩ := h.counting hfire
      have hpays : C.paysNow s ≠ true := by
        have hne : s.m_nCurrentFire ≠ 0 := hpos.ne'
        simp [paysNow, hmultiple, hne]
      rw [if_neg hpays]
      exact ⟨h.paid (Or.inl hfire), h.right⟩
  have hchecked : (C.payCosts s).checked = s.checked := by
    unfold payCosts
    split <;> rfl
  refine ⟨⟨?_, hpayments.1.le, ?_, fun _ => hpayments.1⟩, ?_, ?_⟩
  · show ∀ p ∈ (C.payCosts s).payments, PaymentRight (C.payCosts s).checked p
    rw [hchecked]
    exact hpayments.2
  · intro hcast
    rcases hstatus with hcomplete | ⟨hfire, _⟩
    · exact nomatch hcast.symm.trans hcomplete
    · exact nomatch hcast.symm.trans hfire
  · intro hfresh
    rcases hstatus with hcomplete | ⟨hfire, _⟩
    · rw [hcomplete] at hfresh
      rcases hfresh with hfresh | hfresh <;> exact nomatch hfresh
    · rw [hfire] at hfresh
      rcases hfresh with hfresh | hfresh <;> exact nomatch hfresh
  · intro hfire'
    rcases hstatus with hcomplete | ⟨_, hmultiple, hne⟩
    · exact nomatch hfire'.symm.trans hcomplete
    · refine ⟨hmultiple, ?_⟩
      show 0 < current
      rcases hcounts hmultiple with ⟨rfl, rfl⟩ | hpos
      · rcases hs with hcast | hfire
        · obtain ⟨hcurrent, htotal⟩ := h.fresh (Or.inr hcast)
          exact absurd (hcurrent.trans htotal.symm) hne
        · exact (h.counting hfire).2
      · exact hpos

theorem CostInv.step {e : CostEvent} {s' : CostRun} (h : CostInv C s) (hstep : C.CostStep s e s')
    (hcareful : CostCareful C [] s e) : CostInv C s' := by
  cases hstep with
  | cast level hidle _ => exact CostInv.cast h hidle level
  | other u => exact { h with }
  | fire current total hs hcounts => exact CostInv.procFire h hs hcounts hcareful
  | complete _ => exact CostInv.init h
  | cancel => exact CostInv.init h

/-- A skill that costs `mp` and `per` percent of the mana. -/
def manaSkill (mp : Int) (per : ℚ) : SkillCosts where
  aura := false
  m_bMultiple := false
  cost_hp := 0
  cost_hp_per_skl := 0
  cost_hp_per := 0
  cost_hp_per_skl_per := 0
  cost_mp := mp
  cost_mp_per_skl := 0
  cost_mp_per_enhance := 0
  cost_mp_per := per
  cost_mp_per_skl_per := 0
  cost_energy := 0
  cost_energy_per_skl := 0
  cost_exp := 0
  cost_exp_per_enhance := 0
  cost_jp := 0
  cost_jp_per_enhance := 0
  need_hp := 0
  need_mp := 0
  need_level := 0

/-- A caster with 10 of 100 mana. -/
def manaCaster : CostCaster := ⟨⟨100, 100, 10, 100⟩, 0, 0, 0, 0, 1, false, 1, 0⟩

def manaRun : CostRun := ⟨manaCaster, .idle, 0, 0, 0, ⟨0, 0, 0, 0, 0⟩, []⟩

theorem manaRun_init (C : SkillCosts) : C.costSystem.Init manaRun := ⟨rfl, rfl, rfl, rfl⟩

end SkillCosts

end RZEmulator.Chihiro
