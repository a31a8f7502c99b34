import RZEmulator.Lib.Run
import RZEmulator.Chihiro.DropGroup

/-!
# The upkeep of auras

`Skill::ProcAura` and the loop of `Unit::OnUpdate` over the active auras, with `ToggleAura`. Times are ticks of 10 ms, floats are
rational numbers, and what the states of an aura do to the mana is given. `auraRight` says which turns of the loop keep the
upkeep as it is to be: those in which a charge is not too early, and takes all the mana there is if it is announced.
-/

namespace RZEmulator.Chihiro

open Lib DropTables

/-- 7.5 seconds. -/
def UPKEEP_INTERVAL : Nat := 750

/-- A mana and its maximum, which `SetMana` keeps in order. -/
structure Mana where
  mana : Int
  maxMana : Int
  nonneg : 0 ≤ mana
  le : mana ≤ maxMana

theorem clamp_range (mp : Int) {maxMana : Int} (hmax : 0 ≤ maxMana) :
    0 ≤ max 0 (min mp maxMana) ∧ max 0 (min mp maxMana) ≤ maxMana := by
  omega

/-- `Unit::SetMana`. -/
def Mana.setMana (m : Mana) (mp : Int) : Mana where
  mana := max 0 (min mp m.maxMana)
  maxMana := m.maxMana
  nonneg := (clamp_range mp (m.nonneg.trans m.le)).1
  le := (clamp_range mp (m.nonneg.trans m.le)).2

/-- A skill that is an aura, with its two timers. -/
structure AuraSkill where
  var0 : ℚ
  var1 : ℚ
  var2 : ℚ
  nToggleGroup : Int
  bToggleDifferential : Bool
  m_nAuraMPDecTime : Nat
  m_nAuraRefreshTime : Nat

/-- Mana that has been charged, and the change that has been announced. -/
structure AuraCharge where
  skill : Nat
  time : Nat
  amount : Int
  announced : Option Int
  deriving DecidableEq

/-- A call of `ProcAura`: the mana before it, the upkeep and the charge, if there was one. -/
structure AuraTurn where
  skill : Nat
  mana : Int
  fDecMP : ℚ
  charge : Option AuraCharge

/-- The skills are known by their addresses. The charges, the latest first, and the turns of the last pass are recorded. -/
structure AuraOwner where
  mana : Mana
  skills : Nat → AuraSkill
  m_vAura : List (Nat × Int)
  clock : Nat
  charges : List AuraCharge := []
  turns : List AuraTurn := []

/-- What a call of `ProcAura` finds: if there is anything in the fire range, whether a summon has been found for a differential
aura, and what the new states make of the mana. -/
structure AuraWorld where
  nEnhance : Int
  inWorld : Bool
  anyInRange : Bool
  bApplySummon : Bool
  afterStates : Mana → Mana

namespace AuraOwner

/-- `fDecMP` of a skill at a level. -/
def fDecMP (s : AuraSkill) (level nEnhance : Int) : ℚ := s.var0 + s.var1 * level + s.var2 * nEnhance

def updSkill (u : AuraOwner) (skill : Nat) (f : AuraSkill → AuraSkill) : AuraOwner :=
  { u with skills := fun q => if q = skill then f (u.skills skill) else u.skills q }

/-- The upkeep is looked at. -/
def upkeepDue (u : AuraOwner) (skill t : Nat) : Bool := (u.skills skill).m_nAuraMPDecTime < (t + 7500) % 2 ^ 32

/-- The upkeep `c` is charged. -/
def pay (u : AuraOwner) (skill t : Nat) (c : ℚ) (inWorld : Bool) : AuraOwner × AuraCharge :=
  let m := u.mana.setMana (truncated (u.mana.mana - c))
  let charge := { skill, time := t, amount := u.mana.mana - m.mana,
                  announced := if inWorld then some (truncated (m.mana - c)) else none }
  ({ u.updSkill skill fun s => { s with m_nAuraMPDecTime := t } with mana := m, charges := charge :: u.charges }, charge)

/-- What `ProcAura` does after the upkeep, and what it returns. -/
def applyStates (u : AuraOwner) (skill : Nat) (w : AuraWorld) : Bool × AuraOwner :=
  if w.inWorld = false ∨ w.anyInRange = false then (true, u)
  else (!(u.skills skill).bToggleDifferential || w.bApplySummon, { u with mana := w.afterStates u.mana })

/-- `Skill::ProcAura` for a level, with the charge. -/
def procAura (u : AuraOwner) (skill : Nat) (level : Int) (w : AuraWorld) (t : Nat) : (Bool × AuraOwner) × Option AuraCharge :=
  if u.upkeepDue skill t = true then
    if (u.mana.mana : ℚ) < fDecMP (u.skills skill) level w.nEnhance then ((false, u), none)
    else
      let (u, charge) := u.pay skill t (fDecMP (u.skills skill) level w.nEnhance) w.inWorld
      (u.applyStates skill w, some charge)
  else (u.applyStates skill w, none)

def refreshDue (u : AuraOwner) (t skill : Nat) : Bool := ((u.skills skill).m_nAuraRefreshTime + 500) % 2 ^ 32 ≤ t

def setAuraRefreshTime (u : AuraOwner) (skill t : Nat) : AuraOwner :=
  u.updSkill skill fun s => { s with m_nAuraRefreshTime := t }

/-- The owner after the turn of an aura, of which `ok` is what `ProcAura` returned. -/
def afterTurn (u : AuraOwner) (skill t : Nat) (ok : Bool) : AuraOwner := if ok then u.setAuraRefreshTime skill t else u

/-- The loop of `OnUpdate` over the auras: those that stay, the turns that were taken and the owner. -/
def auraLoop (w : Nat → AuraWorld) (t : Nat) : List (Nat × Int) → AuraOwner → List (Nat × Int) × List AuraTurn × AuraOwner
  | [], u => ([], [], u)
  | a :: vAura, u =>
    if u.refreshDue t a.1 = true then
      let result := u.procAura a.1 a.2 (w a.1) t
      let rest := auraLoop w t vAura (result.1.2.afterTurn a.1 t result.1.1)
      (if result.1.1 then a :: rest.1 else rest.1,
        ⟨a.1, u.mana.mana, fDecMP (u.skills a.1) a.2 (w a.1).nEnhance, result.2⟩ :: rest.2.1, rest.2.2)
    else
      let rest := auraLoop w t vAura u
      (a :: rest.1, rest.2.1, rest.2.2)

/-- The auras of `OnUpdate` at the time `t`. -/
def onUpdate (u : AuraOwner) (w : Nat → AuraWorld) (t : Nat) : AuraOwner :=
  let (kept, turns, u') := auraLoop w t u.m_vAura u
  { u' with m_vAura := kept, turns, clock := t }

/-- The first aura of the same toggle group is replaced. -/
def replaceAura (u : AuraOwner) (skill : Nat) (level : Int) : List (Nat × Int) → List (Nat × Int)
  | [] => [(skill, level)]
  | a :: vAura =>
    if (u.skills a.1).nToggleGroup ≠ 0 ∧ (u.skills a.1).nToggleGroup = (u.skills skill).nToggleGroup then (skill, level) :: vAura
    else a :: replaceAura u skill level vAura

/-- `Unit::ToggleAura`. -/
def toggleAura (u : AuraOwner) (skill : Nat) (level : Int) : AuraOwner :=
  if skill ∈ u.m_vAura.map Prod.fst then { u with m_vAura := u.m_vAura.eraseP fun a => a.1 = skill }
  else { u with m_vAura := u.replaceAura skill level u.m_vAura }

/-- What happens to the owner: `OnUpdate`, an aura that is toggled, all auras removed, and whatever else changes the mana. -/
inductive AuraEvent
  | onUpdate (t : Nat) (w : Nat → AuraWorld)
  | toggleAura (skill : Nat) (level : Int)
  | removeAllAura
  | mana (m : Mana)

def handle (u : AuraOwner) : AuraEvent → Option AuraOwner
  | .onUpdate t w => if u.clock ≤ t ∧ t < 2 ^ 32 then some (u.onUpdate w t) else none
  | .toggleAura skill level => some (u.toggleAura skill level)
  | .removeAllAura => some { u with m_vAura := [] }
  | .mana m => some { u with mana := m }

/-- An owner that has had no aura yet. -/
def New (u : AuraOwner) : Prop := u.m_vAura = [] ∧ u.charges = []

def auraSystem : System AuraOwner AuraEvent := .ofFun New handle

/-! ## What is claimed -/

/-- The pass at the time `t` calls `ProcAura` once for each aura that is to be refreshed, in their order; it keeps the others, and
removes without a charge those that cannot be paid. -/
structure PassRight (u : AuraOwner) (t : Nat) (u' : AuraOwner) : Prop where
  processed : u'.turns.map AuraTurn.skill = (u.m_vAura.map Prod.fst).filter (u.refreshDue t)
  others : ∀ a ∈ u.m_vAura, u.refreshDue t a.1 = false → a ∈ u'.m_vAura
  kept : u'.m_vAura.Sublist u.m_vAura
  unpaid : ∀ turn ∈ u'.turns, (turn.mana : ℚ) < turn.fDecMP → turn.charge = none ∧ turn.skill ∉ u'.m_vAura.map Prod.fst

structure AuraRight (hist : History AuraOwner AuraEvent) (u : AuraOwner) : Prop where
  nonneg : 0 ≤ u.mana.mana
  spaced : u.charges.Pairwise fun later earlier => later.skill = earlier.skill → earlier.time + UPKEEP_INTERVAL ≤ later.time
  announced : ∀ charge ∈ u.charges, ∀ n, charge.announced = some n → n = -charge.amount
  passes : ∀ tr ∈ hist, ∀ t w, tr.event = .onUpdate t w → PassRight tr.before t tr.after

/-! ## The condition -/

/-- The upkeep of an aura that cannot be paid is looked at; and one that is charged has not been charged in the interval before,
and is all the mana if the owner is in the world. -/
def TurnCareful (u : AuraOwner) (skill : Nat) (level : Int) (w : AuraWorld) (t : Nat) : Prop :=
  if (u.mana.mana : ℚ) < fDecMP (u.skills skill) level w.nEnhance then u.upkeepDue skill t = true
  else u.upkeepDue skill t = true →
    (∀ charge ∈ u.charges, charge.skill = skill → charge.time + UPKEEP_INTERVAL ≤ t) ∧
      (w.inWorld = true → (u.mana.mana : ℚ) = fDecMP (u.skills skill) level w.nEnhance)

/-- Every turn of the loop meets the condition before it is taken. -/
def LoopCareful (w : Nat → AuraWorld) (t : Nat) : List (Nat × Int) → AuraOwner → Prop
  | [], _ => True
  | a :: vAura, u =>
    if u.refreshDue t a.1 = true then
      u.TurnCareful a.1 a.2 (w a.1) t ∧
        LoopCareful w t vAura ((u.procAura a.1 a.2 (w a.1) t).1.2.afterTurn a.1 t (u.procAura a.1 a.2 (w a.1) t).1.1)
    else LoopCareful w t vAura u

def Careful (u : AuraOwner) : AuraEvent → Prop
  | .onUpdate t w => LoopCareful w t u.m_vAura u
  | _ => True

/-! ## One turn -/

section

variable {u u' : AuraOwner} {skill t : Nat} {level : Int} {w : AuraWorld} {world : Nat → AuraWorld} {vAura : List (Nat × Int)}

/-- The charges are apart, and they are announced. -/
structure ChargesRight (u : AuraOwner) : Prop where
  spaced : u.charges.Pairwise fun later earlier => later.skill = earlier.skill → earlier.time + UPKEEP_INTERVAL ≤ later.time
  announced : ∀ charge ∈ u.charges, ∀ n, charge.announced = some n → n = -charge.amount

theorem ChargesRight.congr (hu : ChargesRight u) (h : u'.charges = u.charges) : ChargesRight u' := by
  refine ⟨?_, ?_⟩
  · rw [h]
    exact hu.spaced
  · rw [h]
    exact hu.announced

/-- A charge of all the mana leaves none, and it is what is announced. -/
theorem ChargesRight.pay (hu : ChargesRight u) {c : ℚ} {inWorld : Bool}
    (happart : ∀ charge ∈ u.charges, charge.skill = skill → charge.time + UPKEEP_INTERVAL ≤ t)
    (hall : inWorld = true → (u.mana.mana : ℚ) = c) : ChargesRight (u.pay skill t c inWorld).1 where
  spaced := List.pairwise_cons.mpr ⟨fun charge hcharge heq => happart charge hcharge heq.symm, hu.spaced⟩
  announced := by
    refine List.forall_mem_cons.mpr ⟨fun n hn => ?_, hu.announced⟩
    cases inWorld with
    | false => cases hn
    | true =>
      have hc := hall rfl
      subst hc
      have hzero : (u.mana.setMana (truncated ((u.mana.mana : ℚ) - u.mana.mana))).mana = 0 := by
        have hmax := u.mana.nonneg.trans u.mana.le
        have htrunc : truncated ((u.mana.mana : ℚ) - u.mana.mana) = 0 := by
          rw [sub_self]
          rfl
        rw [htrunc]
        show max 0 (min 0 u.mana.maxMana) = 0
        omega
      have hn : truncated (((u.mana.setMana (truncated ((u.mana.mana : ℚ) - u.mana.mana))).mana : ℚ) - u.mana.mana) = n :=
        Option.some.inj hn
      have hneg : (((0 : Int) : ℚ) - u.mana.mana) = ((-u.mana.mana : Int) : ℚ) := by push_cast; ring
      rw [hzero, hneg, truncated_intCast] at hn
      show n = -(u.mana.mana - (u.mana.setMana (truncated ((u.mana.mana : ℚ) - u.mana.mana))).mana)
      rw [hzero, ← hn]
      ring

theorem applyStates_skills (u : AuraOwner) (skill : Nat) (w : AuraWorld) :
    (u.applyStates skill w).2.skills = u.skills ∧ (u.applyStates skill w).2.charges = u.charges := by
  unfold applyStates
  split_ifs <;> exact ⟨rfl, rfl⟩

theorem pay_skills {q : Nat} (hq : q ≠ skill) (c : ℚ) (inWorld : Bool) : (u.pay skill t c inWorld).1.skills q = u.skills q :=
  if_neg hq

/-- `ProcAura` does not touch another skill. -/
theorem procAura_skills {q : Nat} (hq : q ≠ skill) : (u.procAura skill level w t).1.2.skills q = u.skills q := by
  unfold procAura
  split_ifs
  · rfl
  · dsimp only
    rw [(applyStates_skills _ skill w).1]
    exact pay_skills hq _ _
  · dsimp only
    rw [(applyStates_skills u skill w).1]

theorem ChargesRight.procAura (hu : ChargesRight u) (hcareful : u.TurnCareful skill level w t) :
    ChargesRight (u.procAura skill level w t).1.2 := by
  unfold AuraOwner.procAura
  split_ifs with hdue hless
  · exact hu
  · unfold TurnCareful at hcareful
    rw [if_neg hless] at hcareful
    obtain ⟨happart, hall⟩ := hcareful hdue
    exact (hu.pay happart hall).congr (applyStates_skills _ skill w).2
  · exact hu.congr (applyStates_skills u skill w).2

/-- An aura that cannot be paid is not charged, and it fails. -/
theorem procAura_unpaid (hcareful : u.TurnCareful skill level w t)
    (hless : (u.mana.mana : ℚ) < fDecMP (u.skills skill) level w.nEnhance) :
    (u.procAura skill level w t).1.1 = false ∧ (u.procAura skill level w t).2 = none := by
  unfold TurnCareful at hcareful
  rw [if_pos hless] at hcareful
  unfold procAura
  rw [if_pos hcareful, if_pos hless]
  exact ⟨rfl, rfl⟩

theorem turnCareful_of_all (hall : (u.mana.mana : ℚ) = fDecMP (u.skills skill) level w.nEnhance)
    (happart : ∀ charge ∈ u.charges, charge.skill = skill → charge.time + UPKEEP_INTERVAL ≤ t) : u.TurnCareful skill level w t := by
  unfold TurnCareful
  rw [if_neg fun hless => absurd hall (ne_of_lt hless)]
  exact fun _ => ⟨happart, fun _ => hall⟩

/-! ## One pass -/

/-- What the loop over `vAura` leaves. -/
structure LoopRight (u : AuraOwner) (t : Nat) (vAura : List (Nat × Int))
    (r : List (Nat × Int) × List AuraTurn × AuraOwner) : Prop where
  kept : r.1.Sublist vAura
  processed : r.2.1.map AuraTurn.skill = (vAura.map Prod.fst).filter (u.refreshDue t)
  others : ∀ a ∈ vAura, u.refreshDue t a.1 = false → a ∈ r.1
  unpaid : ∀ turn ∈ r.2.1, (turn.mana : ℚ) < turn.fDecMP → turn.charge = none ∧ turn.skill ∉ r.1.map Prod.fst
  charges : ChargesRight r.2.2

/-- What is to be refreshed does not depend on a skill that is not in the list. -/
theorem refreshDue_congr {q : Nat} (h : u'.skills q = u.skills q) : u'.refreshDue t q = u.refreshDue t q := by
  unfold refreshDue
  rw [h]

theorem LoopRight.from {r : List (Nat × Int) × List AuraTurn × AuraOwner} (hr : LoopRight u' t vAura r)
    (hskills : ∀ q ∈ vAura.map Prod.fst, u'.skills q = u.skills q) : LoopRight u t vAura r where
  kept := hr.kept
  processed := hr.processed.trans (List.filter_congr fun q hq => refreshDue_congr (hskills q hq))
  others a ha hdue := hr.others a ha ((refreshDue_congr (hskills a.1 (List.mem_map_of_mem ha))).trans hdue)
  unpaid := hr.unpaid
  charges := hr.charges

theorem LoopRight.mem {r : List (Nat × Int) × List AuraTurn × AuraOwner} (hr : LoopRight u t vAura r) {turn : AuraTurn}
    (hturn : turn ∈ r.2.1) : turn.skill ∈ vAura.map Prod.fst := by
  have hmem : turn.skill ∈ (vAura.map Prod.fst).filter (u.refreshDue t) := by
    rw [← hr.processed]
    exact List.mem_map_of_mem hturn
  exact (List.mem_filter.mp hmem).1

/-- An aura of another skill may be put before those that are left. -/
theorem LoopRight.unpaid_cons {r : List (Nat × Int) × List AuraTurn × AuraOwner} (hr : LoopRight u t vAura r)
    (hnew : skill ∉ vAura.map Prod.fst) : ∀ turn ∈ r.2.1, (turn.mana : ℚ) < turn.fDecMP →
      turn.charge = none ∧ turn.skill ∉ ((skill, level) :: r.1).map Prod.fst := by
  intro turn hturn hless
  obtain ⟨hnone, hgone⟩ := hr.unpaid turn hturn hless
  refine ⟨hnone, fun hmem => ?_⟩
  rcases List.mem_cons.mp hmem with heq | hmem
  · have hmem := hr.mem hturn
    rw [heq] at hmem
    exact hnew hmem
  · exact hgone hmem

/-- An aura that is not to be refreshed stays. -/
theorem LoopRight.skip {r : List (Nat × Int) × List AuraTurn × AuraOwner} (hr : LoopRight u t vAura r)
    (hdue : u.refreshDue t skill = false) (hnew : skill ∉ vAura.map Prod.fst) :
    LoopRight u t ((skill, level) :: vAura) ((skill, level) :: r.1, r.2.1, r.2.2) where
  kept := hr.kept.cons_cons _
  processed := by
    rw [List.map_cons, List.filter_cons, if_neg (by rw [hdue]; exact Bool.false_ne_true)]
    exact hr.processed
  others := List.forall_mem_cons.mpr ⟨fun _ => List.mem_cons_self, fun a ha h => List.mem_cons_of_mem _ (hr.others a ha h)⟩
  unpaid := hr.unpaid_cons hnew
  charges := hr.charges

/-- An aura that has had its turn and stays. -/
theorem LoopRight.stay {r : List (Nat × Int) × List AuraTurn × AuraOwner} (hr : LoopRight u t vAura r)
    (hdue : u.refreshDue t skill = true) (hnew : skill ∉ vAura.map Prod.fst) {turn : AuraTurn} (hskill : turn.skill = skill)
    (hpaid : ¬(turn.mana : ℚ) < turn.fDecMP) :
    LoopRight u t ((skill, level) :: vAura) ((skill, level) :: r.1, turn :: r.2.1, r.2.2) where
  kept := hr.kept.cons_cons _
  processed := by
    rw [List.map_cons, List.map_cons, List.filter_cons, if_pos hdue, hr.processed, hskill]
  others := List.forall_mem_cons.mpr ⟨fun _ => List.mem_cons_self, fun a ha h => List.mem_cons_of_mem _ (hr.others a ha h)⟩
  unpaid := List.forall_mem_cons.mpr ⟨fun hless => absurd hless hpaid, hr.unpaid_cons hnew⟩
  charges := hr.charges

/-- An aura that has had its turn and is removed. -/
theorem LoopRight.drop {r : List (Nat × Int) × List AuraTurn × AuraOwner} (hr : LoopRight u t vAura r)
    (hdue : u.refreshDue t skill = true) (hnew : skill ∉ vAura.map Prod.fst) {turn : AuraTurn} (hskill : turn.skill = skill)
    (hnone : (turn.mana : ℚ) < turn.fDecMP → turn.charge = none) :
    LoopRight u t ((skill, level) :: vAura) (r.1, turn :: r.2.1, r.2.2) where
  kept := hr.kept.cons _
  processed := by
    rw [List.map_cons, List.map_cons, List.filter_cons, if_pos hdue, hr.processed, hskill]
  others := by
    refine List.forall_mem_cons.mpr ⟨fun h => ?_, hr.others⟩
    rw [hdue] at h
    cases h
  unpaid := by
    refine List.forall_mem_cons.mpr ⟨fun hless => ⟨hnone hless, ?_⟩, hr.unpaid⟩
    rw [hskill]
    exact fun hmem => hnew ((hr.kept.map Prod.fst).subset hmem)
  charges := hr.charges

theorem auraLoop_right (hnodup : (vAura.map Prod.fst).Nodup) (hu : ChargesRight u) (hcareful : LoopCareful world t vAura u) :
    LoopRight u t vAura (auraLoop world t vAura u) := by
  induction vAura generalizing u with
  | nil =>
    unfold auraLoop
    exact ⟨.slnil, rfl, nofun, nofun, hu⟩
  | cons a vAura ih =>
    obtain ⟨skill, level⟩ := a
    rw [List.map_cons, List.nodup_cons] at hnodup
    obtain ⟨hnew, hnodup⟩ := hnodup
    have hne : ∀ q ∈ vAura.map Prod.fst, q ≠ skill := fun q hq heq => hnew (heq ▸ hq)
    unfold LoopCareful at hcareful
    unfold auraLoop
    split_ifs at hcareful ⊢ with hdue
    · obtain ⟨hturn, hrest⟩ := hcareful
      have hcharges := hu.procAura hturn
      have hskills : ∀ q ∈ vAura.map Prod.fst, (u.procAura skill level (world skill) t).1.2.skills q = u.skills q :=
        fun q hq => procAura_skills (hne q hq)
      have hunpaid := procAura_unpaid hturn
      dsimp only at hrest hskills hunpaid ⊢
      generalize u.procAura skill level (world skill) t = result at hrest hcharges hskills hunpaid
      obtain ⟨⟨ok, u'⟩, charge⟩ := result
      cases ok with
      | false =>
        have hloop := (ih hnodup hcharges hrest).from hskills
        exact hloop.drop hdue hnew rfl fun hless => (hunpaid hless).2
      | true =>
        have hcharges' : ChargesRight (u'.setAuraRefreshTime skill t) := hcharges.congr rfl
        have hloop := (ih hnodup hcharges' hrest).from (u := u) fun q hq => (if_neg (hne q hq)).trans (hskills q hq)
        exact hloop.stay hdue hnew rfl fun hless => Bool.noConfusion (hunpaid hless).1
    · exact (ih hnodup hu hcareful).skip (Bool.eq_false_iff.mpr hdue) hnew

theorem onUpdate_right (hnodup : (u.m_vAura.map Prod.fst).Nodup) (hu : ChargesRight u)
    (hcareful : LoopCareful world t u.m_vAura u) : PassRight u t (u.onUpdate world t) ∧ ChargesRight (u.onUpdate world t) := by
  have hloop := auraLoop_right hnodup hu hcareful
  exact ⟨⟨hloop.processed, hloop.others, hloop.kept, hloop.unpaid⟩, hloop.charges.congr rfl⟩

theorem replaceAura_nodup (hnodup : (vAura.map Prod.fst).Nodup) (hnew : skill ∉ vAura.map Prod.fst) :
    ((u.replaceAura skill level vAura).map Prod.fst).Nodup ∧
      ∀ q ∈ (u.replaceAura skill level vAura).map Prod.fst, q = skill ∨ q ∈ vAura.map Prod.fst := by
  induction vAura with
  | nil => exact ⟨List.pairwise_singleton _ _, fun q hq => .inl (List.mem_singleton.mp hq)⟩
  | cons a vAura ih =>
    rw [List.map_cons, List.nodup_cons] at hnodup
    rw [List.map_cons, List.mem_cons, not_or] at hnew
    obtain ⟨hnodup', hsub⟩ := ih hnodup.2 hnew.2
    unfold replaceAura
    split_ifs
    · refine ⟨List.nodup_cons.mpr ⟨hnew.2, hnodup.2⟩, fun q hq => ?_⟩
      exact (List.mem_cons.mp hq).imp_right (List.mem_cons_of_mem _)
    · refine ⟨List.nodup_cons.mpr ⟨fun hmem => ?_, hnodup'⟩, fun q hq => ?_⟩
      · exact (hsub a.1 hmem).elim (fun heq => hnew.1 heq.symm) hnodup.1
      · rcases List.mem_cons.mp hq with heq | hmem
        · exact .inr (heq ▸ List.mem_cons_self)
        · exact (hsub q hmem).imp_right (List.mem_cons_of_mem _)

theorem toggleAura_nodup (hnodup : (u.m_vAura.map Prod.fst).Nodup) : ((u.toggleAura skill level).m_vAura.map Prod.fst).Nodup := by
  unfold toggleAura
  split_ifs with hmem
  · exact hnodup.sublist (List.eraseP_sublist.map _)
  · exact (replaceAura_nodup hnodup hmem).1

end

/-! ## Runs -/

theorem step_onUpdate {u : AuraOwner} {t : Nat} (w : Nat → AuraWorld) (hclock : u.clock ≤ t) (ht : t < 2 ^ 32) :
    auraSystem.Step u (.onUpdate t w) (u.onUpdate w t) :=
  if_pos ⟨hclock, ht⟩

theorem ten_le_ten : (0 : Int) ≤ 10 ∧ (10 : Int) ≤ 10 := by decide

theorem two_le_ten : (0 : Int) ≤ 2 ∧ (2 : Int) ≤ 10 := by decide

def tenMana : Mana := ⟨10, 10, ten_le_ten.1, ten_le_ten.2⟩

def twoMana : Mana := ⟨2, 10, two_le_ten.1, two_le_ten.2⟩

/-- An aura with an upkeep of 2 mana. -/
def twoAura : AuraSkill := ⟨2, 0, 0, 0, false, 0, 0⟩

def auraOwner (m : Mana) : AuraOwner := { mana := m, skills := fun _ => twoAura, m_vAura := [], clock := 0 }

def auraWorld (_ : Nat) : AuraWorld := ⟨0, true, false, false, id⟩

end AuraOwner

end RZEmulator.Chihiro
