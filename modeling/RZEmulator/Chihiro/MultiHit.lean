import RZEmulator.Lib.Run
import RZEmulator.Chihiro.DropGroup

/-!
# Skills of several hits

`Skill::ProcSkill` for the skills with `m_bMultiple`, and what the functions of their effects do to the counter of the hits, its
total and the fire time. Floats are rational numbers. `multiRight` says which calls of a run keep the number of hits, their times
and the end of the skill as they are to be.
-/

namespace RZEmulator.Chihiro

open Lib DropTables

/-- The effects of the skills with `m_bMultiple`. -/
inductive MultiEffect
  | EF_PHYSICAL_MULTIPLE_DAMAGE_T3
  | EF_MAGIC_MULTIPLE_DAMAGE_T1_OLD
  | EF_MAGIC_MULTIPLE_DAMAGE_T2_OLD
  | EF_MAGIC_MULTIPLE_DAMAGE_T1_DEAL_SUMMON_HP_OLD
  | EF_MAGIC_MULTIPLE_REGION_DAMAGE_OLD
  | EF_PHYSICAL_SINGLE_DAMAGE_WITHOUT_WEAPON_RUSH_KNOCK_BACK
  | EF_PHYSICAL_SINGLE_DAMAGE_RUSH_KNOCKBACK_OLD
  | EF_PHYSICAL_MULTIPLE_DAMAGE_TRIPLE_ATTACK_OLD
  | EF_MAGIC_MULTIPLE_DAMAGE
  | EF_MAGIC_MULTIPLE_DAMAGE_DEAL_SUMMON_HP
  | EF_MAGIC_MULTIPLE_REGION_DAMAGE
  | EF_PHYSICAL_SINGLE_DAMAGE_RUSH
  | EF_PHYSICAL_SINGLE_DAMAGE_RUSH_KNOCKBACK
  | EF_PHYSICAL_REALTIME_MULTIPLE_DAMAGE
  | EF_PHYSICAL_REALTIME_MULTIPLE_DAMAGE_KNOCKBACK
  | EF_PHYSICAL_REALTIME_MULTIPLE_REGION_DAMAGE

/-- `SkillStatus`; a skill of several hits is not in `SS_PRE_CAST`. -/
inductive MultiStatus
  | idle
  | cast
  | fire
  | complete
  deriving DecidableEq

/-- A skill with its variables, the requested level and what `ProcSkill` reads of its base. -/
structure MultiSkill where
  effect : MultiEffect
  var : Nat → ℚ
  level : Int
  commonDelay : Nat
  targetMisc : Bool
  isValidToCorpse : Bool

/-- A hit: the time of the call, and the fire time that it had to wait for. -/
structure MultiFire where
  time : Int
  due : Int

/-- The fields of a skill that has been cast. `casting` says that it is the `m_castingSkill` of its owner, `paid` how often its costs
and its cool time have been applied. The latest hit comes first. -/
structure MultiState where
  m_Status : MultiStatus
  m_hTarget : Nat
  m_nFireTime : Int
  m_nCurrentFire : Int
  m_nTotalFire : Int
  casting : Bool
  paid : Nat := 0
  fires : List MultiFire := []
  rushFailed : Bool := false

/-- The object of the handle `m_hTarget`. -/
structure RawTarget where
  isUnit : Bool
  far : Bool
  health : Nat
  inWorld : Bool

/-- What a call of `ProcSkill` finds: `rush` is the time that a rush takes, if it does not fail, and `cancels` says that what the effect
does cancels the skill of the owner. -/
structure MultiWorld where
  ownerHealth : Nat
  rawTarget : Option RawTarget
  rush : Option ℚ
  cancels : Bool

namespace MultiSkill

variable (C : MultiSkill)

/-- How an effect counts its hits. -/
inductive HitCount
  | counted (total : Int) (delay : Int → ℚ)
  | rush

/-- The counter of an effect that hits `var a + var b * level` times, with `var c` between the hits. -/
def countedBy (a b c : Nat) : HitCount := .counted (truncated (C.var a + C.var b * C.level)) fun _ => C.var c * 100

/-- The total and the delays in the function of each effect. -/
def hitCount : HitCount :=
  match C.effect with
  | .EF_PHYSICAL_MULTIPLE_DAMAGE_T3 => C.countedBy 2 3 4
  | .EF_MAGIC_MULTIPLE_DAMAGE_T1_OLD => C.countedBy 2 3 4
  | .EF_MAGIC_MULTIPLE_DAMAGE_T2_OLD => C.countedBy 2 3 4
  | .EF_MAGIC_MULTIPLE_DAMAGE_T1_DEAL_SUMMON_HP_OLD => C.countedBy 2 3 4
  | .EF_MAGIC_MULTIPLE_REGION_DAMAGE_OLD => C.countedBy 2 3 4
  | .EF_PHYSICAL_SINGLE_DAMAGE_WITHOUT_WEAPON_RUSH_KNOCK_BACK => .rush
  | .EF_PHYSICAL_SINGLE_DAMAGE_RUSH_KNOCKBACK_OLD => .rush
  -- the only one whose delay is not scaled, and grows
  | .EF_PHYSICAL_MULTIPLE_DAMAGE_TRIPLE_ATTACK_OLD =>
    .counted (min (truncated (((C.level - 1 : Int) : ℚ) / C.var 2 + 1)) 3) fun current => C.var 9 + current - 1
  | .EF_MAGIC_MULTIPLE_DAMAGE => C.countedBy 6 7 8
  | .EF_MAGIC_MULTIPLE_DAMAGE_DEAL_SUMMON_HP => C.countedBy 6 7 8
  | .EF_MAGIC_MULTIPLE_REGION_DAMAGE => C.countedBy 6 7 8
  | .EF_PHYSICAL_SINGLE_DAMAGE_RUSH => .rush
  | .EF_PHYSICAL_SINGLE_DAMAGE_RUSH_KNOCKBACK => .rush
  | .EF_PHYSICAL_REALTIME_MULTIPLE_DAMAGE => C.countedBy 4 5 6
  | .EF_PHYSICAL_REALTIME_MULTIPLE_DAMAGE_KNOCKBACK => C.countedBy 4 5 6
  | .EF_PHYSICAL_REALTIME_MULTIPLE_REGION_DAMAGE => C.countedBy 7 8 9

/-- The effects that `FireSkill` skips for the target type `TARGET_MISC`. -/
def skipsMisc : Bool :=
  match C.effect with
  | .EF_MAGIC_MULTIPLE_DAMAGE_T1_OLD | .EF_MAGIC_MULTIPLE_DAMAGE_T1_DEAL_SUMMON_HP_OLD | .EF_MAGIC_MULTIPLE_DAMAGE_T2_OLD
  | .EF_MAGIC_MULTIPLE_DAMAGE | .EF_MAGIC_MULTIPLE_DAMAGE_DEAL_SUMMON_HP => C.targetMisc
  | _ => false

/-- `Skill::Init`. -/
def init (s : MultiState) : MultiState :=
  { s with m_Status := .idle, m_hTarget := 0, m_nFireTime := 0, m_nCurrentFire := 0, m_nTotalFire := 0 }

/-- `Unit::CancelSkill`. -/
def cancel (s : MultiState) : MultiState := { init s with casting := false }

/-- The handle is that of a unit. -/
def unitTarget (w : MultiWorld) : Bool := w.rawTarget.any RawTarget.isUnit

/-- The function of the effect is called, and has a target. -/
def hasEffect (w : MultiWorld) : Bool := unitTarget w && !C.skipsMisc

/-- `Skill::FireSkill` without what the effect does to the target. -/
def fireSkill (s : MultiState) (w : MultiWorld) : MultiState :=
  if C.hasEffect w = false then s
  else match C.hitCount with
    | .counted total delay =>
      let s := if s.m_nCurrentFire = 0 then { s with m_nTotalFire := total, m_nCurrentFire := 1 }
        else { s with m_nCurrentFire := s.m_nCurrentFire + 1 }
      { s with m_nFireTime := truncated (s.m_nFireTime + delay s.m_nCurrentFire) }
    | .rush =>
      if s.m_nCurrentFire = 0 then
        match w.rush with
        | some d => { s with m_nCurrentFire := 1, m_nTotalFire := 2, m_nFireTime := truncated (s.m_nFireTime + d) }
        | none => { s with m_nCurrentFire := 2, m_nTotalFire := 2, rushFailed := true }
      else { s with m_nCurrentFire := s.m_nCurrentFire + 1 }

/-- A check of `ProcSkill` before the fire time cancels the skill. -/
def cancelsBefore (s : MultiState) (w : MultiWorld) : Bool :=
  w.ownerHealth == 0 ||
    match w.rawTarget with
    | none => s.m_hTarget != 0
    | some r => s.m_Status != .complete && r.isUnit && (r.far || (r.health == 0) != C.isValidToCorpse)

/-- The check after it does. -/
def cancelsAfter (s : MultiState) (w : MultiWorld) : Bool :=
  w.rawTarget.any fun r => s.m_Status != .complete && r.isUnit && !r.inWorld

/-- The part of `ProcSkill` for `SS_FIRE`. -/
def procFire (s : MultiState) (w : MultiWorld) (t : Int) : MultiState :=
  let due := s.m_nFireTime
  let s := if s.m_nCurrentFire = 0 then { s with paid := s.paid + 1 } else s
  let s := C.fireSkill s w
  let s := { s with fires := ⟨t, due⟩ :: s.fires }
  let s := if w.cancels then cancel s else s
  if s.m_nCurrentFire = s.m_nTotalFire then { s with m_nFireTime := s.m_nFireTime + C.commonDelay, m_Status := .complete } else s

/-- The part of `ProcSkill` for `SS_COMPLETE`, with `OnCompleteSkill`. -/
def procComplete (s : MultiState) (t : Int) : MultiState :=
  if s.m_Status = .complete then if t < s.m_nFireTime then s else { init s with casting := false } else s

/-- `Skill::ProcSkill` at the time `t`. -/
def procSkill (s : MultiState) (w : MultiWorld) (t : Int) : MultiState :=
  if s.m_Status = .idle then s
  else if C.cancelsBefore s w = true then cancel s
  else if t < s.m_nFireTime then s
  else if cancelsAfter s w = true then cancel s
  else if s.m_Status = .complete then procComplete s t
  else procComplete (C.procFire { s with m_Status := .fire } w t) t

/-! ## Runs -/

/-- A skill with the time of the last call. -/
structure MultiRun where
  state : MultiState
  clock : Int

structure MultiCall where
  time : Int
  world : MultiWorld

/-- Calls at times that do not go back, of a skill that has been cast. -/
def multiSystem : System MultiRun MultiCall where
  Init r := r.state.m_Status = .cast ∧ r.state.m_nCurrentFire = 0 ∧ r.state.m_nTotalFire = 0 ∧ r.state.paid = 0 ∧
    r.state.fires = [] ∧ r.state.rushFailed = false
  Step r e r' := r.clock ≤ e.time ∧ r' = ⟨C.procSkill r.state e.world e.time, e.time⟩

/-- The call does not cancel the skill. -/
def Uncancelled (s : MultiState) (w : MultiWorld) : Prop :=
  C.cancelsBefore s w = false ∧ cancelsAfter s w = false ∧ w.cancels = false

/-! ## What is claimed -/

/-- The number of hits: the configured one, but at least one; a rush is one hit if it fails, and otherwise the rush and the hit. -/
def hits (s : MultiState) : Nat :=
  match C.hitCount with
  | .counted total _ => max 1 total.toNat
  | .rush => if s.rushFailed then 1 else 2

/-- The configured interval between the hits; the one of the triple attack is given as those of the others. -/
def interval : ℚ :=
  match C.effect with
  | .EF_PHYSICAL_MULTIPLE_DAMAGE_TRIPLE_ATTACK_OLD => C.var 9 * 100
  | _ => match C.hitCount with
    | .counted _ delay => delay 1
    | .rush => 0

/-- What is left to do, in calls that do not come too early. -/
def rank (s : MultiState) : Nat := if s.m_Status = .idle then 0 else 1 + (C.hits s - s.fires.length)

/-- The call is one at which the effect counts as it is to: it has a target and the configured number is positive, or both are not so;
and its delay is the configured interval, unless it is the last hit. -/
def CallCareful (s : MultiState) (w : MultiWorld) : Prop :=
  match C.hitCount with
  | .counted total delay =>
    if C.hasEffect w = true then 1 ≤ total ∧ (s.m_nCurrentFire + 1 < total → delay (s.m_nCurrentFire + 1) = C.interval) else total ≤ 1
  | .rush => C.hasEffect w = true

/-- The skill hits as often as configured and at the configured times, pays once, and comes to its end. -/
structure MultiRight (s : MultiState) : Prop where
  few : s.fires.length ≤ C.hits s
  once : s.paid = if s.fires = [] then 0 else 1
  finished : s.m_Status = .complete ∨ s.m_Status = .idle → s.fires.length = C.hits s
  cleared : s.m_Status = .idle → s.casting = false
  spaced : C.hitCount ≠ .rush → s.fires.IsChain fun later earlier => later.due = truncated (earlier.due + C.interval)
  onTime : ∀ fire ∈ s.fires, fire.due ≤ fire.time
  progress : s.m_Status ≠ .idle → ∀ w t, C.Uncancelled s w → C.CallCareful s w → s.m_nFireTime ≤ t →
    C.rank (C.procSkill s w t) < C.rank s

/-! ## One hit -/

section

variable {C} {s s' : MultiState} {w : MultiWorld} {t : Int}

/-- The hits so far. -/
structure HitsRight (s : MultiState) : Prop where
  spaced : C.hitCount ≠ .rush → s.fires.IsChain fun later earlier => later.due = truncated (earlier.due + C.interval)
  onTime : ∀ fire ∈ s.fires, fire.due ≤ fire.time

/-- The skill has been cast and has hits left. -/
structure Ready (s : MultiState) : Prop extends HitsRight (C := C) s where
  current : s.m_nCurrentFire = s.fires.length
  total : s.m_nTotalFire = if s.fires = [] then 0 else (C.hits s : Int)
  paid : s.paid = if s.fires = [] then 0 else 1
  left : s.fires.length < C.hits s
  noFail : s.rushFailed = false
  next : C.hitCount ≠ .rush → ∀ fire ∈ s.fires.head?, s.m_nFireTime = truncated (fire.due + C.interval)

/-- The skill has made its hits. -/
structure Done (s : MultiState) : Prop extends HitsRight (C := C) s where
  all : s.fires.length = C.hits s
  paid : s.paid = 1

theorem hits_pos (s : MultiState) : 0 < C.hits s := by
  unfold hits
  cases C.hitCount with
  | counted total delay => exact Nat.lt_of_lt_of_le Nat.one_pos (Nat.le_max_left _ _)
  | rush =>
    dsimp only
    split_ifs <;> decide

/-- A hit that is due. -/
theorem HitsRight.hit (h : HitsRight (C := C) s) (ht : s.m_nFireTime ≤ t)
    (hnext : C.hitCount ≠ .rush → ∀ fire ∈ s.fires.head?, s.m_nFireTime = truncated (fire.due + C.interval))
    (hfires : s'.fires = ⟨t, s.m_nFireTime⟩ :: s.fires) : HitsRight (C := C) s' where
  spaced hcounted := by
    have hspaced := h.spaced hcounted
    have hnext := hnext hcounted
    rw [hfires]
    cases hrest : s.fires with
    | nil => exact .singleton _
    | cons fire rest =>
      rw [hrest] at hspaced hnext
      exact .cons_cons (hnext fire rfl) hspaced
  onTime := by
    rw [hfires]
    exact List.forall_mem_cons.mpr ⟨ht, h.onTime⟩

/-- After a hit: the skill is complete and has made all its hits, or it has hits left. -/
def AfterHit (C : MultiSkill) (s r : MultiState) : Prop :=
  r.fires.length = s.fires.length + 1 ∧ C.hits r ≤ C.hits s ∧
    (r.m_Status = .complete ∧ Done (C := C) r ∨ r.m_Status = .fire ∧ Ready (C := C) r)

/-- `procFire` of a skill whose costs are not yet paid twice, once it is known what the effect does. -/
theorem procFire_eq (h : Ready (C := C) s) (hcancels : w.cancels = false) (hfire : C.fireSkill { s with paid := 1 } w = s') :
    C.procFire s w t = if s'.m_nCurrentFire = s'.m_nTotalFire then
      { s' with fires := ⟨t, s.m_nFireTime⟩ :: s'.fires, m_nFireTime := s'.m_nFireTime + C.commonDelay, m_Status := .complete }
      else { s' with fires := ⟨t, s.m_nFireTime⟩ :: s'.fires } := by
  have hpaid : (if s.m_nCurrentFire = 0 then { s with paid := s.paid + 1 } else s) = { s with paid := 1 } := by
    have hcurrent := h.current
    have hp := h.paid
    split_ifs at hp ⊢ with hzero hnil hnil
    · rw [hp]
    · have hlen := List.length_pos_iff.mpr hnil
      omega
    · rw [hnil, List.length_nil] at hcurrent
      exact absurd hcurrent hzero
    · rw [← hp]
  unfold procFire
  dsimp only
  rw [hpaid, hfire, hcancels]
  rfl

theorem Ready.total_of_ne_zero (h : Ready (C := C) s) (hne : s.m_nCurrentFire ≠ 0) : s.m_nTotalFire = C.hits s := by
  have hcur := h.current
  rw [h.total, if_neg]
  intro hnil
  rw [hnil, List.length_nil] at hcur
  exact hne hcur

theorem Ready.hit_counted (h : Ready (C := C) s) (hstatus : s.m_Status = .fire) (ht : s.m_nFireTime ≤ t)
    (hcancels : w.cancels = false) {total : Int} {delay : Int → ℚ} (hcount : C.hitCount = .counted total delay)
    (heffect : C.hasEffect w = true) (htotal : 1 ≤ total)
    (hdelay : s.m_nCurrentFire + 1 < total → delay (s.m_nCurrentFire + 1) = C.interval) : AfterHit C s (C.procFire s w t) := by
  have hhits : ∀ r : MultiState, (C.hits r : Int) = total := fun r => by
    unfold hits
    rw [hcount]
    dsimp only
    omega
  have htotal' : s.m_nCurrentFire ≠ 0 → s.m_nTotalFire = total := fun hne => (h.total_of_ne_zero hne).trans (hhits s)
  have hfire : C.fireSkill { s with paid := 1 } w = { s with
      paid := 1
      m_nTotalFire := total
      m_nCurrentFire := s.m_nCurrentFire + 1
      m_nFireTime := truncated (s.m_nFireTime + delay (s.m_nCurrentFire + 1)) } := by
    unfold fireSkill
    rw [if_neg (by rw [heffect]; exact Bool.noConfusion), hcount]
    dsimp only
    split_ifs with hzero
    · rw [hzero]
      rfl
    · rw [← htotal' hzero]
  have hcur := h.current
  have hleft := h.left
  have hright : ∀ r : MultiState, r.fires = ⟨t, s.m_nFireTime⟩ :: s.fires → HitsRight (C := C) r := fun r hr =>
    h.toHitsRight.hit ht h.next hr
  have hlen := hhits s
  rw [procFire_eq h hcancels hfire]
  dsimp only
  split_ifs with hlast
  · refine ⟨rfl, le_of_eq rfl, .inl ⟨rfl, { hright _ rfl with all := ?_, paid := rfl }⟩⟩
    have hall := hhits s
    show s.fires.length + 1 = C.hits s
    omega
  · refine ⟨rfl, le_of_eq rfl, .inr ⟨hstatus, { hright _ rfl with
      current := ?_, total := ?_, paid := rfl, left := ?_, noFail := h.noFail, next := ?_ }⟩⟩
    · show s.m_nCurrentFire + 1 = ((s.fires.length + 1 : Nat) : Int)
      omega
    · exact (hhits s).symm
    · show s.fires.length + 1 < C.hits s
      omega
    · rintro - fire hfire
      obtain rfl := Option.some.inj hfire
      show truncated (s.m_nFireTime + delay (s.m_nCurrentFire + 1)) = truncated (s.m_nFireTime + C.interval)
      rw [hdelay (by omega)]

/-- Without an effect the counter stays at its total, 0: the first call is the only one. -/
theorem Ready.hit_none (h : Ready (C := C) s) (ht : s.m_nFireTime ≤ t) (hcancels : w.cancels = false)
    (heffect : C.hasEffect w = false) {total : Int} {delay : Int → ℚ} (hcount : C.hitCount = .counted total delay)
    (htotal : total ≤ 1) : AfterHit C s (C.procFire s w t) := by
  have hhits : ∀ r : MultiState, C.hits r = 1 := fun r => by
    unfold hits
    rw [hcount]
    dsimp only
    omega
  have hnil : s.fires = [] := List.length_eq_zero_iff.mp (by have hleft := h.left; rw [hhits] at hleft; omega)
  have hcur := h.current
  have htot := h.total
  rw [hnil, List.length_nil] at hcur
  rw [if_pos hnil] at htot
  have hfire : C.fireSkill { s with paid := 1 } w = { s with paid := 1 } := if_pos heffect
  rw [procFire_eq h hcancels hfire]
  dsimp only
  rw [if_pos (hcur.trans htot.symm)]
  refine ⟨rfl, le_of_eq ((hhits _).trans (hhits s).symm), .inl ⟨rfl, { h.toHitsRight.hit ht h.next rfl with all := ?_, paid := rfl }⟩⟩
  rw [hhits]
  show s.fires.length + 1 = 1
  rw [hnil]
  rfl

theorem hits_rush (hcount : C.hitCount = .rush) (s : MultiState) : C.hits s = if s.rushFailed then 1 else 2 := by
  unfold hits
  rw [hcount]

theorem fireSkill_rush (hcount : C.hitCount = .rush) (heffect : C.hasEffect w = true) (s : MultiState) : C.fireSkill s w =
    if s.m_nCurrentFire = 0 then
      match w.rush with
      | some d => { s with m_nCurrentFire := 1, m_nTotalFire := 2, m_nFireTime := truncated (s.m_nFireTime + d) }
      | none => { s with m_nCurrentFire := 2, m_nTotalFire := 2, rushFailed := true }
    else { s with m_nCurrentFire := s.m_nCurrentFire + 1 } := by
  unfold fireSkill
  rw [if_neg (by rw [heffect]; exact Bool.noConfusion), hcount]

/-- The rush itself: the hit comes after the time that it takes, unless it fails. -/
theorem Ready.rush (h : Ready (C := C) s) (hstatus : s.m_Status = .fire) (ht : s.m_nFireTime ≤ t) (hcancels : w.cancels = false)
    (hcount : C.hitCount = .rush) (heffect : C.hasEffect w = true) (hzero : s.m_nCurrentFire = 0) :
    AfterHit C s (C.procFire s w t) := by
  have hhits := @hits_rush C hcount
  have hright : ∀ r : MultiState, r.fires = ⟨t, s.m_nFireTime⟩ :: s.fires → HitsRight (C := C) r := fun r hr =>
    h.toHitsRight.hit ht h.next hr
  have hcur := h.current
  have hnil : s.fires = [] := List.length_eq_zero_iff.mp (by omega)
  cases hrush : w.rush with
  | some d =>
    have hfire : C.fireSkill { s with paid := 1 } w = { s with
        paid := 1, m_nCurrentFire := 1, m_nTotalFire := 2, m_nFireTime := truncated (s.m_nFireTime + d) } := by
      rw [fireSkill_rush hcount heffect, hrush]
      exact if_pos hzero
    rw [procFire_eq h hcancels hfire]
    dsimp only
    rw [if_neg (by decide)]
    refine ⟨rfl, le_of_eq ((hhits _).trans (hhits s).symm), .inr ⟨hstatus, { hright _ rfl with
      current := ?_, total := ?_, paid := rfl, left := ?_, noFail := h.noFail, next := fun hne => absurd hcount hne }⟩⟩
    · show (1 : Int) = ((s.fires.length + 1 : Nat) : Int)
      rw [hnil]
      rfl
    · show (2 : Int) = (C.hits _ : Int)
      rw [hhits]
      dsimp only
      rw [h.noFail]
      rfl
    · show s.fires.length + 1 < C.hits _
      rw [hhits, hnil]
      dsimp only
      rw [h.noFail]
      decide
  | none =>
    have hfire : C.fireSkill { s with paid := 1 } w = { s with
        paid := 1, m_nCurrentFire := 2, m_nTotalFire := 2, rushFailed := true } := by
      rw [fireSkill_rush hcount heffect, hrush]
      exact if_pos hzero
    rw [procFire_eq h hcancels hfire]
    dsimp only
    rw [if_pos rfl]
    refine ⟨rfl, ?_, .inl ⟨rfl, { hright _ rfl with all := ?_, paid := rfl }⟩⟩
    · rw [hhits, hhits s, h.noFail]
      show 1 ≤ 2
      decide
    · rw [hhits]
      show s.fires.length + 1 = 1
      rw [hnil]
      rfl

/-- The hit behind a rush. -/
theorem Ready.hit_behind_rush (h : Ready (C := C) s) (ht : s.m_nFireTime ≤ t) (hcancels : w.cancels = false)
    (hcount : C.hitCount = .rush) (heffect : C.hasEffect w = true) (hne : s.m_nCurrentFire ≠ 0) :
    AfterHit C s (C.procFire s w t) := by
  have hhits := @hits_rush C hcount
  have htwo : C.hits s = 2 := by rw [hhits, h.noFail]; rfl
  have hcur := h.current
  have hleft := h.left
  have htotal := h.total_of_ne_zero hne
  have hfire : C.fireSkill { s with paid := 1 } w = { s with paid := 1, m_nCurrentFire := s.m_nCurrentFire + 1 } := by
    rw [fireSkill_rush hcount heffect]
    exact if_neg hne
  have hright : ∀ r : MultiState, r.fires = ⟨t, s.m_nFireTime⟩ :: s.fires → HitsRight (C := C) r := fun r hr =>
    h.toHitsRight.hit ht h.next hr
  rw [procFire_eq h hcancels hfire]
  dsimp only
  rw [if_pos (by omega)]
  refine ⟨rfl, le_of_eq ((hhits _).trans (hhits s).symm), .inl ⟨rfl, { hright _ rfl with all := ?_, paid := rfl }⟩⟩
  show s.fires.length + 1 = C.hits s
  omega

theorem Ready.hit_rush (h : Ready (C := C) s) (hstatus : s.m_Status = .fire) (ht : s.m_nFireTime ≤ t)
    (hcancels : w.cancels = false) (hcount : C.hitCount = .rush) (heffect : C.hasEffect w = true) :
    AfterHit C s (C.procFire s w t) := by
  by_cases hzero : s.m_nCurrentFire = 0
  · exact h.rush hstatus ht hcancels hcount heffect hzero
  · exact h.hit_behind_rush ht hcancels hcount heffect hzero

/-- A hit at a careful call. -/
theorem Ready.hit (h : Ready (C := C) s) (hstatus : s.m_Status = .fire) (ht : s.m_nFireTime ≤ t) (hcancels : w.cancels = false)
    (hcareful : C.CallCareful s w) : AfterHit C s (C.procFire s w t) := by
  unfold CallCareful at hcareful
  cases hcount : C.hitCount with
  | counted total delay =>
    rw [hcount] at hcareful
    dsimp only at hcareful
    split_ifs at hcareful with heffect
    · exact h.hit_counted hstatus ht hcancels hcount heffect hcareful.1 hcareful.2
    · exact h.hit_none ht hcancels (Bool.eq_false_iff.mpr heffect) hcount hcareful
  | rush =>
    rw [hcount] at hcareful
    exact h.hit_rush hstatus ht hcancels hcount hcareful

end

/-! ## Runs -/

section

variable {C} {s s' : MultiState} {w : MultiWorld} {t : Int}

/-- Where a skill that is not cancelled can be. -/
inductive Phase (C : MultiSkill) (s : MultiState) : Prop
  | ready : s.m_Status = .cast ∨ s.m_Status = .fire → Ready (C := C) s → Phase C s
  | complete : s.m_Status = .complete → Done (C := C) s → Phase C s
  | idle : s.m_Status = .idle → s.casting = false → Done (C := C) s → Phase C s

theorem Done.procComplete (h : Done (C := C) s) (hstatus : s.m_Status = .complete) :
    Phase C (MultiSkill.procComplete s t) ∧ C.rank (MultiSkill.procComplete s t) ≤ C.rank s ∧
      (s.m_nFireTime ≤ t → C.rank (MultiSkill.procComplete s t) < C.rank s) := by
  have hrank : C.rank s = 1 + (C.hits s - s.fires.length) := if_neg (by rw [hstatus]; exact MultiStatus.noConfusion)
  unfold MultiSkill.procComplete
  rw [if_pos hstatus]
  split_ifs with hearly
  · exact ⟨.complete hstatus h, le_refl _, fun ht => absurd hearly (not_lt.mpr ht)⟩
  · have hzero : C.rank { init s with casting := false } = 0 := if_pos rfl
    refine ⟨.idle rfl rfl ⟨⟨h.spaced, h.onTime⟩, h.all, h.paid⟩, ?_, fun _ => ?_⟩
    · rw [hzero]
      exact Nat.zero_le _
    · rw [hzero, hrank]
      omega

/-- A call that does not cancel the skill. -/
theorem Phase.procSkill (h : Phase C s) (huncancelled : C.Uncancelled s w)
    (hcareful : s.m_nFireTime ≤ t → C.CallCareful s w) : Phase C (C.procSkill s w t) ∧
      (s.m_Status ≠ .idle → s.m_nFireTime ≤ t → C.rank (C.procSkill s w t) < C.rank s) := by
  obtain ⟨hbefore, hafter, hcancels⟩ := huncancelled
  unfold MultiSkill.procSkill
  rw [hbefore, hafter]
  cases h with
  | idle hstatus hcasting hdone =>
    rw [if_pos hstatus]
    exact ⟨.idle hstatus hcasting hdone, fun hne => absurd hstatus hne⟩
  | complete hstatus hdone =>
    obtain ⟨hphase, -, hless⟩ := hdone.procComplete (t := t) hstatus
    rw [if_neg (by rw [hstatus]; exact MultiStatus.noConfusion), if_neg Bool.false_ne_true]
    by_cases hearly : t < s.m_nFireTime
    · rw [if_pos hearly]
      exact ⟨.complete hstatus hdone, fun _ ht => absurd hearly (not_lt.mpr ht)⟩
    · rw [if_neg hearly, if_neg Bool.false_ne_true, if_pos hstatus]
      exact ⟨hphase, fun _ => hless⟩
  | ready hstatus hready =>
    have hidle : s.m_Status ≠ .idle := by
      rcases hstatus with h | h <;> rw [h] <;> exact MultiStatus.noConfusion
    have hcomplete : s.m_Status ≠ .complete := by
      rcases hstatus with h | h <;> rw [h] <;> exact MultiStatus.noConfusion
    rw [if_neg hidle, if_neg Bool.false_ne_true]
    by_cases hearly : t < s.m_nFireTime
    · rw [if_pos hearly]
      exact ⟨.ready hstatus hready, fun _ ht => absurd hearly (not_lt.mpr ht)⟩
    · rw [if_neg hearly, if_neg Bool.false_ne_true, if_neg hcomplete]
      have ht := not_lt.mp hearly
      have hfire : Ready (C := C) { s with m_Status := .fire } :=
        { hready with current := hready.current, total := hready.total, paid := hready.paid, left := hready.left,
                      noFail := hready.noFail, next := hready.next, spaced := hready.spaced, onTime := hready.onTime }
      obtain ⟨hlen, hhits, hrest⟩ := hfire.hit rfl ht hcancels (hcareful ht)
      generalize C.procFire { s with m_Status := .fire } w t = r at hlen hhits hrest
      have hleft : s.fires.length < C.hits s := hready.left
      have hhits : C.hits r ≤ C.hits s := hhits
      have hlen : r.fires.length = s.fires.length + 1 := hlen
      have hrank : C.rank s = 1 + (C.hits s - s.fires.length) := if_neg hidle
      rcases hrest with ⟨hr, hdone⟩ | ⟨hr, hready'⟩
      · obtain ⟨hphase, hle, -⟩ := hdone.procComplete (t := t) hr
        have hrank' : C.rank r = 1 + (C.hits r - r.fires.length) := if_neg (by rw [hr]; exact MultiStatus.noConfusion)
        exact ⟨hphase, fun _ _ => by omega⟩
      · have hsame : MultiSkill.procComplete r t = r := if_neg (by rw [hr]; exact MultiStatus.noConfusion)
        have hrank' : C.rank r = 1 + (C.hits r - r.fires.length) := if_neg (by rw [hr]; exact MultiStatus.noConfusion)
        have hleft' := hready'.left
        rw [hsame]
        exact ⟨.ready (.inr hr) hready', fun _ _ => by omega⟩

theorem Phase.right (h : Phase C s) : C.MultiRight s := by
  have hprogress : s.m_Status ≠ .idle → ∀ w t, C.Uncancelled s w → C.CallCareful s w → s.m_nFireTime ≤ t →
      C.rank (C.procSkill s w t) < C.rank s := fun hidle w t huncancelled hcareful ht =>
    (h.procSkill huncancelled fun _ => hcareful).2 hidle ht
  have hdone : Done (C := C) s → s.paid = if s.fires = [] then 0 else 1 := fun hdone => by
    rw [if_neg, hdone.paid]
    intro hnil
    have hall := hdone.all
    rw [hnil] at hall
    exact absurd hall.symm (hits_pos s).ne'
  cases h with
  | ready hstatus hready =>
    refine ⟨hready.left.le, hready.paid, fun h => ?_, fun h => ?_, hready.spaced, hready.onTime, hprogress⟩
    · rcases hstatus with hs | hs <;> rw [hs] at h <;> rcases h with h | h <;> cases h
    · rcases hstatus with hs | hs <;> rw [hs] at h <;> cases h
  | complete hstatus hd =>
    refine ⟨hd.all.le, hdone hd, fun _ => hd.all, fun h => ?_, hd.spaced, hd.onTime, hprogress⟩
    rw [hstatus] at h
    cases h
  | idle hstatus hcasting hd =>
    exact ⟨hd.all.le, hdone hd, fun _ => hd.all, fun _ => hcasting, hd.spaced, hd.onTime, hprogress⟩

end

/-! ## A skill that never ends -/

/-- A skill of the effect with the variables 2, 3 and 4: the number of hits, what the level adds to it, and the interval. -/
def tripleHit (n : Int) : MultiSkill :=
  ⟨.EF_PHYSICAL_MULTIPLE_DAMAGE_T3, fun i => if i = 2 then n else if i = 4 then 1 else 0, 1, 0, false, false⟩

def castAt (t : Int) : MultiState := ⟨.cast, 7, t, 0, 0, true, 0, [], false⟩

def oneTarget : MultiWorld := ⟨10, some ⟨true, false, 10, true⟩, none, false⟩

theorem hitCount_tripleHit (n : Int) : (tripleHit n).hitCount = .counted n fun _ => 100 := by
  have htotal : truncated (((tripleHit n).var 2 : ℚ) + (tripleHit n).var 3 * (tripleHit n).level) = n := by
    have hvar : ((tripleHit n).var 2 : ℚ) + (tripleHit n).var 3 * (tripleHit n).level = (n : ℚ) := by simp [tripleHit]
    rw [hvar, truncated_intCast]
  have hdelay : ((tripleHit n).var 4 : ℚ) * 100 = 100 := by simp [tripleHit]
  show HitCount.counted (truncated _) (fun _ => (tripleHit n).var 4 * 100) = _
  rw [htotal, hdelay]

def firstCall : MultiState := (tripleHit 0).procSkill (castAt 50) oneTarget 60

def secondCall : MultiState := (tripleHit 0).procSkill firstCall oneTarget 200

end MultiSkill

end RZEmulator.Chihiro
