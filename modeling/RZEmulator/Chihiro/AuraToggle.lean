import RZEmulator.Chihiro.AuraUpkeep

/-!
# Toggling auras

`TurnOnAura`, `TurnOffAura`, `ToggleAura` and `RemoveAllAura` of `Unit.cpp`, with the messages they send. In every run in which
`TurnOnAura` is called for a skill without a toggle group only while that skill is not active, as `ToggleAura` does, no skill is
listed twice and no toggle group has two auras.
-/

namespace RZEmulator.Chihiro

open Lib

/-- `Skill::MAX_TOGGLE_GROUP` -/
def MAX_TOGGLE_GROUP : Int := 20

/-- `TS_SC_AURA` -/
structure AuraMessage where
  skill_id : Int
  status : Bool
  deriving DecidableEq

/-- The skills are known by their addresses. A player, or the master of a summon, is told of the changes. -/
structure AuraUnit where
  getToggleGroup : Nat → Int
  getSkillId : Nat → Int
  told : Bool
  m_vAura : List (Nat × Int) := []
  sent : List AuraMessage := []

namespace AuraUnit

def sendAura (u : AuraUnit) (skill : Nat) (status : Bool) : AuraUnit :=
  if u.told = true then { u with sent := u.sent ++ [⟨u.getSkillId skill, status⟩] } else u

/-- `IsActiveAura` -/
def isActiveAura (u : AuraUnit) (skill : Nat) : Bool := u.m_vAura.any fun aura => aura.1 = skill

def sameGroup (u : AuraUnit) (skill q : Nat) : Bool :=
  decide (u.getToggleGroup q ≠ 0 ∧ u.getToggleGroup q = u.getToggleGroup skill)

/-- The loop of `TurnOnAura`: the first aura of the group, and the list in which it is replaced. -/
def replaceFirst (same : Nat → Bool) (aura : Nat × Int) : List (Nat × Int) → Option (Nat × List (Nat × Int))
  | [] => none
  | it :: l =>
    if same it.1 = true then some (it.1, aura :: l) else (replaceFirst same aura l).map fun r => (r.1, it :: r.2)

/-- `TurnOnAura` for a skill whose requested level is `level`. Where the assertion fails there is no result. -/
def turnOnAura (u : AuraUnit) (pSkill : Option Nat) (level : Int) : Option (Bool × AuraUnit) :=
  match pSkill with
  | none => some (false, u)
  | some skill =>
    if u.getToggleGroup skill > MAX_TOGGLE_GROUP ∨ u.getToggleGroup skill < 0 then none
    else
      match replaceFirst (u.sameGroup skill) (skill, level) u.m_vAura with
      | some (old, vAura) => some (true, ({ u.sendAura old false with m_vAura := vAura }).sendAura skill true)
      | none => some (true, ({ u with m_vAura := u.m_vAura ++ [(skill, level)] }).sendAura skill true)

/-- `TurnOffAura` -/
def turnOffAura (u : AuraUnit) (pSkill : Option Nat) : Bool × AuraUnit :=
  match pSkill with
  | none => (false, u)
  | some skill =>
    if u.isActiveAura skill = true then
      (true, { u.sendAura skill false with m_vAura := u.m_vAura.eraseP fun aura => aura.1 = skill })
    else (false, u)

/-- `ToggleAura` -/
def toggleAura (u : AuraUnit) (pSkill : Option Nat) (level : Int) : Option AuraUnit :=
  if (u.turnOffAura pSkill).1 = true then some (u.turnOffAura pSkill).2
  else ((u.turnOffAura pSkill).2.turnOnAura pSkill level).map Prod.snd

/-- `RemoveAllAura` -/
def removeAllAura (u : AuraUnit) : AuraUnit :=
  if u.m_vAura = [] then u
  else { u.m_vAura.foldl (fun u aura => u.sendAura aura.1 false) u with m_vAura := [] }

inductive ToggleEvent
  | turnOnAura (pSkill : Option Nat) (level : Int)
  | turnOffAura (pSkill : Option Nat)
  | toggleAura (pSkill : Option Nat) (level : Int)
  | removeAllAura

def handle (u : AuraUnit) : ToggleEvent → Option AuraUnit
  | .turnOnAura pSkill level => (u.turnOnAura pSkill level).map Prod.snd
  | .turnOffAura pSkill => some (u.turnOffAura pSkill).2
  | .toggleAura pSkill level => u.toggleAura pSkill level
  | .removeAllAura => some u.removeAllAura

def toggleSystem : System AuraUnit ToggleEvent := .ofFun (fun u => u.m_vAura = []) handle

/-! ## What is claimed -/

/-- No skill is active twice, and of each toggle group there is at most one aura. -/
structure Exclusive (u : AuraUnit) : Prop where
  nodup : (u.m_vAura.map Prod.fst).Nodup
  group : ∀ g, g ≠ 0 → (u.m_vAura.countP fun aura => u.getToggleGroup aura.1 = g) ≤ 1

/-- Turning an aura off leaves the others, and nothing else. -/
def OffRight (u : AuraUnit) : Prop :=
  ∀ skill, (u.turnOffAura (some skill)).2.m_vAura = u.m_vAura.filter fun aura => aura.1 ≠ skill

/-- Toggling a skill twice leaves the other auras but those of the group of a skill that was not active. -/
def TwiceRight (u : AuraUnit) : Prop :=
  ∀ skill level level' u' u'', u.toggleAura (some skill) level = some u' → u'.toggleAura (some skill) level' = some u'' →
    u''.m_vAura =
      if u.isActiveAura skill = true then (u.m_vAura.filter fun aura => aura.1 ≠ skill) ++ [(skill, level')]
      else u.m_vAura.filter fun aura => !u.sameGroup skill aura.1

/-- A skill without a toggle group is turned on only while it is not active. -/
def Careful (u : AuraUnit) : ToggleEvent → Prop
  | .turnOnAura (some skill) _ => u.getToggleGroup skill = 0 → u.isActiveAura skill = false
  | _ => True

/-! ## The operations -/

section

variable {u u' : AuraUnit} {skill : Nat} {level : Int}

@[simp] theorem sendAura_vAura (u : AuraUnit) (skill : Nat) (status : Bool) : (u.sendAura skill status).m_vAura = u.m_vAura := by
  unfold sendAura
  split_ifs <;> rfl

@[simp] theorem sendAura_group (u : AuraUnit) (skill : Nat) (status : Bool) :
    (u.sendAura skill status).getToggleGroup = u.getToggleGroup := by
  unfold sendAura
  split_ifs <;> rfl

theorem isActiveAura_iff : u.isActiveAura skill = true ↔ skill ∈ u.m_vAura.map Prod.fst := by
  simp [isActiveAura]

theorem not_isActiveAura_iff : u.isActiveAura skill = false ↔ skill ∉ u.m_vAura.map Prod.fst := by
  rw [← isActiveAura_iff, Bool.not_eq_true]

theorem sameGroup_iff {q : Nat} :
    u.sameGroup skill q = true ↔ u.getToggleGroup q ≠ 0 ∧ u.getToggleGroup q = u.getToggleGroup skill := decide_eq_true_iff

theorem replaceFirst_eq_none {same : Nat → Bool} {aura : Nat × Int} {l : List (Nat × Int)} :
    replaceFirst same aura l = none ↔ ∀ it ∈ l, same it.1 = false := by
  induction l with
  | nil => exact iff_of_true rfl nofun
  | cons it l ih =>
    rw [replaceFirst]
    split_ifs with hsame
    · exact iff_of_false nofun fun h => nomatch hsame.symm.trans (h it List.mem_cons_self)
    · rw [Option.map_eq_none_iff, ih, List.forall_mem_cons]
      exact (and_iff_right (Bool.eq_false_iff.mpr hsame)).symm

theorem replaceFirst_eq_some {same : Nat → Bool} {aura : Nat × Int} {l vAura : List (Nat × Int)} {old : Nat}
    (h : replaceFirst same aura l = some (old, vAura)) :
    ∃ front lv rest, l = front ++ (old, lv) :: rest ∧ vAura = front ++ aura :: rest ∧ same old = true := by
  induction l generalizing vAura with
  | nil => cases h
  | cons it l ih =>
    rw [replaceFirst] at h
    split_ifs at h with hsame
    · obtain ⟨rfl, rfl⟩ := Prod.mk.inj (Option.some.inj h)
      exact ⟨[], it.2, l, rfl, rfl, hsame⟩
    · obtain ⟨⟨old', vAura'⟩, hr, heq⟩ := Option.map_eq_some_iff.mp h
      obtain ⟨rfl, rfl⟩ := Prod.mk.inj heq
      obtain ⟨front, lv, rest, rfl, rfl, hold⟩ := ih hr
      exact ⟨it :: front, lv, rest, rfl, rfl, hold⟩

/-- An aura that is turned on takes the place of that of its group, or stands behind all others. -/
theorem turnOnAura_cases {ok : Bool} (h : u.turnOnAura (some skill) level = some (ok, u')) :
    u'.getToggleGroup = u.getToggleGroup ∧
      ((∃ front old lv rest, u.m_vAura = front ++ (old, lv) :: rest ∧ u'.m_vAura = front ++ (skill, level) :: rest ∧
          u.sameGroup skill old = true) ∨
        (∀ it ∈ u.m_vAura, u.sameGroup skill it.1 = false) ∧ u'.m_vAura = u.m_vAura ++ [(skill, level)]) := by
  dsimp only [turnOnAura] at h
  split_ifs at h
  cases hr : replaceFirst (u.sameGroup skill) (skill, level) u.m_vAura with
  | none =>
    rw [hr] at h
    obtain ⟨-, rfl⟩ := Prod.mk.inj (Option.some.inj h)
    refine ⟨sendAura_group _ _ _, .inr ⟨replaceFirst_eq_none.mp hr, ?_⟩⟩
    rw [sendAura_vAura]
  | some r =>
    obtain ⟨old, vAura⟩ := r
    rw [hr] at h
    obtain ⟨-, rfl⟩ := Prod.mk.inj (Option.some.inj h)
    obtain ⟨front, lv, rest, hl, hv, hold⟩ := replaceFirst_eq_some hr
    refine ⟨(sendAura_group _ _ _).trans (sendAura_group _ _ _), .inl ⟨front, old, lv, rest, hl, ?_, hold⟩⟩
    rw [sendAura_vAura]
    exact hv

theorem turnOffAura_group (u : AuraUnit) (pSkill : Option Nat) : (u.turnOffAura pSkill).2.getToggleGroup = u.getToggleGroup := by
  cases pSkill with
  | none => rfl
  | some skill =>
    unfold turnOffAura
    dsimp only
    split_ifs
    · exact sendAura_group _ _ _
    · rfl

theorem eraseP_eq_filter {l : List (Nat × Int)} (hnodup : (l.map Prod.fst).Nodup) :
    (l.eraseP fun aura => aura.1 = skill) = l.filter fun aura => aura.1 ≠ skill := by
  induction l with
  | nil => rfl
  | cons it l ih =>
    rw [List.map_cons, List.nodup_cons] at hnodup
    by_cases hit : it.1 = skill
    · have hrest : ∀ aura ∈ l, decide (aura.1 ≠ skill) = true := by
        intro aura ha
        rw [decide_eq_true_iff]
        rintro rfl
        exact hnodup.1 (hit ▸ List.mem_map_of_mem ha)
      rw [List.eraseP_cons_of_pos (by simpa using hit), List.filter_cons_of_neg (by simpa using hit),
        List.filter_eq_self.mpr hrest]
    · rw [List.eraseP_cons_of_neg (by simpa using hit), List.filter_cons_of_pos (by simpa using hit), ih hnodup.2]

/-- An aura that is turned off is gone, the others stay. -/
theorem turnOffAura_vAura (hu : u.Exclusive) :
    (u.turnOffAura (some skill)).2.m_vAura = u.m_vAura.filter fun aura => aura.1 ≠ skill := by
  unfold turnOffAura
  dsimp only
  split_ifs with hactive
  · exact eraseP_eq_filter hu.nodup
  · refine (List.filter_eq_self.mpr fun aura ha => ?_).symm
    rw [decide_eq_true_iff]
    rintro rfl
    exact hactive (isActiveAura_iff.mpr (List.mem_map_of_mem ha))

/-! ## One step -/

/-- Fewer auras are exclusive too. -/
theorem Exclusive.sublist (hu : u.Exclusive) (hgroup : u'.getToggleGroup = u.getToggleGroup)
    (hsub : u'.m_vAura.Sublist u.m_vAura) : u'.Exclusive where
  nodup := hu.nodup.sublist (hsub.map _)
  group g hg := by
    rw [hgroup]
    exact Nat.le_trans hsub.countP_le (hu.group g hg)

/-- Another aura of the group of an aura is that aura. -/
theorem Exclusive.alone {front rest : List (Nat × Int)} {old : Nat} {lv : Int} (hu : u.Exclusive)
    (hl : u.m_vAura = front ++ (old, lv) :: rest) (hold : u.sameGroup skill old = true) :
    ∀ it ∈ front ++ rest, u.sameGroup skill it.1 = false := by
  obtain ⟨hne, heq⟩ := sameGroup_iff.mp hold
  have hone := hu.group (u.getToggleGroup old) hne
  rw [hl, List.countP_append, List.countP_cons_of_pos (by simp)] at hone
  have hzero : (front ++ rest).countP (fun aura => decide (u.getToggleGroup aura.1 = u.getToggleGroup old)) = 0 := by
    rw [List.countP_append]
    omega
  intro it hit
  rw [Bool.eq_false_iff]
  intro hsame
  refine List.countP_eq_zero.mp hzero it hit ?_
  rw [decide_eq_true_iff, (sameGroup_iff.mp hsame).2, heq]

theorem Exclusive.turnOnAura (hu : u.Exclusive) (hcareful : u.getToggleGroup skill = 0 → u.isActiveAura skill = false)
    {ok : Bool} (h : u.turnOnAura (some skill) level = some (ok, u')) : u'.Exclusive := by
  obtain ⟨hgroup, ⟨front, old, lv, rest, hl, hl', hold⟩ | ⟨hnone, hl'⟩⟩ := turnOnAura_cases h
  · have halone := hu.alone hl hold
    obtain ⟨hne, heq⟩ := sameGroup_iff.mp hold
    have hskill : skill ∉ (front ++ rest).map Prod.fst := by
      intro hmem
      obtain ⟨it, hit, rfl⟩ := List.mem_map.mp hmem
      have hself : u.sameGroup it.1 it.1 = true := sameGroup_iff.mpr ⟨heq ▸ hne, rfl⟩
      exact nomatch hself.symm.trans (halone it hit)
    have hperm : (front ++ (skill, level) :: rest).Perm ((skill, level) :: (front ++ rest)) := List.perm_middle
    have hperm' : (front ++ (old, lv) :: rest).Perm ((old, lv) :: (front ++ rest)) := List.perm_middle
    refine ⟨?_, fun g hg => ?_⟩
    · have hnodup := hu.nodup
      rw [hl, (hperm'.map Prod.fst).nodup_iff, List.map_cons, List.nodup_cons] at hnodup
      rw [hl', (hperm.map Prod.fst).nodup_iff, List.map_cons, List.nodup_cons]
      exact ⟨hskill, hnodup.2⟩
    · have hone := hu.group g hg
      rw [hl, hperm'.countP_eq, List.countP_cons, heq] at hone
      rw [hgroup, hl', hperm.countP_eq, List.countP_cons]
      exact hone
  · have hskill : skill ∉ u.m_vAura.map Prod.fst := by
      by_cases hzero : u.getToggleGroup skill = 0
      · exact not_isActiveAura_iff.mp (hcareful hzero)
      · intro hmem
        obtain ⟨it, hit, rfl⟩ := List.mem_map.mp hmem
        have hself : u.sameGroup it.1 it.1 = true := sameGroup_iff.mpr ⟨hzero, rfl⟩
        exact nomatch hself.symm.trans (hnone it hit)
    refine ⟨?_, fun g hg => ?_⟩
    · rw [hl', List.map_append, List.nodup_append]
      refine ⟨hu.nodup, List.pairwise_singleton _ _, fun a ha b hb hab => ?_⟩
      obtain rfl := List.mem_singleton.mp hb
      exact hskill (hab ▸ ha)
    · rw [hgroup, hl', List.countP_append, List.countP_singleton]
      split_ifs with hin
      · have hzero : (u.m_vAura.countP fun aura => u.getToggleGroup aura.1 = g) = 0 := by
          rw [List.countP_eq_zero]
          intro it hit hg'
          have hsame : u.sameGroup skill it.1 = true :=
            sameGroup_iff.mpr ⟨(of_decide_eq_true hg').trans_ne hg, (of_decide_eq_true hg').trans (of_decide_eq_true hin).symm⟩
          exact nomatch hsame.symm.trans (hnone it hit)
        omega
      · exact hu.group g hg

theorem Exclusive.turnOffAura (hu : u.Exclusive) (pSkill : Option Nat) : (u.turnOffAura pSkill).2.Exclusive := by
  refine hu.sublist (turnOffAura_group u pSkill) ?_
  cases pSkill with
  | none => exact List.Sublist.refl _
  | some skill =>
    rw [turnOffAura_vAura hu]
    exact List.filter_sublist

/-- What has been turned off is not active. -/
theorem turnOffAura_inactive (hu : u.Exclusive) : (u.turnOffAura (some skill)).2.isActiveAura skill = false := by
  rw [not_isActiveAura_iff, turnOffAura_vAura hu]
  intro hmem
  obtain ⟨it, hit, rfl⟩ := List.mem_map.mp hmem
  exact of_decide_eq_true (List.mem_filter.mp hit).2 rfl

/-- A toggled skill is turned off if it was active, and on if it was not. -/
theorem toggleAura_cases (h : u.toggleAura (some skill) level = some u') :
    u.isActiveAura skill = true ∧ u' = (u.turnOffAura (some skill)).2 ∨
      u.isActiveAura skill = false ∧ ∃ ok, u.turnOnAura (some skill) level = some (ok, u') := by
  unfold toggleAura at h
  cases hactive : u.isActiveAura skill with
  | true =>
    have hoff : (u.turnOffAura (some skill)).1 = true := by
      unfold turnOffAura
      dsimp only
      rw [if_pos hactive]
    rw [if_pos hoff] at h
    exact .inl ⟨rfl, (Option.some.inj h).symm⟩
  | false =>
    have hoff : u.turnOffAura (some skill) = (false, u) := by
      unfold turnOffAura
      dsimp only
      rw [if_neg (by rw [hactive]; exact Bool.false_ne_true)]
    rw [hoff, if_neg Bool.false_ne_true] at h
    obtain ⟨⟨ok, u₁⟩, hon, rfl⟩ := Option.map_eq_some_iff.mp h
    exact .inr ⟨rfl, ok, hon⟩

theorem Exclusive.toggleAura (hu : u.Exclusive) {pSkill : Option Nat} (h : u.toggleAura pSkill level = some u') :
    u'.Exclusive := by
  cases pSkill with
  | none => exact Option.some.inj h ▸ hu
  | some skill =>
    obtain ⟨-, rfl⟩ | ⟨hactive, ok, hon⟩ := toggleAura_cases h
    · exact hu.turnOffAura _
    · exact hu.turnOnAura (fun _ => hactive) hon

theorem exclusive_of_nil (h : u.m_vAura = []) : u.Exclusive := by
  refine ⟨?_, fun g _ => ?_⟩
  · rw [h]
    exact List.nodup_nil
  · rw [h]
    exact Nat.zero_le 1

theorem removeAllAura_vAura (u : AuraUnit) : u.removeAllAura.m_vAura = [] := by
  unfold removeAllAura
  split_ifs with h
  · exact h
  · rfl

/-- Beside an active skill there is no other of its group. -/
theorem Exclusive.alone_of_active (hu : u.Exclusive) (hactive : u.isActiveAura skill = true) {it : Nat × Int} (hit : it ∈ u.m_vAura)
    (hne : it.1 ≠ skill) : u.sameGroup skill it.1 = false := by
  rw [Bool.eq_false_iff]
  intro hsame
  obtain ⟨hgroup, heq⟩ := sameGroup_iff.mp hsame
  obtain ⟨own, hown, rfl⟩ := List.mem_map.mp (isActiveAura_iff.mp hactive)
  obtain ⟨front, rest, hsplit⟩ := List.append_of_mem hown
  have hothers : it ∈ front ++ rest := by
    rw [hsplit, List.mem_append, List.mem_cons] at hit
    rw [List.mem_append]
    exact hit.imp_right fun h => h.resolve_left fun h' => hne (congrArg Prod.fst h')
  have halone := hu.alone hsplit (sameGroup_iff.mpr ⟨heq ▸ hgroup, rfl⟩) it hothers
  exact nomatch halone.symm.trans hsame

/-- What has been turned on is active. -/
theorem turnOnAura_active {ok : Bool} (h : u.turnOnAura (some skill) level = some (ok, u')) : u'.isActiveAura skill = true := by
  rw [isActiveAura_iff]
  obtain ⟨-, ⟨front, old, lv, rest, -, hl', -⟩ | ⟨-, hl'⟩⟩ := turnOnAura_cases h
  · exact List.mem_map.mpr ⟨(skill, level), hl' ▸ List.mem_append_right _ List.mem_cons_self, rfl⟩
  · exact List.mem_map.mpr ⟨(skill, level), hl' ▸ List.mem_append_right _ List.mem_cons_self, rfl⟩

/-- A skill that is turned off and on again is the last of the list. -/
theorem Exclusive.offThenOn (hu : u.Exclusive) (hactive : u.isActiveAura skill = true) {ok : Bool}
    (hon : (u.turnOffAura (some skill)).2.turnOnAura (some skill) level = some (ok, u')) :
    u'.m_vAura = (u.turnOffAura (some skill)).2.m_vAura ++ [(skill, level)] := by
  obtain ⟨-, ⟨front, old, lv, rest, hl, -, hold⟩ | ⟨-, hl'⟩⟩ := turnOnAura_cases hon
  · -- an aura of the same group would have stood beside the skill
    obtain ⟨hne, heq⟩ := sameGroup_iff.mp hold
    rw [turnOffAura_group] at hne heq
    have hmem : (old, lv) ∈ (u.turnOffAura (some skill)).2.m_vAura := by
      rw [hl]
      exact List.mem_append_right _ List.mem_cons_self
    rw [turnOffAura_vAura hu, List.mem_filter, decide_eq_true_iff] at hmem
    exact nomatch (hu.alone_of_active hactive hmem.1 hmem.2).symm.trans (sameGroup_iff.mpr ⟨hne, heq⟩)
  · exact hl'

/-- A skill that is turned on and off again takes an aura of its group with it. -/
theorem Exclusive.onThenOff (hu : u.Exclusive) (hactive : u.isActiveAura skill = false) {ok : Bool}
    (hon : u.turnOnAura (some skill) level = some (ok, u')) :
    (u'.turnOffAura (some skill)).2.m_vAura = u.m_vAura.filter fun aura => !u.sameGroup skill aura.1 := by
  have hskill : skill ∉ u.m_vAura.map Prod.fst := not_isActiveAura_iff.mp hactive
  have hkeep : ∀ l : List (Nat × Int), (∀ it ∈ l, it ∈ u.m_vAura) → l.filter (fun aura => aura.1 ≠ skill) = l := by
    intro l hl
    refine List.filter_eq_self.mpr fun it hit => ?_
    rw [decide_eq_true_iff]
    rintro rfl
    exact hskill (List.mem_map_of_mem (hl it hit))
  rw [turnOffAura_vAura (hu.turnOnAura (fun _ => hactive) hon)]
  obtain ⟨-, ⟨front, old, lv, rest, hl, hl', hold⟩ | ⟨hnone, hl'⟩⟩ := turnOnAura_cases hon
  · have halone := hu.alone hl hold
    have hfilter : ∀ l : List (Nat × Int), (∀ it ∈ l, it ∈ front ++ rest) →
        l.filter (fun aura => !u.sameGroup skill aura.1) = l := fun l hl => List.filter_eq_self.mpr fun it hit => by
      rw [halone it (hl it hit)]
      rfl
    rw [hl', hl, List.filter_append, List.filter_append, List.filter_cons_of_neg (by simp),
      List.filter_cons_of_neg (by rw [hold]; exact Bool.false_ne_true),
      hkeep front fun it hit => hl ▸ List.mem_append_left _ hit,
      hkeep rest fun it hit => hl ▸ List.mem_append_right _ (List.mem_cons_of_mem _ hit),
      hfilter front fun it hit => List.mem_append_left _ hit, hfilter rest fun it hit => List.mem_append_right _ hit]
  · rw [hl', List.filter_append, List.filter_cons_of_neg (by simp), List.filter_nil, List.append_nil, hkeep _ fun _ h => h]
    refine (List.filter_eq_self.mpr fun it hit => ?_).symm
    rw [hnone it hit]
    rfl

theorem Exclusive.twiceRight (hu : u.Exclusive) : u.TwiceRight := by
  intro skill level level' u' u'' hfirst hsecond
  obtain ⟨hactive, rfl⟩ | ⟨hactive, ok, hon⟩ := toggleAura_cases hfirst
  · rw [if_pos hactive, ← turnOffAura_vAura hu]
    obtain ⟨hactive', -⟩ | ⟨-, ok, hon⟩ := toggleAura_cases hsecond
    · exact nomatch hactive'.symm.trans (turnOffAura_inactive hu)
    · exact hu.offThenOn hactive hon
  · rw [if_neg (by rw [hactive]; exact Bool.false_ne_true)]
    obtain ⟨-, rfl⟩ | ⟨hnot, -⟩ := toggleAura_cases hsecond
    · exact hu.onThenOff hactive hon
    · exact nomatch (turnOnAura_active hon).symm.trans hnot

end

/-! ## Runs -/

theorem exclusive_of_run {hist : History AuraUnit ToggleEvent} {u : AuraUnit}
    (hrun : toggleSystem.RunWhere (fun _ => Careful) hist u) : u.Exclusive := by
  refine hrun.invariant (I := fun _ u => u.Exclusive) (fun u h => exclusive_of_nil h) ?_
  intro h u e u' _ hu hcareful hstep
  cases e with
  | turnOnAura pSkill level =>
    obtain ⟨⟨ok, u₁⟩, hon, rfl⟩ := Option.map_eq_some_iff.mp hstep
    cases pSkill with
    | none =>
      obtain ⟨-, rfl⟩ := Prod.mk.inj (Option.some.inj hon)
      exact hu
    | some skill => exact hu.turnOnAura hcareful hon
  | turnOffAura pSkill => exact Option.some.inj hstep ▸ hu.turnOffAura pSkill
  | toggleAura pSkill level => exact hu.toggleAura hstep
  | removeAllAura => exact Option.some.inj hstep ▸ exclusive_of_nil (removeAllAura_vAura u)

/-- **The auras of a unit.** In every run in which a skill without a toggle group is turned on only while it is not active, no
skill is active twice and no toggle group has two auras; turning an aura off leaves the others in their order, and toggling
twice leaves the others but those of the same group. -/
theorem auraExclusive {hist : History AuraUnit ToggleEvent} {u : AuraUnit}
    (hrun : toggleSystem.RunWhere (fun _ => Careful) hist u) : u.Exclusive ∧ u.OffRight ∧ u.TwiceRight :=
  have hu := exclusive_of_run hrun
  ⟨hu, fun _ => turnOffAura_vAura hu, hu.twiceRight⟩

/-- The skills 1 and 2 are of one toggle group, all others of none. -/
def auraUnit (vAura : List (Nat × Int)) : AuraUnit where
  getToggleGroup skill := if skill = 1 ∨ skill = 2 then 7 else 0
  getSkillId skill := skill
  told := false
  m_vAura := vAura

theorem auraExclusive_toggle :
    (auraUnit [(1, 5)]).Exclusive ∧ (auraUnit [(1, 5)]).OffRight ∧ (auraUnit [(1, 5)]).TwiceRight :=
  auraExclusive (.step (e := ToggleEvent.toggleAura (some 1) 5) (t := auraUnit [(1, 5)]) (.init (s := auraUnit []) rfl) True.intro rfl)

/-- `TurnOnAura` lists a skill without a toggle group again; and the aura that a toggled skill has replaced does not come back
with the next toggle. -/
theorem not_auraExclusive :
    (∃ hist u, toggleSystem.Run hist u ∧ ¬u.Exclusive) ∧
      ∃ hist u u' u'', toggleSystem.Run hist u ∧ u.isActiveAura 2 = false ∧ u.toggleAura (some 2) 1 = some u' ∧
        u'.toggleAura (some 2) 1 = some u'' ∧ u''.m_vAura ≠ u.m_vAura := by
  have hone : toggleSystem.Run [⟨auraUnit [], .turnOnAura (some 3) 1, auraUnit [(3, 1)]⟩] (auraUnit [(3, 1)]) :=
    .step (.init rfl) trivial rfl
  have hreplaced : toggleSystem.Run [⟨auraUnit [], .toggleAura (some 1) 5, auraUnit [(1, 5)]⟩] (auraUnit [(1, 5)]) :=
    .step (.init rfl) trivial rfl
  refine ⟨⟨_, auraUnit [(3, 1), (3, 1)], .step (e := ToggleEvent.turnOnAura (some 3) 1) hone trivial rfl, fun h => ?_⟩,
    _, _, auraUnit [(2, 1)], auraUnit [], hreplaced, rfl, rfl, rfl, nofun⟩
  exact absurd h.nodup (by decide)

end AuraUnit

/-! ## The owner of the auras -/

/-- For a skill with a valid toggle group, toggling does to the list of the owner what `ToggleAura` does. -/
theorem AuraOwner.toggleAura_eq {o : AuraOwner} {u u' : AuraUnit} (hgroup : ∀ q, u.getToggleGroup q = (o.skills q).nToggleGroup)
    (hlist : u.m_vAura = o.m_vAura) {skill : Nat} {level : Int} (h : u.toggleAura (some skill) level = some u') :
    u'.m_vAura = (o.toggleAura skill level).m_vAura := by
  unfold AuraOwner.toggleAura
  rw [← hlist]
  obtain ⟨hactive, rfl⟩ | ⟨hactive, ok, hon⟩ := AuraUnit.toggleAura_cases h
  · rw [if_pos (AuraUnit.isActiveAura_iff.mp hactive)]
    unfold AuraUnit.turnOffAura
    dsimp only
    rw [if_pos hactive]
  · rw [if_neg (AuraUnit.not_isActiveAura_iff.mp hactive)]
    have hreplace : ∀ l, o.replaceAura skill level l =
        ((AuraUnit.replaceFirst (u.sameGroup skill) (skill, level) l).map Prod.snd).getD (l ++ [(skill, level)]) := by
      intro l
      induction l with
      | nil => rfl
      | cons it l ih =>
        have hsame : u.sameGroup skill it.1 = true ↔
            u.getToggleGroup it.1 ≠ 0 ∧ u.getToggleGroup it.1 = u.getToggleGroup skill := AuraUnit.sameGroup_iff
        rw [hgroup, hgroup] at hsame
        rw [AuraOwner.replaceAura, AuraUnit.replaceFirst]
        by_cases hit : u.sameGroup skill it.1 = true
        · rw [if_pos (hsame.mp hit), if_pos hit]
          rfl
        · rw [if_neg (mt hsame.mpr hit), if_neg hit, ih]
          cases AuraUnit.replaceFirst (u.sameGroup skill) (skill, level) l <;> rfl
    dsimp only
    rw [hreplace]
    dsimp only [AuraUnit.turnOnAura] at hon
    split_ifs at hon
    cases hr : AuraUnit.replaceFirst (u.sameGroup skill) (skill, level) u.m_vAura with
    | none =>
      rw [hr] at hon
      obtain ⟨-, rfl⟩ := Prod.mk.inj (Option.some.inj hon)
      exact AuraUnit.sendAura_vAura _ _ _
    | some r =>
      rw [hr] at hon
      obtain ⟨-, rfl⟩ := Prod.mk.inj (Option.some.inj hon)
      exact AuraUnit.sendAura_vAura _ _ _

end RZEmulator.Chihiro
