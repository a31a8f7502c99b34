import RZEmulator.Chihiro.StateOwnership
import RZEmulator.Chihiro.StateSave

/-!
# Death and resurrection

What `removeStateByDead`, `RestoreRemovedStateByDeath`, `Resurrect` and `ResurrectByState` do to the states of a unit, one after
the other. A death removes the states with `AF_ERASE_ON_DEAD`, and the resurrection restores none that has it: what the death has
removed is lost (`deathRight_iff`).
-/

namespace RZEmulator.Chihiro

open Lib

def SEF_RESURRECTION : Int := 109

namespace UnitStates

open AttributeFlag

/-! ## Resurrection -/

/-- The part of `Resurrect` that is about the states. -/
def resurrect (u : UnitStates) (c : Circumstances) (bIsRestoreRemovedStateByDead : Bool) : Option UnitStates :=
  if bIsRestoreRemovedStateByDead then u.restoreRemovedStateByDeath c else some u.clearRemovedStateByDeath

def effectType (s : State) : Int := (s.m_pTemplate.map StateTemplate.effect_type).getD 0

/-- A turn of the loop of `ResurrectByState`. -/
def betterResurrectState (u : UnitStates) (pResurrectState : Option StatePtr) (p : StatePtr) : Option StatePtr :=
  if effectType (u.states p) = SEF_RESURRECTION then
    match pResurrectState with
    | none => some p
    | some q => if (u.states q).getLevel < (u.states p).getLevel then some p else some q
  else pResurrectState

/-- The part of `ResurrectByState` that is about the states; without a state to resurrect with there is no resurrection. -/
def resurrectByState (u : UnitStates) : Option UnitStates :=
  (u.m_vStateList.foldl u.betterResurrectState none).bind fun p =>
    u.clearRemovedStateByDeath.removeState (u.states p).m_nCode GameRule.MAX_STATE_LEVEL

/-! ## What is claimed -/

/-- The states that a death leaves. -/
def survivors (u : UnitStates) : List StatePtr := u.m_vStateList.filter fun p => !(u.states p).has AF_ERASE_ON_DEAD

/-- The states that a death takes and that are not harmful. -/
def taken (u : UnitStates) : List StatePtr :=
  u.m_vStateList.filter fun p => (u.states p).has AF_ERASE_ON_DEAD && !(u.states p).isHarmful

/-- The state `s'` has what `s` had at the death: its level, and its remaining time. -/
structure RestoredAs (c : Circumstances) (s s' : State) : Prop where
  code : s'.m_nCode = s.m_nCode
  level : s'.getLevel = s.getLevel
  remaining : DamagingState.remaining s'.getEndTime c.arTime = DamagingState.remaining s.getEndTime c.deadTime

/-- Those that have survived are in the list `w`, and a state for each that was taken. Deletions that a death owes to an earlier
one have been requested. -/
def GivenBack (c : Circumstances) (u w : UnitStates) : Prop :=
  ∃ restored : List StatePtr, w.m_vStateList.Perm (u.survivors ++ restored) ∧ restored.Nodup ∧
    List.Forall₂ (fun p q => RestoredAs c (u.states p) (w.states q)) u.taken restored ∧
    ∀ p ∈ u.survivors, w.states p = u.clearRemovedStateByDeath.states p

/-- A death, and a resurrection that restores states or does not. -/
structure DeathRight (u : UnitStates) (c : Circumstances) : Prop where
  restored : ∃ w, u.removeStateByDead.resurrect c true = some w ∧ GivenBack c u w ∧ w.m_vStateListRemovedByDeath = []
  discarded : ∃ w, u.removeStateByDead.resurrect c false = some w ∧ w.m_vStateListRemovedByDeath = [] ∧
    w.m_vStateList = u.survivors ∧ ∀ p ∈ u.survivors, w.states p = u.clearRemovedStateByDeath.states p
  byState : ∀ w, u.removeStateByDead.resurrectByState = some w → w.m_vStateListRemovedByDeath = []

/-! ## What the death leaves -/

section

variable {u : UnitStates} {c : Circumstances} {ps : List StatePtr} {p : StatePtr}

theorem foldl_deleteThis_states (ps : List StatePtr) (u : UnitStates) (hp : p ∉ ps) :
    (ps.foldl deleteThis u).states p = u.states p := by
  induction ps generalizing u with
  | nil => rfl
  | cons q ps ih =>
    rw [List.mem_cons, not_or] at hp
    rw [List.foldl_cons, ih _ hp.2, deleteThis, updState_states, if_neg hp.1]

theorem clearRemovedStateByDeath_has (u : UnitStates) (p : StatePtr) (flag : Nat) :
    (u.clearRemovedStateByDeath.states p).has flag = (u.states p).has flag :=
  has_congr ((foldl_deleteThis u.m_vStateListRemovedByDeath u).2.2.2.1 p) flag

theorem clearRemovedStateByDeath_list (u : UnitStates) : u.clearRemovedStateByDeath.m_vStateList = u.m_vStateList :=
  (foldl_deleteThis u.m_vStateListRemovedByDeath u).2.2.2.2

/-- A death leaves the survivors, and what it keeps for a resurrection has been taken because of its flag. -/
structure Dead (u v : UnitStates) : Prop where
  list : v.m_vStateList = u.survivors
  states : ∀ p ∈ u.survivors, v.states p = u.clearRemovedStateByDeath.states p
  flagged : ∀ p ∈ v.m_vStateListRemovedByDeath, (v.states p).has AF_ERASE_ON_DEAD = true
  apart : ∀ p ∈ u.survivors, p ∉ v.m_vStateListRemovedByDeath

theorem dead_removeStateByDead (u : UnitStates) : Dead u u.removeStateByDead := by
  have hsurvivors : (u.clearRemovedStateByDeath.m_vStateList.filter fun p =>
      !(u.clearRemovedStateByDeath.states p).has AF_ERASE_ON_DEAD) = u.survivors := by
    rw [clearRemovedStateByDeath_list]
    exact congrArg (List.filter · _) (funext fun p => by rw [clearRemovedStateByDeath_has])
  unfold removeStateByDead
  dsimp only
  rw [removeStateIf_eq]
  dsimp only
  rw [hsurvivors]
  have hno : ∀ p ∈ u.survivors, p ∉ u.clearRemovedStateByDeath.m_vStateList.filter fun p =>
      (u.clearRemovedStateByDeath.states p).has AF_ERASE_ON_DEAD := by
    intro p hp hmem
    have hflag := (List.mem_filter.mp hmem).2
    rw [clearRemovedStateByDeath_has] at hflag
    have hnone := (List.mem_filter.mp hp).2
    rw [hflag] at hnone
    exact absurd hnone (by decide)
  split_ifs
  · obtain ⟨hlist, htemplate, hstates, hremoved⟩ := foldl_keepRemoved
      (u.clearRemovedStateByDeath.m_vStateList.filter fun p => (u.clearRemovedStateByDeath.states p).has AF_ERASE_ON_DEAD)
      { u.clearRemovedStateByDeath with m_vStateList := u.survivors }
    refine ⟨hlist, fun p hp => hstates p (hno p hp), fun p hp => ?_, fun p hp hmem => ?_⟩
    · rw [has_congr (htemplate p)]
      rcases hremoved p hp with hmem | hmem
      · cases hmem
      · exact (List.mem_filter.mp hmem).2
    · rcases hremoved p hmem with hmem | hmem
      · cases hmem
      · exact hno p hp hmem
  · exact ⟨rfl, fun _ _ => rfl, nofun, fun _ _ => nofun⟩

/-! ## What comes back -/

theorem Dead.resurrect {v : UnitStates} (h : Dead u v) (b : Bool) : v.resurrect c b = some v.clearRemovedStateByDeath := by
  unfold UnitStates.resurrect
  split_ifs
  · -- the loop skips what the death has removed
    rw [restoreRemovedStateByDeath, restoreLoop_of_erasable h.flagged]
    rfl
  · rfl

theorem Dead.cleared {v : UnitStates} (h : Dead u v) : v.clearRemovedStateByDeath.m_vStateList = u.survivors ∧
    ∀ p ∈ u.survivors, v.clearRemovedStateByDeath.states p = u.clearRemovedStateByDeath.states p := by
  refine ⟨(clearRemovedStateByDeath_list v).trans h.list, fun p hp => ?_⟩
  exact (foldl_deleteThis_states _ v (h.apart p hp)).trans (h.states p hp)

theorem removeFound_removed {u w : UnitStates} {found : State → Bool} (hw : u.removeFound found = some w) :
    w.m_vStateListRemovedByDeath = u.m_vStateListRemovedByDeath := by
  unfold removeFound at hw
  split at hw
  · rw [Option.some.inj hw]
  · obtain ⟨next, -, rfl⟩ := Option.map_eq_some_iff.mp hw
    rfl

theorem resurrectByState_removed {u w : UnitStates} (hw : u.resurrectByState = some w) : w.m_vStateListRemovedByDeath = [] := by
  obtain ⟨p, -, hremove⟩ := Option.bind_eq_some_iff.mp hw
  exact removeFound_removed hremove

/-- Everything is as it is to be if and only if the death takes no state that is not harmful. -/
theorem deathRight_iff (u : UnitStates) (c : Circumstances) :
    DeathRight u c ↔ ∀ p ∈ u.m_vStateList, (u.states p).has AF_ERASE_ON_DEAD = true → (u.states p).isHarmful = true := by
  have hdead := dead_removeStateByDead u
  obtain ⟨hlist, hstates⟩ := hdead.cleared
  have htaken : u.taken = [] ↔ ∀ p ∈ u.m_vStateList, (u.states p).has AF_ERASE_ON_DEAD = true → (u.states p).isHarmful = true := by
    unfold taken
    rw [List.filter_eq_nil_iff]
    simp
  rw [← htaken]
  constructor
  · intro hright
    obtain ⟨w, hw, ⟨restored, hperm, -, hback, -⟩, -⟩ := hright.restored
    rw [hdead.resurrect] at hw
    obtain rfl := Option.some.inj hw
    rw [hlist] at hperm
    have hlen := hperm.length_eq
    rw [List.length_append] at hlen
    have hnil : restored = [] := List.length_eq_zero_iff.mp (by omega)
    rw [hnil] at hback
    exact List.forall₂_nil_right_iff.mp hback
  · intro hnone
    refine ⟨⟨_, hdead.resurrect true, ⟨[], ?_, .nil, ?_, hstates⟩, rfl⟩, ⟨_, hdead.resurrect false, rfl, hlist, hstates⟩,
      fun _ => resurrectByState_removed⟩
    · rw [List.append_nil, hlist]
    · rw [hnone]
      exact .nil

end

/-- A player with a state that is not harmful and that his death erases. -/
def blessed : UnitStates where
  kind := .player
  stateInfo _ := some { state_time_type := AF_ERASE_ON_DEAD }
  states _ :=
    { m_nCode := 1001
      m_nUID := 1
      m_nLevel := fun _ => 1
      m_hCaster := fun _ => 0
      m_nStartTime := fun _ => 0
      m_nEndTime := fun _ => 500
      m_bAura := false
      m_pTemplate := some { state_time_type := AF_ERASE_ON_DEAD } }
  nextState := 1
  m_vStateList := [0]
  m_vStateListRemovedByDeath := []
  m_nCurrentStateUID := 1

/-- It is kept at the death, and it does not come back. -/
theorem not_deathRight_blessed : blessed.removeStateByDead.m_vStateListRemovedByDeath = [0] ∧
    ¬DeathRight blessed { deadTime := 100, arTime := 200 } := by
  refine ⟨by decide, fun hright => ?_⟩
  obtain ⟨w, hw, ⟨restored, hperm, -, hback, -⟩, -⟩ := hright.restored
  rw [(dead_removeStateByDead blessed).resurrect] at hw
  obtain rfl := Option.some.inj hw
  have hlen := hperm.length_eq
  have hone : restored.length = 1 := hback.length_eq.symm
  rw [List.length_append, hone] at hlen
  exact absurd hlen (by decide)

end UnitStates

end RZEmulator.Chihiro
