import RZEmulator.Chihiro.StateOwnership

/-!
# Removing states by a predicate

`RemoveStateIf` compacts the state list in place and collects what it takes out behind what the result list holds
already. The clients hear of everything that the result list holds afterwards.
-/

namespace RZEmulator.Chihiro

/-- What `RemoveStateIf` calls when the list has been compacted. -/
inductive RemovalCall
  /-- `onUpdateState(state, true)`. -/
  | onUpdateState (state : StatePtr)
  | onAfterRemoveState (state : StatePtr)
  | calculateStat
  deriving DecidableEq, Repr

/-- The unit, the result list (`none` for a null pointer) and the calls, in their order. -/
structure Removal where
  unit : UnitStates
  result : Option (List StatePtr)
  calls : List RemovalCall

namespace UnitStates

variable {u : UnitStates} {comparer : StatePtr → Bool} {result : Option (List StatePtr)}

/-- `RemoveStateIf`. -/
def removeStateIfInto (u : UnitStates) (comparer : StatePtr → Bool) (result : Option (List StatePtr)) : Removal :=
  let (trail, vStateList, removedStates) :=
    removeIfLoop comparer u.m_vStateList.length 0 0 u.m_vStateList (result.getD [])
  { unit := { u with m_vStateList := vStateList.take trail }
    result := result.map fun _ => removedStates
    calls := (removedStates.flatMap fun state => [.onUpdateState state, .onAfterRemoveState state]) ++
      if removedStates.isEmpty then [] else [.calculateStat] }

theorem removeStateIfInto_eq (u : UnitStates) (comparer : StatePtr → Bool) (result : Option (List StatePtr)) :
    (u.removeStateIfInto comparer result).unit =
        { u with m_vStateList := u.m_vStateList.filter fun p => !comparer p } ∧
      (u.removeStateIfInto comparer result).result = result.map (· ++ u.m_vStateList.filter comparer) := by
  obtain ⟨hkept, hgone⟩ := removeIfLoop_spec comparer u.m_vStateList.length 0 0 u.m_vStateList (result.getD [])
    (Nat.le_refl 0) (by omega)
  rw [List.drop_zero] at hkept hgone
  unfold removeStateIfInto
  dsimp only
  refine ⟨by rw [hkept]; rfl, ?_⟩
  rw [hgone]
  cases result with
  | none => rfl
  | some removed => rfl

/-- An empty result list gives the call that a death makes. -/
theorem removeStateIf_eq_into (u : UnitStates) (comparer : State → Bool) :
    (some (u.removeStateIf comparer).1, (u.removeStateIf comparer).2) =
      ((u.removeStateIfInto (fun p => comparer (u.states p)) (some [])).result,
        (u.removeStateIfInto (fun p => comparer (u.states p)) (some [])).unit) := by
  obtain ⟨hunit, hresult⟩ := removeStateIfInto_eq u (fun p => comparer (u.states p)) (some [])
  rw [hunit, hresult, removeStateIf_eq]
  rfl

/-- The list and the result list together hold what they held before. -/
theorem removeStateIfInto_perm {removed removed' : List StatePtr} (hresult : result = some removed)
    (hremoved : (u.removeStateIfInto comparer result).result = some removed') :
    (removed' ++ (u.removeStateIfInto comparer result).unit.m_vStateList).Perm (removed ++ u.m_vStateList) := by
  obtain ⟨hunit, heq⟩ := removeStateIfInto_eq u comparer result
  rw [hresult] at heq hremoved hunit ⊢
  have happend : removed' = removed ++ u.m_vStateList.filter comparer :=
    Option.some.inj (hremoved.symm.trans heq)
  rw [hunit, happend, List.append_assoc]
  exact (List.filter_append_perm comparer u.m_vStateList).append_left removed

/-- What was taken out satisfies the predicate and follows what the result list held; the rest is left, in order. -/
structure StablePartition (comparer : StatePtr → Bool) (u : UnitStates) (result : Option (List StatePtr))
    (r : Removal) : Prop where
  kept : r.unit.m_vStateList = u.m_vStateList.filter fun p => !comparer p
  taken : r.result = result.map (· ++ u.m_vStateList.filter comparer)
  perm : ∀ removed removed', result = some removed → r.result = some removed' →
    (removed' ++ r.unit.m_vStateList).Perm (removed ++ u.m_vStateList)
  unit : r.unit = { u with m_vStateList := r.unit.m_vStateList }

theorem removeStateIf_stablePartition (u : UnitStates) (comparer : StatePtr → Bool)
    (result : Option (List StatePtr)) : StablePartition comparer u result (u.removeStateIfInto comparer result) where
  kept := by rw [(removeStateIfInto_eq u comparer result).1]
  taken := (removeStateIfInto_eq u comparer result).2
  perm _ _ hresult hremoved := removeStateIfInto_perm hresult hremoved
  unit := by rw [(removeStateIfInto_eq u comparer result).1]

end UnitStates

end RZEmulator.Chihiro
