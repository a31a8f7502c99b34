import RZEmulator.Chihiro.UnitState
import RZEmulator.Lib.Ownership
import RZEmulator.Lib.Run

/-!
# Who owns the states of a unit

Every state that has been allocated is to be in one place: in the state list, in the list of the states that a
death has removed, or requested for deletion. All that a function may do is to move states between the two
lists and to request the deletion of what it takes out, which is `Frees`; the invariant is kept by it
(`Ok.frees`) and by the allocation of a new state. `Careful` says when a function does no more than that.
-/

namespace RZEmulator.Chihiro

open Lib

namespace UnitStates

open AttributeFlag

variable {u u' u'' : UnitStates} {p q : StatePtr} {gone gone' : List StatePtr} {c : Circumstances} {t : Nat}
  {found : State → Bool}

/-! ## The books -/

/-- Everything in one of the two lists. -/
def held (u : UnitStates) : List StatePtr := u.m_vStateList ++ u.m_vStateListRemovedByDeath

def requests (u : UnitStates) (p : StatePtr) : Nat := (u.states p).deleteRequests

/-- What the functions keep: each state has one owner, and what a death has removed is of the kind that a
death removes. -/
structure Ok (u : UnitStates) : Prop where
  owned : Owned u.nextState u.held u.requests
  erasable : ∀ p ∈ u.m_vStateListRemovedByDeath, (u.states p).has AF_ERASE_ON_DEAD = true

theorem requests_deleteThis (u : UnitStates) (p q : StatePtr) :
    (u.deleteThis p).requests q = u.requests q + [p].count q := by
  unfold requests
  rw [deleteThis, updState_states, List.count_singleton]
  by_cases hq : q = p
  · rw [if_pos hq, if_pos (by simpa using hq.symm), hq]
  · rw [if_neg hq, if_neg (by simpa using Ne.symm hq), Nat.add_zero]

theorem template_deleteThis (u : UnitStates) (p q : StatePtr) :
    ((u.deleteThis p).states q).m_pTemplate = (u.states q).m_pTemplate := by
  rw [deleteThis, updState_states]
  split_ifs with hq
  · rw [hq]
  · rfl

/-- The two lists only lose `gone`, each element of which is requested for deletion once more. -/
structure Frees (gone : List StatePtr) (u u' : UnitStates) : Prop where
  nextState : u'.nextState = u.nextState
  requests : ∀ p, u'.requests p = u.requests p + gone.count p
  template : ∀ p, (u'.states p).m_pTemplate = (u.states p).m_pTemplate
  held : u.held.Perm (gone ++ u'.held)
  erasable : ∀ p ∈ u'.m_vStateListRemovedByDeath,
    p ∈ u.m_vStateListRemovedByDeath ∨ (u.states p).has AF_ERASE_ON_DEAD = true

theorem has_congr {s s' : State} (h : s'.m_pTemplate = s.m_pTemplate) (flag : Nat) : s'.has flag = s.has flag := by
  unfold State.has State.getTimeType
  rw [h]

theorem Ok.frees (hu : Ok u) (h : Frees gone u u') : Ok u' where
  owned := by
    rw [h.nextState]
    exact (hu.owned.perm h.held.symm).free h.requests
  erasable p hp := by
    rw [has_congr (h.template p)]
    exact (h.erasable p hp).elim (hu.erasable p) id

namespace Frees

theorem refl (u : UnitStates) : Frees [] u u :=
  ⟨rfl, fun _ => rfl, fun _ => rfl, .refl _, fun _ => .inl⟩

theorem trans (h : Frees gone u u') (h' : Frees gone' u' u'') : Frees (gone ++ gone') u u'' where
  nextState := h'.nextState.trans h.nextState
  requests p := by rw [h'.requests, h.requests, List.count_append, Nat.add_assoc]
  template p := (h'.template p).trans (h.template p)
  held := by
    rw [List.append_assoc]
    exact h.held.trans (h'.held.append_left gone)
  erasable p hp := by
    rcases h'.erasable p hp with hmem | hflag
    · exact h.erasable p hmem
    · rw [has_congr (h.template p)] at hflag
      exact .inr hflag

/-- A change of a state that leaves its template and the requests for it alone. -/
theorem updState (u : UnitStates) (p : StatePtr) {f : State → State}
    (hf : ∀ s, (f s).m_pTemplate = s.m_pTemplate ∧ (f s).deleteRequests = s.deleteRequests) :
    Frees [] u (u.updState p f) := by
  have hstate : ∀ q, ((u.updState p f).states q).m_pTemplate = (u.states q).m_pTemplate ∧
      (u.updState p f).requests q = u.requests q := fun q => by
    unfold UnitStates.requests
    rw [updState_states]
    split_ifs with hq
    · rw [hq]
      exact hf _
    · exact ⟨rfl, rfl⟩
  exact ⟨rfl, fun q => (hstate q).2, fun q => (hstate q).1, .refl _, fun _ => .inl⟩

/-- `DeleteThis` for a state that the lists have just lost. -/
theorem delete (u : UnitStates) (vStateList removed : List StatePtr)
    (hheld : u.held.Perm (p :: (vStateList ++ removed)))
    (hremoved : ∀ q ∈ removed, q ∈ u.m_vStateListRemovedByDeath) :
    Frees [p] u ({ u with m_vStateList := vStateList, m_vStateListRemovedByDeath := removed }.deleteThis p) where
  nextState := rfl
  requests := requests_deleteThis _ p
  template := template_deleteThis _ p
  held := hheld
  erasable q hq := .inl (hremoved q hq)

end Frees

/-! ## Allocation -/

theorem Ok.allocState (hu : Ok u) {s : State} (hs : s.deleteRequests = 0) : Ok (u.allocState s) := by
  have hother : ∀ q ∈ u.held, (u.allocState s).states q = u.states q := fun q hq =>
    if_neg (hu.owned.ne_of_mem hq)
  refine ⟨?_, fun q hq => ?_⟩
  · have hheld : (u.allocState s).held.Perm (u.nextState :: u.held) := by
      unfold held UnitStates.allocState
      rw [List.append_assoc]
      exact List.perm_middle
    have hrequests : (u.allocState s).requests = u.requests := by
      funext q
      unfold requests
      by_cases hq : q = u.nextState
      · have hnone := hu.owned u.nextState
        rw [if_neg (Nat.lt_irrefl _)] at hnone
        rw [hq, show (u.allocState s).states u.nextState = s from if_pos rfl, hs]
        unfold requests at hnone
        omega
      · rw [show (u.allocState s).states q = u.states q from if_neg hq]
    rw [hrequests]
    exact hu.owned.alloc.perm hheld
  · rw [hother q (List.mem_append_right _ hq)]
    exact hu.erasable q hq

/-! ## Replacement -/

theorem deleteUID_frees (u : UnitStates) (uid : Nat) : ∃ gone, Frees gone u (u.deleteUID uid) := by
  unfold deleteUID
  cases hfind : u.m_vStateList.findIdx? fun p => (u.states p).m_nUID == uid with
  | none => exact ⟨[], .refl u⟩
  | some i =>
    dsimp only
    cases hget : u.m_vStateList[i]? with
    | none => exact ⟨[], .refl u⟩
    | some p =>
      obtain ⟨hi, rfl⟩ := List.getElem?_eq_some_iff.mp hget
      refine ⟨_, .delete u _ _ ?_ fun _ h => h⟩
      rw [← List.cons_append]
      exact (List.getElem_cons_eraseIdx_perm hi).symm.append_right _

theorem foldl_deleteUID_frees (uids : List Nat) (u : UnitStates) :
    ∃ gone, Frees gone u (uids.foldl deleteUID u) := by
  induction uids generalizing u with
  | nil => exact ⟨[], .refl u⟩
  | cons uid uids ih =>
    obtain ⟨gone, hone⟩ := deleteUID_frees u uid
    obtain ⟨gone', hrest⟩ := ih (u.deleteUID uid)
    exact ⟨gone ++ gone', hone.trans hrest⟩

theorem addState_template (s : State) (type : StateType) (caster level start_time end_time : Nat) (aura : Bool) :
    (s.addState type caster level start_time end_time aura).m_pTemplate = s.m_pTemplate ∧
      (s.addState type caster level start_time end_time aura).deleteRequests = s.deleteRequests := by
  unfold State.addState
  split_ifs
  · exact ⟨rfl, rfl⟩
  · exact ⟨rfl, rfl⟩

theorem Ok.putState (hu : Ok u) (a : NewState) (uids : List Nat) : Ok (u.putState a uids) := by
  obtain ⟨gone, hgone⟩ := foldl_deleteUID_frees uids u
  have hafter := hu.frees hgone
  unfold UnitStates.putState
  dsimp only
  split_ifs with hexist
  · cases getState (uids.foldl deleteUID u) a.code with
    | none => exact hafter
    | some p => exact hafter.frees (.updState _ p fun s => addState_template s _ _ _ _ _ _)
  · exact hafter.allocState rfl

theorem Ok.addStatePast (hu : Ok u) (info : StateTemplate) (a : NewState) : Ok (u.addStatePast info a).2 := by
  unfold UnitStates.addStatePast
  cases u.duplicates info a u.m_vStateList with
  | none => exact hu
  | some uids => exact hu.putState a uids

/-! ## Removal -/

/-- Some state of the list meets `found`. -/
def holds (u : UnitStates) (found : State → Bool) : Bool := u.m_vStateList.any fun p => found (u.states p)

theorem removeFound_of_not_holds (h : u.holds found = false) : u.removeFound found = some u := by
  have hnone : (u.m_vStateList.findIdx? fun p => found (u.states p)) = none := by
    rw [List.findIdx?_eq_none_iff]
    intro p hp
    exact List.any_eq_false.mp h p hp |> Bool.eq_false_iff.mpr
  rw [removeFound, hnone]

theorem removeGoodLoop_of_not_holds {state_level : Int} {ps : List StatePtr}
    (h : ∀ p ∈ ps, ¬(u.states p).isHarmful = true ∧ (u.states p).getTimeType ≠ 0 →
      u.holds (matchesState (u.states p).m_nCode state_level) = false) :
    u.removeGoodLoop state_level ps = some u := by
  induction ps with
  | nil => rfl
  | cons p ps ih =>
    have hrest := ih fun q hq => h q (List.mem_cons_of_mem p hq)
    unfold removeGoodLoop
    split_ifs with hp
    · rw [removeState, removeFound_of_not_holds (h p List.mem_cons_self hp), Option.bind_some, if_pos rfl]
      exact hrest
    · exact hrest

theorem clearExpiredState_template (s : State) (t : Nat) :
    (s.clearExpiredState t).m_pTemplate = s.m_pTemplate ∧
      (s.clearExpiredState t).deleteRequests = s.deleteRequests := ⟨rfl, rfl⟩

theorem clearExpiredLoop_frees (ps : List StatePtr) (u : UnitStates) : Frees [] u (clearExpiredLoop c t ps u).2 ∧
    (clearExpiredLoop c t ps u).2.m_vStateList = u.m_vStateList ∧
    (clearExpiredLoop c t ps u).2.m_vStateListRemovedByDeath = u.m_vStateListRemovedByDeath := by
  induction ps generalizing u with
  | nil => exact ⟨.refl u, rfl, rfl⟩
  | cons p ps ih =>
    obtain ⟨hfrees, hlist, hremoved⟩ := ih (u.updState p (·.clearExpiredState t))
    exact ⟨(Frees.updState u p fun s => clearExpiredState_template s t).trans hfrees, hlist, hremoved⟩

/-- The loop keeps every state, if the states differ: what it does to one does not change the next. -/
theorem clearExpiredLoop_kept {ps : List StatePtr} (hps : ps.Nodup)
    (h : ∀ p ∈ ps, erases c t (u.states p) = false) : (clearExpiredLoop c t ps u).1 = ps := by
  induction ps generalizing u with
  | nil => rfl
  | cons p ps ih =>
    obtain ⟨hp, hps⟩ := List.nodup_cons.mp hps
    have hrest : (clearExpiredLoop c t ps (u.updState p (·.clearExpiredState t))).1 = ps := by
      refine ih hps fun q hq => ?_
      have hne : q ≠ p := fun heq => hp (heq ▸ hq)
      rw [show (u.updState p (·.clearExpiredState t)).states q = u.states q from if_neg hne]
      exact h q (List.mem_cons_of_mem p hq)
    unfold clearExpiredLoop
    dsimp only
    rw [if_neg (by rw [h p List.mem_cons_self]; exact Bool.false_ne_true), hrest]

/-- The time that `ClearExpiredState` goes by. -/
def expiryTime (c : Circumstances) (t : Nat) : Nat := if t = 0 then c.arTime else t

theorem clearExpiredState_kept (hu : u.m_vStateList.Nodup)
    (h : ∀ p ∈ u.m_vStateList, erases c (expiryTime c t) (u.states p) = false) :
    Frees [] u (u.clearExpiredState c t) ∧ (u.clearExpiredState c t).m_vStateList = u.m_vStateList := by
  obtain ⟨hfrees, -, hremoved⟩ := clearExpiredLoop_frees (c := c) (t := expiryTime c t) u.m_vStateList u
  have hkept := clearExpiredLoop_kept hu h
  have hlist : (u.clearExpiredState c t).m_vStateList = u.m_vStateList := hkept
  have hdead : (u.clearExpiredState c t).m_vStateListRemovedByDeath = u.m_vStateListRemovedByDeath := hremoved
  refine ⟨⟨hfrees.nextState, hfrees.requests, hfrees.template, ?_, fun p hp => .inl ?_⟩, hlist⟩
  · unfold held
    rw [hlist, hdead]
    exact .refl _
  · rw [← hdead]
    exact hp

/-! ## Death -/

/-- The loop of `RemoveStateIf` separates the states from `it` on, in order. -/
theorem removeIfLoop_spec (comparer : StatePtr → Bool) (n it trail : Nat) (l removed : List StatePtr)
    (hle : trail ≤ it) (hn : l.length ≤ it + n) :
    (removeIfLoop comparer n it trail l removed).2.1.take (removeIfLoop comparer n it trail l removed).1 =
        l.take trail ++ (l.drop it).filter (fun p => !comparer p) ∧
      (removeIfLoop comparer n it trail l removed).2.2 = removed ++ (l.drop it).filter comparer := by
  induction n generalizing it trail l removed with
  | zero =>
    rw [List.drop_eq_nil_of_le (by omega)]
    exact ⟨(List.append_nil _).symm, (List.append_nil _).symm⟩
  | succ n ih =>
    unfold removeIfLoop
    cases hget : l[it]? with
    | none =>
      rw [List.drop_eq_nil_of_le (List.getElem?_eq_none_iff.mp hget)]
      exact ⟨(List.append_nil _).symm, (List.append_nil _).symm⟩
    | some p =>
      obtain ⟨hit, rfl⟩ := List.getElem?_eq_some_iff.mp hget
      rw [List.drop_eq_getElem_cons hit]
      by_cases hp : comparer l[it] = true
      · obtain ⟨hkept, hgone⟩ := ih (it + 1) trail l (removed ++ [l[it]]) (by omega) (by omega)
        rw [List.filter_cons_of_neg (by simpa using hp), List.filter_cons_of_pos hp]
        simp only [hp, if_true]
        refine ⟨hkept, ?_⟩
        rw [hgone, List.append_assoc]
        rfl
      · have hset : (if trail ≠ it then l.set trail l[it] else l) = l.set trail l[it] := by
          split_ifs with hne
          · rfl
          · rw [not_not.mp hne, List.set_getElem_self]
        obtain ⟨hkept, hgone⟩ := ih (it + 1) (trail + 1) (l.set trail l[it]) removed (by omega)
          (by rw [List.length_set]; omega)
        rw [List.filter_cons_of_pos (by simpa using hp), List.filter_cons_of_neg hp]
        simp only [hp, Bool.false_eq_true, if_false, hset]
        have hdrop : (l.set trail l[it]).drop (it + 1) = l.drop (it + 1) := List.drop_set_of_lt (by omega)
        have htake : (l.set trail l[it]).take (trail + 1) = l.take trail ++ [l[it]] := by
          rw [List.take_add_one, List.take_set_of_le (Nat.le_refl _), List.getElem?_set_self (by omega)]
          rfl
        rw [hdrop] at hkept hgone
        rw [htake] at hkept
        refine ⟨?_, hgone⟩
        rw [hkept, List.append_assoc]
        rfl

theorem removeStateIf_eq (u : UnitStates) (comparer : State → Bool) :
    u.removeStateIf comparer = (u.m_vStateList.filter fun p => comparer (u.states p),
      { u with m_vStateList := u.m_vStateList.filter fun p => !comparer (u.states p) }) := by
  obtain ⟨hkept, hgone⟩ := removeIfLoop_spec (fun p => comparer (u.states p)) u.m_vStateList.length 0 0
    u.m_vStateList [] (Nat.le_refl 0) (by omega)
  unfold removeStateIf
  dsimp only
  rw [hkept, hgone]
  rfl

/-- Deleting one state after the other requests the deletion of each. -/
theorem foldl_deleteThis (ps : List StatePtr) (u : UnitStates) :
    (ps.foldl deleteThis u).nextState = u.nextState ∧ (ps.foldl deleteThis u).kind = u.kind ∧
      (∀ q, (ps.foldl deleteThis u).requests q = u.requests q + ps.count q) ∧
      (∀ q, ((ps.foldl deleteThis u).states q).m_pTemplate = (u.states q).m_pTemplate) ∧
      (ps.foldl deleteThis u).m_vStateList = u.m_vStateList := by
  induction ps generalizing u with
  | nil => exact ⟨rfl, rfl, fun _ => rfl, fun _ => rfl, rfl⟩
  | cons p ps ih =>
    obtain ⟨hnext, hkind, hrequests, htemplate, hlist⟩ := ih (u.deleteThis p)
    refine ⟨hnext, hkind, fun q => ?_, fun q => (htemplate q).trans (template_deleteThis u p q), hlist⟩
    show _ = u.requests q + ([p] ++ ps).count q
    rw [List.foldl_cons, hrequests, requests_deleteThis, List.count_append, Nat.add_assoc]

/-- What `keepRemoved` does with the states of `ps`, which it does not put back into the list. -/
theorem foldl_keepRemoved (ps : List StatePtr) (u : UnitStates) : (ps.foldl keepRemoved u).m_vStateList = u.m_vStateList ∧
    (∀ p, ((ps.foldl keepRemoved u).states p).m_pTemplate = (u.states p).m_pTemplate) ∧
    (∀ p, p ∉ ps → (ps.foldl keepRemoved u).states p = u.states p) ∧
    ∀ p ∈ (ps.foldl keepRemoved u).m_vStateListRemovedByDeath, p ∈ u.m_vStateListRemovedByDeath ∨ p ∈ ps := by
  induction ps generalizing u with
  | nil => exact ⟨rfl, fun _ => rfl, fun _ _ => rfl, fun _ hp => .inl hp⟩
  | cons q ps ih =>
    obtain ⟨hlist, htemplate, hstates, hremoved⟩ := ih (u.keepRemoved q)
    have hstep : (u.keepRemoved q).m_vStateList = u.m_vStateList ∧
        (∀ p, ((u.keepRemoved q).states p).m_pTemplate = (u.states p).m_pTemplate) ∧
        (∀ p, p ≠ q → (u.keepRemoved q).states p = u.states p) ∧
        ∀ p ∈ (u.keepRemoved q).m_vStateListRemovedByDeath, p ∈ u.m_vStateListRemovedByDeath ∨ p = q := by
      unfold keepRemoved
      split_ifs
      · exact ⟨rfl, template_deleteThis u q, fun p hp => by rw [deleteThis, updState_states, if_neg hp], fun _ hp => .inl hp⟩
      · exact ⟨rfl, fun _ => rfl, fun _ _ => rfl, fun p hp => (List.mem_append.mp hp).imp_right List.mem_singleton.mp⟩
    rw [List.foldl_cons]
    refine ⟨hlist.trans hstep.1, fun p => (htemplate p).trans (hstep.2.1 p), fun p hp => ?_, fun p hp => ?_⟩
    · rw [List.mem_cons, not_or] at hp
      exact (hstates p hp.2).trans (hstep.2.2.1 p hp.1)
    · rcases hremoved p hp with hmem | hmem
      · refine (hstep.2.2.2 p hmem).imp_right fun heq => ?_
        rw [heq]
        exact List.mem_cons_self
      · exact .inr (List.mem_cons_of_mem q hmem)

/-- The states of the list are deleted and the list is cleared. -/
theorem Frees.deleteAll (u : UnitStates) {ps vStateList removed : List StatePtr}
    (hheld : u.held.Perm (ps ++ (vStateList ++ removed)))
    (hremoved : ∀ q ∈ removed, q ∈ u.m_vStateListRemovedByDeath) :
    Frees ps u { ps.foldl deleteThis u with
      m_vStateList := vStateList, m_vStateListRemovedByDeath := removed } := by
  obtain ⟨hnext, -, hrequests, htemplate, -⟩ := foldl_deleteThis ps u
  exact ⟨hnext, hrequests, htemplate, hheld, fun q hq => .inl (hremoved q hq)⟩

theorem clearRemovedStateByDeath_frees (u : UnitStates) :
    Frees u.m_vStateListRemovedByDeath u u.clearRemovedStateByDeath ∧
      u.clearRemovedStateByDeath.m_vStateList = u.m_vStateList ∧ u.clearRemovedStateByDeath.kind = u.kind := by
  obtain ⟨hnext, hkind, hrequests, htemplate, hlist⟩ := foldl_deleteThis u.m_vStateListRemovedByDeath u
  refine ⟨⟨hnext, hrequests, htemplate, ?_, fun q hq => (by cases hq)⟩, hlist, hkind⟩
  unfold held
  rw [show u.clearRemovedStateByDeath.m_vStateList = u.m_vStateList from hlist]
  exact List.perm_append_comm.trans (by rw [clearRemovedStateByDeath, List.append_nil])

/-- What a death has removed goes to the other list or is deleted. Until then it is counted as if it still
were in the first one. -/
theorem foldl_keepRemoved_frees {ps : List StatePtr} {u : UnitStates}
    (hps : ∀ p ∈ ps, (u.states p).has AF_ERASE_ON_DEAD = true) :
    ∃ gone, Frees gone { u with m_vStateList := u.m_vStateList ++ ps } (ps.foldl keepRemoved u) := by
  induction ps generalizing u with
  | nil =>
    rw [List.append_nil]
    exact ⟨[], .refl u⟩
  | cons p ps ih =>
    have hstep : ∃ gone, Frees gone { u with m_vStateList := u.m_vStateList ++ p :: ps }
        { u.keepRemoved p with m_vStateList := (u.keepRemoved p).m_vStateList ++ ps } := by
      unfold keepRemoved
      split_ifs with hharm
      · refine ⟨[p], .delete { u with m_vStateList := u.m_vStateList ++ p :: ps } (u.m_vStateList ++ ps)
          u.m_vStateListRemovedByDeath ?_ fun _ h => h⟩
        exact List.perm_middle.append_right _
      · refine ⟨[], rfl, fun _ => rfl, fun _ => rfl, ?_, fun q hq => ?_⟩
        · show ((u.m_vStateList ++ p :: ps) ++ u.m_vStateListRemovedByDeath).Perm
            ((u.m_vStateList ++ ps) ++ (u.m_vStateListRemovedByDeath ++ [p]))
          rw [← List.append_assoc (u.m_vStateList ++ ps)]
          exact (List.perm_middle.append_right _).trans (List.perm_append_singleton p _).symm
        · rcases List.mem_append.mp hq with hq | hq
          · exact .inl hq
          · rw [List.mem_singleton.mp hq]
            exact .inr (hps p List.mem_cons_self)
    obtain ⟨gone, hone⟩ := hstep
    have hrest : ∀ q ∈ ps, ((u.keepRemoved p).states q).has AF_ERASE_ON_DEAD = true := fun q hq => by
      rw [has_congr (hone.template q)]
      exact hps q (List.mem_cons_of_mem p hq)
    obtain ⟨gone', hall⟩ := ih hrest
    exact ⟨gone ++ gone', hone.trans hall⟩

/-- As long as the result is still counted, nothing has changed but the order. -/
theorem removeStateIf_frees (u : UnitStates) (comparer : State → Bool) :
    Frees [] u { (u.removeStateIf comparer).2 with
      m_vStateList := (u.removeStateIf comparer).2.m_vStateList ++ (u.removeStateIf comparer).1 } := by
  rw [removeStateIf_eq]
  refine ⟨rfl, fun _ => rfl, fun _ => rfl, ?_, fun _ => .inl⟩
  exact (List.perm_append_comm.trans (List.filter_append_perm _ _)).symm.append_right _

theorem removeStateIf_of_not_holds {comparer : State → Bool} (h : u.holds comparer = false) :
    u.removeStateIf comparer = ([], u) := by
  have hnone : ∀ p ∈ u.m_vStateList, comparer (u.states p) = false := fun p hp =>
    Bool.eq_false_iff.mpr (List.any_eq_false.mp h p hp)
  rw [removeStateIf_eq, List.filter_eq_nil_iff.mpr fun p hp => by rw [hnone p hp]; exact Bool.false_ne_true,
    List.filter_eq_self.mpr fun p hp => by rw [hnone p hp]; rfl]

theorem removeStateByDead_frees (h : u.kind = .player ∨ u.holds (·.has AF_ERASE_ON_DEAD) = false) :
    ∃ gone, Frees gone u u.removeStateByDead := by
  obtain ⟨hclear, hlist, hkind⟩ := clearRemovedStateByDeath_frees u
  unfold removeStateByDead
  dsimp only
  by_cases hplayer : u.kind = .player
  · have hremoved := removeStateIf_frees u.clearRemovedStateByDeath (·.has AF_ERASE_ON_DEAD)
    have hflag : ∀ p ∈ (u.clearRemovedStateByDeath.removeStateIf (·.has AF_ERASE_ON_DEAD)).1,
        ((u.clearRemovedStateByDeath.removeStateIf (·.has AF_ERASE_ON_DEAD)).2.states p).has AF_ERASE_ON_DEAD =
          true := by
      rw [removeStateIf_eq]
      exact fun p hp => (List.mem_filter.mp hp).2
    obtain ⟨gone, hkeep⟩ := foldl_keepRemoved_frees hflag
    rw [if_pos (by rw [removeStateIf_eq]; exact hkind.trans hplayer)]
    exact ⟨_, (hclear.trans hremoved).trans hkeep⟩
  · have hnone : u.clearRemovedStateByDeath.holds (·.has AF_ERASE_ON_DEAD) = false := by
      unfold holds
      rw [hlist, ← h.resolve_left hplayer, holds]
      exact congrArg _ (funext fun p => has_congr (hclear.template p) _)
    rw [removeStateIf_of_not_holds hnone, if_neg fun heq => hplayer (hkind.symm.trans heq)]
    exact ⟨_, hclear⟩

theorem restoreLoop_of_erasable {ps : List StatePtr} (h : ∀ p ∈ ps, (u.states p).has AF_ERASE_ON_DEAD = true) :
    restoreLoop c ps u = some (ps, u) := by
  induction ps with
  | nil => rfl
  | cons p ps ih =>
    rw [restoreLoop, if_pos (.inr (h p List.mem_cons_self)), ih fun q hq => h q (List.mem_cons_of_mem p hq)]
    rfl

/-- Nothing is ever restored: the loop skips what a death removes. -/
theorem Ok.restoreRemovedStateByDeath (hu : Ok u) (c : Circumstances) :
    u.restoreRemovedStateByDeath c = some u.clearRemovedStateByDeath := by
  rw [UnitStates.restoreRemovedStateByDeath, restoreLoop_of_erasable hu.erasable]
  rfl

theorem destroy_frees (h : u.m_vStateListRemovedByDeath = []) : Frees u.m_vStateList u u.destroy := by
  refine .deleteAll u ?_ fun _ h => absurd h List.not_mem_nil
  unfold held
  rw [h]
  exact .refl _

/-! ## Runs -/

inductive Event
  | addState (c : Circumstances) (a : NewState)
  | readState (code : Int) (s : State)
  | clearExpiredState (c : Circumstances) (t : Nat)
  | removeState (code state_level : Int)
  | removeStateUID (uid : Int)
  | removeGoodState (state_level : Int)
  | removeStatesOnDamage
  | removeStateByDead
  | restoreRemovedStateByDeath (c : Circumstances)
  | clearRemovedStateByDeath
  | destroy

def handle (u : UnitStates) : Event → Option UnitStates
  | .addState c a => (u.addState c a).map (·.2)
  | .readState code s => u.readState code s
  | .clearExpiredState c t => some (u.clearExpiredState c t)
  | .removeState code state_level => u.removeState code state_level
  | .removeStateUID uid => u.removeStateUID uid
  | .removeGoodState state_level => u.removeGoodState state_level
  | .removeStatesOnDamage => some u.removeStatesOnDamage
  | .removeStateByDead => some u.removeStateByDead
  | .restoreRemovedStateByDeath c => u.restoreRemovedStateByDeath c
  | .clearRemovedStateByDeath => some u.clearRemovedStateByDeath
  | .destroy => some u.destroy

/-- `AddState` gets to its calls of `RemoveState`. -/
def uncovers (u : UnitStates) (c : Circumstances) (a : NewState) : Bool :=
  match u.stateInfo a.code with
  | none => false
  | some info => u.addStateGuard c info a == .success && info.effect_type == SEF_RIDING && c.isHiding

/-- When a function does with the states what it should: wherever it would take a state out without
requesting its deletion, or request that of another one, there is none for it to take out. -/
def Careful (u : UnitStates) : Event → Prop
  | .addState c a => u.uncovers c a = true →
    u.holds (matchesState StateCode.SC_HIDE GameRule.MAX_STATE_LEVEL) = false ∧
      u.holds (matchesState StateCode.SC_TRACE_OF_FUGITIVE GameRule.MAX_STATE_LEVEL) = false
  | .clearExpiredState c t => u.holds (erases c (expiryTime c t)) = false
  | .removeState code state_level => u.holds (matchesState code state_level) = false
  | .removeStateUID uid => u.holds (hasUID uid) = false
  | .removeGoodState state_level => ∀ p ∈ u.m_vStateList,
    ¬(u.states p).isHarmful = true ∧ (u.states p).getTimeType ≠ 0 →
      u.holds (matchesState (u.states p).m_nCode state_level) = false
  | .removeStatesOnDamage => u.holds (·.has AF_ERASE_ON_DAMAGED) = false
  | .removeStateByDead => u.kind = .player ∨ u.holds (·.has AF_ERASE_ON_DEAD) = false
  | .destroy => u.m_vStateListRemovedByDeath = []
  | .readState _ _ | .restoreRemovedStateByDeath _ | .clearRemovedStateByDeath => True

/-- A unit that has not had a state yet. -/
def Unused (u : UnitStates) : Prop :=
  u.nextState = 0 ∧ u.held = [] ∧ ∀ p, u.requests p = 0

def system : System UnitStates Event := .ofFun Unused handle

theorem Unused.ok (hu : Unused u) : Ok u := by
  obtain ⟨hnext, hheld, hrequests⟩ := hu
  refine ⟨fun p => ?_, fun p hp => ?_⟩
  · rw [hnext, hheld, hrequests, if_neg (Nat.not_lt_zero p)]
    rfl
  · have hmem : p ∈ u.held := List.mem_append_right _ hp
    rw [hheld] at hmem
    cases hmem

theorem holds_eq_false_iff : u.holds found = false ↔ ∀ p ∈ u.m_vStateList, found (u.states p) = false := by
  unfold holds
  rw [List.any_eq_false]
  exact forall₂_congr fun p _ => Bool.eq_false_iff.symm

theorem Ok.addState (hu : Ok u) {a : NewState} (hc : Careful u (.addState c a)) {code : ResultCode}
    (hrun : u.addState c a = some (code, u')) : Ok u' := by
  unfold UnitStates.addState at hrun
  dsimp only [Careful, uncovers] at hc
  cases hinfo : u.stateInfo a.code with
  | none =>
    rw [hinfo] at hrun
    obtain rfl := (Prod.mk.inj (Option.some.inj hrun)).2
    exact hu
  | some info =>
    rw [hinfo] at hrun hc
    dsimp only at hrun hc
    cases hguard : u.addStateGuard c info a with
    | success =>
      rw [hguard] at hrun hc
      dsimp only at hrun
      have hstay : (if info.effect_type = SEF_RIDING ∧ c.isHiding then
          (u.removeState StateCode.SC_HIDE GameRule.MAX_STATE_LEVEL).bind fun u =>
            u.removeState StateCode.SC_TRACE_OF_FUGITIVE GameRule.MAX_STATE_LEVEL
          else some u) = some u := by
        split_ifs with hride
        · obtain ⟨hhide, htrace⟩ := hc (by simp [hride])
          rw [removeState, removeFound_of_not_holds hhide, Option.bind_some, removeState,
            removeFound_of_not_holds htrace]
        · rfl
      rw [hstay, Option.map_some, Option.some.injEq, Prod.mk.injEq] at hrun
      rw [← hrun.2]
      exact hu.addStatePast info a
    | _ =>
      rw [hguard] at hrun
      obtain rfl := (Prod.mk.inj (Option.some.inj hrun)).2
      exact hu

theorem removeStatesOnDamage_of_not_holds (h : u.holds (·.has AF_ERASE_ON_DAMAGED) = false) :
    u.removeStatesOnDamage = u := by
  have hnone := holds_eq_false_iff.mp h
  rw [removeStatesOnDamage, List.filter_eq_self.mpr fun p hp => by rw [hnone p hp]; rfl]

/-- One step. -/
theorem Ok.handle (hu : Ok u) {e : Event} (hc : Careful u e) (hrun : u.handle e = some u') : Ok u' := by
  cases e with
  | addState c a =>
    obtain ⟨⟨code, v⟩, hadd, rfl⟩ := Option.map_eq_some_iff.mp hrun
    exact hu.addState hc hadd
  | readState code s =>
    obtain ⟨info, -, rfl⟩ := Option.map_eq_some_iff.mp hrun
    exact hu.allocState rfl
  | clearExpiredState c t =>
    obtain rfl := Option.some.inj hrun
    have hnodup := (List.nodup_append.mp hu.owned.nodup).1
    exact hu.frees (clearExpiredState_kept hnodup (holds_eq_false_iff.mp hc)).1
  | removeState code level =>
    obtain rfl := Option.some.inj ((removeFound_of_not_holds hc).symm.trans hrun)
    exact hu
  | removeStateUID uid =>
    obtain rfl := Option.some.inj ((removeFound_of_not_holds hc).symm.trans hrun)
    exact hu
  | removeGoodState level =>
    obtain rfl := Option.some.inj ((removeGoodLoop_of_not_holds hc).symm.trans hrun)
    exact hu
  | removeStatesOnDamage =>
    obtain rfl := Option.some.inj hrun
    rw [removeStatesOnDamage_of_not_holds hc]
    exact hu
  | removeStateByDead =>
    obtain rfl := Option.some.inj hrun
    obtain ⟨gone, hgone⟩ := removeStateByDead_frees hc
    exact hu.frees hgone
  | restoreRemovedStateByDeath c =>
    obtain rfl := Option.some.inj ((hu.restoreRemovedStateByDeath c).symm.trans hrun)
    exact hu.frees (clearRemovedStateByDeath_frees u).1
  | clearRemovedStateByDeath =>
    obtain rfl := Option.some.inj hrun
    exact hu.frees (clearRemovedStateByDeath_frees u).1
  | destroy =>
    obtain rfl := Option.some.inj hrun
    exact hu.frees (destroy_frees hc)

/-! ## What is claimed -/

/-- The state `p` is in one of the two lists, once, or its deletion has been requested, once. -/
def InOnePlace (u : UnitStates) (p : StatePtr) : Prop :=
  u.m_vStateList.count p + u.m_vStateListRemovedByDeath.count p + u.requests p = 1

/-- **State ownership.** -/
structure StatesOwned (u : UnitStates) : Prop where
  inOnePlace : ∀ p < u.nextState, InOnePlace u p
  allocated : ∀ p, p ∈ u.m_vStateList ∨ p ∈ u.m_vStateListRemovedByDeath → p < u.nextState

/-- What is taken out of the list, and nothing else, is requested for deletion; the rest stays in order. -/
structure TakesOut (u u' : UnitStates) : Prop where
  order : u'.m_vStateList.Sublist u.m_vStateList
  requests : ∀ p, u'.requests p = u.requests p + if p ∈ u.m_vStateList ∧ p ∉ u'.m_vStateList then 1 else 0

/-- The functions of which `TakesOut` is claimed. -/
inductive Event.Removes : Event → Prop
  | clearExpiredState (c : Circumstances) (t : Nat) : Removes (.clearExpiredState c t)
  | removeState (code state_level : Int) : Removes (.removeState code state_level)
  | removeStateUID (uid : Int) : Removes (.removeStateUID uid)

theorem Ok.statesOwned (hu : Ok u) : StatesOwned u := by
  refine ⟨fun p hp => ?_, fun p hp => hu.owned.lt_of_mem (List.mem_append.mpr hp)⟩
  have hcount := hu.owned p
  rw [if_pos hp, held, List.count_append] at hcount
  exact hcount

theorem takesOut_self (hlist : u'.m_vStateList = u.m_vStateList) (hrequests : ∀ p, u'.requests p = u.requests p) :
    TakesOut u u' := by
  refine ⟨hlist ▸ .refl _, fun p => ?_⟩
  rw [hrequests, if_neg fun h => h.2 (hlist ▸ h.1)]
  rfl

theorem Ok.takesOut (hu : Ok u) {e : Event} (he : e.Removes) (hc : Careful u e) :
    ∃ u', u.handle e = some u' ∧ TakesOut u u' := by
  cases he with
  | clearExpiredState c t =>
    have hnodup := (List.nodup_append.mp hu.owned.nodup).1
    obtain ⟨hfrees, hlist⟩ := clearExpiredState_kept hnodup (holds_eq_false_iff.mp hc)
    exact ⟨_, rfl, takesOut_self hlist fun p => hfrees.requests p⟩
  | removeState code level => exact ⟨u, removeFound_of_not_holds hc, takesOut_self rfl fun _ => rfl⟩
  | removeStateUID uid => exact ⟨u, removeFound_of_not_holds hc, takesOut_self rfl fun _ => rfl⟩

theorem ok_of_run {h : History UnitStates Event} (hrun : system.RunWhere (fun _ u e => Careful u e) h u) : Ok u :=
  hrun.invariant (I := fun _ u => Ok u) (fun _ h0 => Unused.ok h0) fun _ _ _ _ _ hu hc hstep => hu.handle hc hstep

/-- **In a run of careful steps every state has one owner**, and what `RemoveState` and `ClearExpiredState`
take out of the list is what they request the deletion of. -/
theorem statesOwned_of_run {h : History UnitStates Event}
    (hrun : system.RunWhere (fun _ u e => Careful u e) h u) :
    StatesOwned u ∧ ∀ e, e.Removes → Careful u e → ∃ u', u.handle e = some u' ∧ TakesOut u u' :=
  ⟨(ok_of_run hrun).statesOwned, fun _ he hc => (ok_of_run hrun).takesOut he hc⟩

instance (u : UnitStates) : (e : Event) → Decidable (Careful u e)
  | .addState c a => inferInstanceAs (Decidable (u.uncovers c a = true →
      u.holds (matchesState StateCode.SC_HIDE GameRule.MAX_STATE_LEVEL) = false ∧
        u.holds (matchesState StateCode.SC_TRACE_OF_FUGITIVE GameRule.MAX_STATE_LEVEL) = false))
  | .clearExpiredState c t => inferInstanceAs (Decidable (u.holds (erases c (expiryTime c t)) = false))
  | .removeState code level => inferInstanceAs (Decidable (u.holds (matchesState code level) = false))
  | .removeStateUID uid => inferInstanceAs (Decidable (u.holds (hasUID uid) = false))
  | .removeGoodState level => inferInstanceAs (Decidable (∀ p ∈ u.m_vStateList,
      ¬(u.states p).isHarmful = true ∧ (u.states p).getTimeType ≠ 0 →
        u.holds (matchesState (u.states p).m_nCode level) = false))
  | .removeStatesOnDamage => inferInstanceAs (Decidable (u.holds (·.has AF_ERASE_ON_DAMAGED) = false))
  | .removeStateByDead =>
    inferInstanceAs (Decidable (u.kind = .player ∨ u.holds (·.has AF_ERASE_ON_DEAD) = false))
  | .destroy => inferInstanceAs (Decidable (u.m_vStateListRemovedByDeath = []))
  | .readState _ _ | .restoreRemovedStateByDeath _ | .clearRemovedStateByDeath => .isTrue trivial

/-- A player before the first state. The states 1 and 2 exclude each other and end with its death. -/
def novice : UnitStates where
  kind := .player
  stateInfo code := some { state_time_type := AF_ERASE_ON_DEAD, duplicate_group := fun _ => if code ≤ 2 then 1 else 0 }
  states _ := ⟨0, 0, fun _ => 0, fun _ => 0, fun _ => 0, fun _ => 0, false, none, 0⟩
  nextState := 0
  m_vStateList := []
  m_vStateListRemovedByDeath := []
  m_nCurrentStateUID := 0

/-- A state replaces another one, a third one is added, the player dies and is resurrected. -/
theorem statesOwned_of_run_novice : ∃ h u, system.RunWhere (fun _ u e => Careful u e) h u ∧ StatesOwned u ∧
    u.nextState = 3 ∧ u.m_vStateList = [] ∧ u.m_vStateListRemovedByDeath = [1, 2] := by
  have hex : (System.exec (fun _ u e => Careful u e) handle [.addState {} { code := 1, level := 1 },
      .addState {} { code := 2, level := 2 }, .addState {} { code := 3, level := 1 },
      .removeStateByDead] [] novice).map
        (fun x => (x.2.nextState, x.2.m_vStateList, x.2.m_vStateListRemovedByDeath)) =
      some (3, [], [1, 2]) := by decide +kernel
  obtain ⟨h, u, hrun, hend⟩ := System.exists_run_exec
    (fun u : UnitStates => (u.nextState, u.m_vStateList, u.m_vStateListRemovedByDeath)) _
    (System.RunWhere.init (S := system) ⟨rfl, rfl, fun _ => rfl⟩) hex
  obtain ⟨hnext, hlists⟩ := Prod.mk.inj hend
  obtain ⟨hlist, hremoved⟩ := Prod.mk.inj hlists
  exact ⟨h, u, hrun, (statesOwned_of_run hrun).1, hnext, hlist, hremoved⟩

/-- `RemoveState` takes out the first of two states and requests the deletion of the second. -/
theorem not_statesOwned : ¬ ∀ (h : History UnitStates Event) (u : UnitStates), system.Run h u → StatesOwned u := by
  intro hall
  have hex : (System.exec (fun _ _ _ => True) handle [.addState {} { code := 3, level := 1 },
      .addState {} { code := 4, level := 1 }, .removeState 3 1] [] novice).map
        (fun x => (x.2.nextState, x.2.m_vStateList, x.2.m_vStateListRemovedByDeath, x.2.requests 0)) =
      some (2, [1], [], 0) := by decide +kernel
  obtain ⟨h, u, hrun, hend⟩ := System.exists_run_exec
    (fun u : UnitStates => (u.nextState, u.m_vStateList, u.m_vStateListRemovedByDeath, u.requests 0)) _
    (System.RunWhere.init (S := system) ⟨rfl, rfl, fun _ => rfl⟩) hex
  simp only [Prod.mk.injEq] at hend
  obtain ⟨hnext, hlist, hremoved, hrequests⟩ := hend
  have hplace := (hall h u hrun).inOnePlace 0 (by omega)
  rw [InOnePlace, hlist, hremoved, hrequests] at hplace
  exact absurd hplace (by decide)

end UnitStates

end RZEmulator.Chihiro
