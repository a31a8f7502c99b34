import RZEmulator.Lib.Arena
import RZEmulator.Chihiro.StateOwnership

/-!
# The state list

Two states of a unit are to have different codes, no duplicate group in common and different identifiers. `AddState`
deletes what the new state replaces by the identifiers, so that the three depend on each other. An identifier is the
low half of a counter and comes again when the counter has gone round; and a riding state that is refused has already
ended what hides the unit, or has thrown it off what it rides.

The calls of a run are those of `StateOwnership`, without the ones that read states from the database or add removed
ones again, which are calls of `AddState` in turn.
-/

namespace RZEmulator.Chihiro

open Lib

namespace UnitStates

/-! ## What is claimed -/

/-- No two states of the list have a code, a duplicate group or an identifier in common, and no identifier is 0. -/
structure StatesUnique (u : UnitStates) : Prop where
  codes : u.m_vStateList.Pairwise fun p q => (u.states p).m_nCode ≠ (u.states q).m_nCode
  groups : u.m_vStateList.Pairwise fun p q => ∀ group ≠ 0,
    ¬((u.states p).isDuplicatedGroup group = true ∧ (u.states q).isDuplicatedGroup group = true)
  uids : u.m_vStateList.Pairwise fun p q => (u.states p).m_nUID ≠ (u.states q).m_nUID
  nonzero : ∀ p ∈ u.m_vStateList, (u.states p).m_nUID ≠ 0

/-- The same states in the same order. -/
def SameList (u u' : UnitStates) : Prop :=
  u'.m_vStateList = u.m_vStateList ∧ ∀ p ∈ u.m_vStateList, u'.states p = u.states p

/-! ## Calls -/

def listHandle (u : UnitStates) : Event → Option UnitStates
  | .readState _ _ | .restoreRemovedStateByDeath _ => none
  | e => u.handle e

def listCalls : List Event → UnitStates → Option UnitStates
  | [], u => some u
  | e :: es, u => (u.listHandle e).bind (listCalls es)

/-- `unmount` are the calls that `UnMount` makes, if `AddState` calls it. -/
inductive ListEvent
  | addState (unmount : List Event) (c : Circumstances) (a : NewState)
  | remove (e : Event)

def handleList (u : UnitStates) : ListEvent → Option UnitStates
  | .addState unmount c a => (listCalls unmount u).bind fun u => (u.addState c a).map Prod.snd
  | .remove (.addState _ _) => none
  | .remove e => u.listHandle e

def listSystem : System UnitStates ListEvent := .ofFun Unused handleList

/-- Every call that was refused has left the list as it was. -/
structure ListUnique (hist : History UnitStates ListEvent) (u : UnitStates) : Prop where
  unique : StatesUnique u
  refused : ∀ tr ∈ hist, ∀ unmount c a v code w, tr.event = .addState unmount c a →
    listCalls unmount tr.before = some v → v.addState c a = some (code, w) → code ≠ .success → SameList tr.before w

/-- What `AddState` does to a unit that hides and is to ride. -/
def uncovered (u : UnitStates) (c : Circumstances) (info : StateTemplate) : Option UnitStates :=
  if info.effect_type = SEF_RIDING ∧ c.isHiding then
    (u.removeState StateCode.SC_HIDE GameRule.MAX_STATE_LEVEL).bind fun u =>
      u.removeState StateCode.SC_TRACE_OF_FUGITIVE GameRule.MAX_STATE_LEVEL
  else some u

/-- There is no template, a guard fails or a stronger state is in the list. -/
def refuses (u : UnitStates) (c : Circumstances) (a : NewState) : Bool :=
  match u.stateInfo a.code with
  | none => true
  | some info => u.addStateGuard c info a != .success ||
      (u.uncovered c info).any fun u => (u.duplicates info a u.m_vStateList).isNone

/-- The identifier of the next state. -/
def nextUID (u : UnitStates) : Nat := (u.m_nCurrentStateUID + 1) % 2 ^ 16

/-- If `AddState` makes a state, its identifier is not 0 and not that of a state which stays. -/
def fresh (u : UnitStates) (info : StateTemplate) (a : NewState) : Bool :=
  match u.duplicates info a u.m_vStateList with
  | none => true
  | some uids => (u.getState a.code).isSome ||
      (u.nextUID != 0 && (uids.foldl deleteUID u).m_vStateList.all fun p => (u.states p).m_nUID != u.nextUID)

def issuesFresh (u : UnitStates) (c : Circumstances) (a : NewState) : Bool :=
  match u.stateInfo a.code with
  | none => true
  | some info => u.addStateGuard c info a != .success || (u.uncovered c info).all fun u => u.fresh info a

def callFresh (u : UnitStates) : Event → Bool
  | .addState c a => u.issuesFresh c a
  | _ => true

def callsFresh : List Event → UnitStates → Bool
  | [], _ => true
  | e :: es, u => u.callFresh e && (u.listHandle e).all (callsFresh es)

/-- Nothing is taken out before the new state is refused. -/
def quietly (u : UnitStates) (unmount : List Event) (c : Circumstances) (a : NewState) : Bool :=
  unmount.isEmpty && (!u.uncovers c a || (!u.holds (matchesState StateCode.SC_HIDE GameRule.MAX_STATE_LEVEL) &&
    !u.holds (matchesState StateCode.SC_TRACE_OF_FUGITIVE GameRule.MAX_STATE_LEVEL)))

/-- The identifiers that are issued are fresh, and what is refused is refused at once. -/
def ListCareful (u : UnitStates) : ListEvent → Prop
  | .addState unmount c a => callsFresh unmount u = true ∧ ((listCalls unmount u).all fun v => v.issuesFresh c a &&
      (!v.refuses c a || u.quietly unmount c a)) = true
  | .remove _ => True

instance (u : UnitStates) : (e : ListEvent) → Decidable (ListCareful u e)
  | .addState unmount c a => inferInstanceAs (Decidable (callsFresh unmount u = true ∧
      ((listCalls unmount u).all fun v => v.issuesFresh c a && (!v.refuses c a || u.quietly unmount c a)) = true))
  | .remove _ => .isTrue trivial

/-! ## What removals keep -/

/-- What two states have in common by their code, template and identifier. -/
structure SameKeys (s s' : State) : Prop where
  code : s'.m_nCode = s.m_nCode
  uid : s'.m_nUID = s.m_nUID
  template : s'.m_pTemplate = s.m_pTemplate

/-- The list loses states at most, and no state gets another code, template or identifier. -/
structure Shrinks (u u' : UnitStates) : Prop where
  list : u'.m_vStateList.Sublist u.m_vStateList
  same : ∀ p, SameKeys (u.states p) (u'.states p)
  nextState : u'.nextState = u.nextState

/-- The places of the list are those of states that have been made. -/
structure ListOk (u : UnitStates) : Prop extends StatesUnique u where
  bound : ∀ p ∈ u.m_vStateList, p < u.nextState

variable {u u' u'' : UnitStates} {p q : StatePtr} {c : Circumstances} {a : NewState} {info : StateTemplate} {uid : Nat}
  {uids : List Nat} {e : Event} {hist : History UnitStates ListEvent}

theorem SameKeys.refl (s : State) : SameKeys s s := ⟨rfl, rfl, rfl⟩

theorem SameKeys.trans {s s' s'' : State} (h : SameKeys s s') (h' : SameKeys s' s'') : SameKeys s s'' :=
  ⟨h'.code.trans h.code, h'.uid.trans h.uid, h'.template.trans h.template⟩

theorem SameKeys.isDuplicatedGroup {s s' : State} (h : SameKeys s s') (group : Int) :
    s'.isDuplicatedGroup group = s.isDuplicatedGroup group := by
  unfold State.isDuplicatedGroup
  rw [h.template]

theorem Shrinks.refl (u : UnitStates) : Shrinks u u := ⟨.refl _, fun _ => .refl _, rfl⟩

theorem Shrinks.trans (h : Shrinks u u') (h' : Shrinks u' u'') : Shrinks u u'' :=
  ⟨h'.list.trans h.list, fun p => (h.same p).trans (h'.same p), h'.nextState.trans h.nextState⟩

theorem StatesUnique.of_list_nil (h : u.m_vStateList = []) : StatesUnique u := by
  constructor <;> rw [h]
  · exact .nil
  · exact .nil
  · exact .nil
  · exact fun p hp => (nomatch hp)

theorem ListOk.shrinks (hu : ListOk u) (h : Shrinks u u') : ListOk u' where
  codes := (hu.codes.sublist h.list).imp fun {p q} hne => by
    rw [(h.same p).code, (h.same q).code]
    exact hne
  groups := (hu.groups.sublist h.list).imp fun {p q} hne group => by
    rw [(h.same p).isDuplicatedGroup, (h.same q).isDuplicatedGroup]
    exact hne group
  uids := (hu.uids.sublist h.list).imp fun {p q} hne => by
    rw [(h.same p).uid, (h.same q).uid]
    exact hne
  nonzero p hp := by
    rw [(h.same p).uid]
    exact hu.nonzero p (h.list.subset hp)
  bound p hp := h.nextState.symm ▸ hu.bound p (h.list.subset hp)

/-- A change of one state that keeps what it is known by. -/
theorem shrinks_updState (u : UnitStates) (p : StatePtr) {f : State → State} (hf : SameKeys (u.states p) (f (u.states p))) :
    Shrinks u (u.updState p f) where
  list := .refl _
  same q := by
    rw [updState_states]
    split_ifs with hq
    · rw [hq]
      exact hf
    · exact .refl _
  nextState := rfl

theorem shrinks_deleteThis (u : UnitStates) (p : StatePtr) : Shrinks u (u.deleteThis p) :=
  shrinks_updState u p ⟨rfl, rfl, rfl⟩

theorem shrinks_foldl {α : Type} {f : UnitStates → α → UnitStates} (hf : ∀ u x, Shrinks u (f u x)) (l : List α)
    (u : UnitStates) : Shrinks u (l.foldl f u) := by
  induction l generalizing u with
  | nil => exact .refl u
  | cons x l ih => exact (hf u x).trans (ih (f u x))

/-- Fewer states in the list, the same ones in the arena. -/
theorem shrinks_list (u : UnitStates) {l : List StatePtr} (h : l.Sublist u.m_vStateList) :
    Shrinks u { u with m_vStateList := l } :=
  ⟨h, fun _ => .refl _, rfl⟩

theorem shrinks_removeFound {found : State → Bool} (h : u.removeFound found = some u') : Shrinks u u' := by
  unfold removeFound at h
  split at h
  · rw [← Option.some.inj h]
    exact .refl u
  · obtain ⟨next, -, rfl⟩ := Option.map_eq_some_iff.mp h
    exact (shrinks_list u (List.eraseIdx_sublist _ _)).trans (shrinks_deleteThis _ next)

theorem shrinks_removeGoodLoop {state_level : Int} {ps : List StatePtr} (h : u.removeGoodLoop state_level ps = some u') :
    Shrinks u u' := by
  induction ps generalizing u with
  | nil =>
    rw [← Option.some.inj h]
    exact .refl u
  | cons p ps ih =>
    unfold removeGoodLoop at h
    split_ifs at h
    · obtain ⟨v, hv, h⟩ := Option.bind_eq_some_iff.mp h
      split_ifs at h
      exact (shrinks_removeFound hv).trans (ih h)
    · exact ih h

theorem clearExpiredLoop_shrinks (t : Nat) (ps : List StatePtr) (u : UnitStates) :
    (clearExpiredLoop c t ps u).1.Sublist ps ∧ Shrinks u (clearExpiredLoop c t ps u).2 := by
  induction ps generalizing u with
  | nil => exact ⟨.refl _, .refl u⟩
  | cons p ps ih =>
    obtain ⟨hlist, hshrinks⟩ := ih (u.updState p (·.clearExpiredState t))
    refine ⟨?_, (shrinks_updState u p ⟨rfl, rfl, rfl⟩).trans hshrinks⟩
    unfold clearExpiredLoop
    dsimp only
    split_ifs
    · exact hlist.cons p
    · exact hlist.cons_cons p

theorem shrinks_clearExpiredState (u : UnitStates) (c : Circumstances) (t : Nat) : Shrinks u (u.clearExpiredState c t) := by
  obtain ⟨hlist, hshrinks⟩ := clearExpiredLoop_shrinks (c := c) (if t = 0 then c.arTime else t) u.m_vStateList u
  exact ⟨hlist, hshrinks.same, hshrinks.nextState⟩

theorem shrinks_keepRemoved (u : UnitStates) (p : StatePtr) : Shrinks u (u.keepRemoved p) := by
  unfold keepRemoved
  split_ifs
  · exact shrinks_deleteThis u p
  · exact ⟨.refl _, fun _ => .refl _, rfl⟩

theorem shrinks_clearRemovedStateByDeath (u : UnitStates) : Shrinks u u.clearRemovedStateByDeath := by
  have hfold := shrinks_foldl shrinks_deleteThis u.m_vStateListRemovedByDeath u
  exact ⟨hfold.list, hfold.same, hfold.nextState⟩

theorem shrinks_removeStateByDead (u : UnitStates) : Shrinks u u.removeStateByDead := by
  have hclear := shrinks_clearRemovedStateByDeath u
  unfold removeStateByDead
  rw [removeStateIf_eq]
  dsimp only
  split_ifs
  · exact (hclear.trans (shrinks_list _ List.filter_sublist)).trans (shrinks_foldl shrinks_keepRemoved _ _)
  · exact hclear.trans (shrinks_list _ List.filter_sublist)

/-! ## New states -/

theorem deleteUID_shrinks (u : UnitStates) (uid : Nat) : Shrinks u (u.deleteUID uid) := by
  unfold deleteUID
  split
  · exact .refl u
  · split
    · exact .refl u
    · exact (shrinks_list u (List.eraseIdx_sublist _ _)).trans (shrinks_deleteThis _ _)

/-- Where the identifiers differ, no state with a deleted one is left. -/
theorem deleteUID_gone (hu : ListOk u) (uid : Nat) : ∀ p ∈ (u.deleteUID uid).m_vStateList, (u.states p).m_nUID ≠ uid := by
  intro p hp hpuid
  unfold deleteUID at hp
  split at hp
  · rename_i hnone
    have := List.findIdx?_eq_none_iff.mp hnone p hp
    simp [hpuid] at this
  · rename_i i hi
    obtain ⟨hlt, hfound, -⟩ := List.findIdx?_eq_some_iff_getElem.mp hi
    have hget : u.m_vStateList[i]? = some u.m_vStateList[i] := List.getElem?_eq_getElem hlt
    have hfound : (u.states u.m_vStateList[i]).m_nUID = uid := by simpa using hfound
    generalize u.m_vStateList[i] = x at hget hfound
    obtain ⟨A, B, hlist, hlen⟩ := exists_append_of_getElem? hget
    have herase : u.m_vStateList.eraseIdx i = A ++ B := by
      rw [hlist, ← hlen, List.eraseIdx_append_of_length_le (Nat.le_refl _), Nat.sub_self, List.eraseIdx_cons_zero]
    rw [hget] at hp
    have hp : p ∈ u.m_vStateList.eraseIdx i := hp
    have huids := hu.uids
    rw [hlist, List.pairwise_append, List.pairwise_cons] at huids
    obtain ⟨-, ⟨hB, -⟩, hA⟩ := huids
    rw [herase, List.mem_append] at hp
    rcases hp with hp | hp
    · exact hA p hp x List.mem_cons_self (hpuid.trans hfound.symm)
    · exact hB p hp (hfound.trans hpuid.symm)

theorem foldl_deleteUID_gone (hu : ListOk u) (uids : List Nat) :
    ∀ p ∈ (uids.foldl deleteUID u).m_vStateList, (u.states p).m_nUID ∉ uids := by
  induction uids generalizing u with
  | nil => exact fun p _ => List.not_mem_nil
  | cons uid uids ih =>
    intro p hp hmem
    have hshrinks := deleteUID_shrinks u uid
    rcases List.mem_cons.mp hmem with huid | hmem
    · have hfold := shrinks_foldl deleteUID_shrinks uids (u.deleteUID uid)
      exact deleteUID_gone hu uid p (hfold.list.subset hp) huid
    · apply ih (hu.shrinks hshrinks) p hp
      rw [(hshrinks.same p).uid]
      exact hmem

/-- What the new state excludes is deleted, besides a state of its code. -/
theorem duplicates_spec {ps : List StatePtr} (h : u.duplicates info a ps = some uids) :
    ∀ p ∈ ps, isDuplicate info a (u.states p) = true → (u.states p).m_nCode = a.code ∨ (u.states p).m_nUID ∈ uids := by
  induction ps generalizing uids with
  | nil => exact fun p hp => (nomatch hp)
  | cons q ps ih =>
    unfold duplicates at h
    dsimp only at h
    intro p hp hdup
    rcases List.mem_cons.mp hp with rfl | hp
    · rw [if_pos hdup] at h
      split_ifs at h with hsame hstrong hcode herasable
      · exact .inl hcode
      · obtain ⟨rest, -, rfl⟩ := Option.map_eq_some_iff.mp h
        exact .inr List.mem_cons_self
      · obtain ⟨rest, -, rfl⟩ := Option.map_eq_some_iff.mp h
        exact .inr List.mem_cons_self
    · split_ifs at h
      · exact ih h p hp hdup
      · obtain ⟨rest, hrest, rfl⟩ := Option.map_eq_some_iff.mp h
        exact (ih hrest p hp hdup).imp_right (List.mem_cons_of_mem _)
      · obtain ⟨rest, hrest, rfl⟩ := Option.map_eq_some_iff.mp h
        exact (ih hrest p hp hdup).imp_right (List.mem_cons_of_mem _)
      · exact ih h p hp hdup

theorem foldl_deleteUID_counter (uids : List Nat) (u : UnitStates) :
    (uids.foldl deleteUID u).m_nCurrentStateUID = u.m_nCurrentStateUID ∧
      (uids.foldl deleteUID u).stateInfo = u.stateInfo := by
  induction uids generalizing u with
  | nil => exact ⟨rfl, rfl⟩
  | cons uid uids ih =>
    obtain ⟨hcounter, hinfo⟩ := ih (u.deleteUID uid)
    have hone : (u.deleteUID uid).m_nCurrentStateUID = u.m_nCurrentStateUID ∧ (u.deleteUID uid).stateInfo = u.stateInfo := by
      unfold deleteUID
      split
      · exact ⟨rfl, rfl⟩
      · split <;> exact ⟨rfl, rfl⟩
    exact ⟨hcounter.trans hone.1, hinfo.trans hone.2⟩

theorem newState_keys (u : UnitStates) (a : NewState) : (u.newState a).m_nCode = a.code ∧
    (u.newState a).m_nUID = u.nextUID ∧ (u.newState a).m_pTemplate = u.stateInfo a.code := ⟨rfl, rfl, rfl⟩

/-- A new state at the end of the list, that nothing in the list excludes. -/
theorem ListOk.allocState (hu : ListOk u) {s : State} (hcode : ∀ p ∈ u.m_vStateList, (u.states p).m_nCode ≠ s.m_nCode)
    (hgroup : ∀ p ∈ u.m_vStateList, ∀ group ≠ 0,
      ¬((u.states p).isDuplicatedGroup group = true ∧ s.isDuplicatedGroup group = true))
    (huid : ∀ p ∈ u.m_vStateList, (u.states p).m_nUID ≠ s.m_nUID) (hzero : s.m_nUID ≠ 0) : ListOk (u.allocState s) := by
  have hnew : (u.allocState s).states u.nextState = s := if_pos rfl
  have hold : ∀ p ∈ u.m_vStateList, (u.allocState s).states p = u.states p := by
    intro p hp
    exact if_neg (Nat.ne_of_lt (hu.bound p hp))
  have hpairwise : ∀ {R : State → State → Prop}, u.m_vStateList.Pairwise (fun p q => R (u.states p) (u.states q)) →
      (∀ p ∈ u.m_vStateList, R (u.states p) s) → (u.m_vStateList ++ [u.nextState]).Pairwise fun p q =>
        R ((u.allocState s).states p) ((u.allocState s).states q) := by
    intro R hR hs
    rw [List.pairwise_append]
    refine ⟨hR.imp_of_mem fun {p q} hp hq h => ?_, List.pairwise_singleton _ _, fun p hp q hq => ?_⟩
    · rw [hold p hp, hold q hq]
      exact h
    · rw [List.mem_singleton.mp hq, hnew, hold p hp]
      exact hs p hp
  refine ⟨⟨?_, ?_, ?_, ?_⟩, ?_⟩
  · exact hpairwise (R := fun s s' => s.m_nCode ≠ s'.m_nCode) hu.codes hcode
  · exact hpairwise (R := fun s s' => ∀ group ≠ 0,
      ¬(s.isDuplicatedGroup group = true ∧ s'.isDuplicatedGroup group = true)) hu.groups hgroup
  · exact hpairwise (R := fun s s' => s.m_nUID ≠ s'.m_nUID) hu.uids huid
  · intro p hp
    rcases List.mem_append.mp hp with hp | hp
    · rw [hold p hp]
      exact hu.nonzero p hp
    · rw [List.mem_singleton.mp hp, hnew]
      exact hzero
  · intro p hp
    show p < u.nextState + 1
    rcases List.mem_append.mp hp with hp | hp
    · exact Nat.lt_succ_of_lt (hu.bound p hp)
    · rw [List.mem_singleton.mp hp]
      exact Nat.lt_succ_self _

theorem getState_none (h : u.getState a.code = none) : ∀ p ∈ u.m_vStateList, (u.states p).m_nCode ≠ a.code := by
  intro p hp
  simpa using List.find?_eq_none.mp h p hp

/-- The new state and one that it does not exclude have no group in common. -/
theorem not_isDuplicate_groups {s s' : State} (hs' : s'.m_pTemplate = some info) (h : isDuplicate info a s = false)
    {group : Int} (hgroup : s'.isDuplicatedGroup group = true) : s.isDuplicatedGroup group = false := by
  rw [State.isDuplicatedGroup, hs', List.any_eq_true] at hgroup
  obtain ⟨i, -, hi⟩ := hgroup
  rw [Bool.and_eq_true, beq_iff_eq] at hi
  rw [isDuplicate, Bool.or_eq_false_iff, List.any_eq_false] at h
  have := h.2 i (List.mem_finRange i)
  rw [hi.2] at this
  exact Bool.eq_false_iff.mpr this

theorem ListOk.addStatePast (hu : ListOk u) (hinfo : u.stateInfo a.code = some info) (hfresh : u.fresh info a = true) :
    ListOk (u.addStatePast info a).2 := by
  unfold UnitStates.addStatePast
  rw [fresh] at hfresh
  cases hdup : u.duplicates info a u.m_vStateList with
  | none => exact hu
  | some uids =>
    rw [hdup] at hfresh
    have hshrinks : Shrinks u (uids.foldl deleteUID u) := shrinks_foldl deleteUID_shrinks uids u
    have hok := hu.shrinks hshrinks
    dsimp only at hfresh ⊢
    unfold UnitStates.putState
    dsimp only
    cases hstate : u.getState a.code with
    | some p =>
      rw [if_pos Option.isSome_some]
      split
      · exact hok
      · exact hok.shrinks (shrinks_updState _ _ (by
          unfold State.addState
          split_ifs <;> exact ⟨rfl, rfl, rfl⟩))
    | none =>
      rw [if_neg (by exact Bool.false_ne_true)]
      rw [hstate, Option.isSome_none, Bool.false_or, Bool.and_eq_true, bne_iff_ne, List.all_eq_true] at hfresh
      obtain ⟨hzero, huids⟩ := hfresh
      obtain ⟨hcounter, hinfos⟩ := foldl_deleteUID_counter uids u
      obtain ⟨hcode, huid, htemplate⟩ := newState_keys (uids.foldl deleteUID u) a
      have huid : ((uids.foldl deleteUID u).newState a).m_nUID = u.nextUID := by rw [huid, nextUID, hcounter, nextUID]
      rw [hinfos, hinfo] at htemplate
      have hcodes := getState_none hstate
      have hremains : ∀ p ∈ (uids.foldl deleteUID u).m_vStateList,
          isDuplicate info a ((uids.foldl deleteUID u).states p) = false := by
        intro p hp
        have hmem := hshrinks.list.subset hp
        by_contra hd
        have hsame := hshrinks.same p
        have hd : isDuplicate info a (u.states p) = true := by
          rw [← (Bool.not_eq_false _).mp hd, isDuplicate, isDuplicate, hsame.code]
          simp only [hsame.isDuplicatedGroup]
        rcases duplicates_spec hdup p hmem hd with h | h
        · exact hcodes p hmem h
        · exact foldl_deleteUID_gone hu uids p hp h
      apply hok.allocState
      · intro p hp
        rw [hcode, (hshrinks.same p).code]
        exact hcodes p (hshrinks.list.subset hp)
      · rintro p hp group - ⟨hold, hnew⟩
        rw [not_isDuplicate_groups htemplate (hremains p hp) hnew] at hold
        cases hold
      · intro p hp
        rw [huid, (hshrinks.same p).uid]
        exact bne_iff_ne.mp (huids p hp)
      · rw [huid]
        exact hzero

/-! ## `AddState` -/

theorem uncovered_shrinks (h : u.uncovered c info = some u') : Shrinks u u' ∧ u'.stateInfo = u.stateInfo := by
  have hfound : ∀ {v w : UnitStates} {found : State → Bool}, v.removeFound found = some w → w.stateInfo = v.stateInfo := by
    intro v w found h
    unfold removeFound at h
    split at h
    · rw [Option.some.inj h]
    · obtain ⟨next, -, rfl⟩ := Option.map_eq_some_iff.mp h
      rfl
  unfold uncovered at h
  split_ifs at h
  · obtain ⟨v, hv, h⟩ := Option.bind_eq_some_iff.mp h
    exact ⟨(shrinks_removeFound hv).trans (shrinks_removeFound h), (hfound h).trans (hfound hv)⟩
  · rw [Option.some.inj h]
    exact ⟨.refl _, rfl⟩

/-- A call of `AddState` ends at its first checks, or goes on with what is left of the list. -/
inductive Added (u : UnitStates) (c : Circumstances) (a : NewState) : ResultCode → UnitStates → Prop
  | unknown : u.stateInfo a.code = none → Added u c a .notExist u
  | guarded {info : StateTemplate} {code : ResultCode} : u.stateInfo a.code = some info → u.addStateGuard c info a = code →
      code ≠ .success → Added u c a code u
  | past {info : StateTemplate} {v : UnitStates} : u.stateInfo a.code = some info → u.addStateGuard c info a = .success →
      u.uncovered c info = some v → Added u c a (v.addStatePast info a).1 (v.addStatePast info a).2

theorem addState_added {code : ResultCode} (h : u.addState c a = some (code, u')) : Added u c a code u' := by
  unfold addState at h
  cases hinfo : u.stateInfo a.code with
  | none =>
    rw [hinfo] at h
    cases h
    exact .unknown hinfo
  | some info =>
    rw [hinfo] at h
    dsimp only at h
    cases hguard : u.addStateGuard c info a with
    | success =>
      rw [hguard] at h
      obtain ⟨v, hv, h⟩ := Option.map_eq_some_iff.mp h
      have hpast := Added.past (a := a) hinfo hguard hv
      rw [h] at hpast
      exact hpast
    | _ =>
      rw [hguard] at h
      cases h
      exact .guarded hinfo hguard nofun

theorem ListOk.addState (hu : ListOk u) {code : ResultCode} (hfresh : u.issuesFresh c a = true)
    (h : u.addState c a = some (code, u')) : ListOk u' := by
  cases addState_added h with
  | unknown hinfo => exact hu
  | guarded hinfo hguard hcode => exact hu
  | past hinfo hguard hv =>
    rw [issuesFresh, hinfo] at hfresh
    dsimp only at hfresh
    rw [hguard, hv] at hfresh
    obtain ⟨hshrinks, hinfos⟩ := uncovered_shrinks hv
    exact (hu.shrinks hshrinks).addStatePast (hinfos ▸ hinfo) hfresh

theorem addStatePast_refused (h : (u.addStatePast info a).1 ≠ .success) :
    (u.duplicates info a u.m_vStateList).isNone = true ∧ (u.addStatePast info a).2 = u := by
  unfold addStatePast at h ⊢
  cases hdup : u.duplicates info a u.m_vStateList with
  | none => exact ⟨rfl, rfl⟩
  | some uids =>
    rw [hdup] at h
    exact absurd rfl h

theorem refuses_of_added {code : ResultCode} (h : Added u c a code u') (hcode : code ≠ .success) : u.refuses c a = true := by
  cases h with
  | unknown hinfo => rw [refuses, hinfo]
  | guarded hinfo hguard hguarded =>
    rw [refuses, hinfo]
    dsimp only
    rw [hguard, bne_iff_ne.mpr hguarded, Bool.true_or]
  | past hinfo hguard hv =>
    rw [refuses, hinfo]
    dsimp only
    rw [hv, Option.any_some, (addStatePast_refused hcode).1, Bool.or_true]

/-- Nothing that hides the unit is there to be taken out. -/
theorem uncovered_of_quietly {unmount : List Event} (hquiet : u.quietly unmount c a = true) (hinfo : u.stateInfo a.code = some info)
    (hguard : u.addStateGuard c info a = .success) : u.uncovered c info = some u := by
  rw [quietly, Bool.and_eq_true, Bool.or_eq_true, Bool.and_eq_true, Bool.not_eq_true', Bool.not_eq_true', Bool.not_eq_true',
    uncovers, hinfo] at hquiet
  dsimp only at hquiet
  rw [hguard] at hquiet
  unfold uncovered
  split_ifs with hride
  · obtain ⟨-, hnot | ⟨hhide, htrace⟩⟩ := hquiet
    · rw [hride.1, hride.2] at hnot
      cases hnot
    · rw [removeState, removeFound_of_not_holds hhide, Option.bind_some, removeState, removeFound_of_not_holds htrace]
  · rfl

/-- What is refused at once changes nothing. -/
theorem addState_refused {unmount : List Event} {v : UnitStates} {code : ResultCode} (hcalls : listCalls unmount u = some v)
    (hquiet : v.refuses c a = true → u.quietly unmount c a = true) (h : v.addState c a = some (code, u'))
    (hcode : code ≠ .success) : SameList u u' := by
  have hadded := addState_added h
  have hquietly := hquiet (refuses_of_added hadded hcode)
  have hempty : unmount = [] := by
    rw [quietly, Bool.and_eq_true] at hquietly
    exact List.isEmpty_iff.mp hquietly.1
  rw [hempty] at hcalls
  obtain rfl := Option.some.inj hcalls
  cases hadded with
  | unknown hinfo => exact ⟨rfl, fun _ _ => rfl⟩
  | guarded hinfo hguard hguarded => exact ⟨rfl, fun _ _ => rfl⟩
  | past hinfo hguard hv =>
    rw [uncovered_of_quietly hquietly hinfo hguard] at hv
    obtain rfl := Option.some.inj hv
    rw [(addStatePast_refused hcode).2]
    exact ⟨rfl, fun _ _ => rfl⟩

/-! ## Runs -/

theorem ListOk.call (hu : ListOk u) (hfresh : u.callFresh e = true) (h : u.listHandle e = some u') : ListOk u' := by
  cases e with
  | addState c a =>
    obtain ⟨⟨code, v⟩, hadd, rfl⟩ := Option.map_eq_some_iff.mp h
    exact hu.addState hfresh hadd
  | readState code s => cases h
  | clearExpiredState c t =>
    obtain rfl := Option.some.inj h
    exact hu.shrinks (shrinks_clearExpiredState u c t)
  | removeState code level => exact hu.shrinks (shrinks_removeFound h)
  | removeStateUID uid => exact hu.shrinks (shrinks_removeFound h)
  | removeGoodState level => exact hu.shrinks (shrinks_removeGoodLoop h)
  | removeStatesOnDamage =>
    obtain rfl := Option.some.inj h
    exact hu.shrinks (shrinks_list u List.filter_sublist)
  | removeStateByDead =>
    obtain rfl := Option.some.inj h
    exact hu.shrinks (shrinks_removeStateByDead u)
  | restoreRemovedStateByDeath c => cases h
  | clearRemovedStateByDeath =>
    obtain rfl := Option.some.inj h
    exact hu.shrinks (shrinks_clearRemovedStateByDeath u)
  | destroy =>
    obtain rfl := Option.some.inj h
    exact ⟨.of_list_nil rfl, fun p hp => (nomatch hp)⟩

theorem ListOk.calls {es : List Event} (hu : ListOk u) (hfresh : callsFresh es u = true) (h : listCalls es u = some u') :
    ListOk u' := by
  induction es generalizing u with
  | nil =>
    obtain rfl := Option.some.inj h
    exact hu
  | cons e es ih =>
    obtain ⟨v, hv, h⟩ := Option.bind_eq_some_iff.mp h
    rw [callsFresh, hv, Option.all_some, Bool.and_eq_true] at hfresh
    exact ih (hu.call hfresh.1 hv) hfresh.2 h

theorem ListOk.handle (hu : ListOk u) {e : ListEvent} (hcareful : ListCareful u e) (h : u.handleList e = some u') :
    ListOk u' := by
  cases e with
  | addState unmount c a =>
    obtain ⟨v, hv, h⟩ := Option.bind_eq_some_iff.mp h
    obtain ⟨⟨code, w⟩, hadd, rfl⟩ := Option.map_eq_some_iff.mp h
    obtain ⟨hfresh, hall⟩ := hcareful
    rw [hv, Option.all_some, Bool.and_eq_true] at hall
    exact (hu.calls hfresh hv).addState hall.1 hadd
  | remove e =>
    have hfresh : u.callFresh e = true ∧ u.listHandle e = some u' := by
      cases e with
      | addState c a => cases h
      | _ => exact ⟨rfl, h⟩
    exact hu.call hfresh.1 hfresh.2

theorem listOk_of_run (hrun : listSystem.RunWhere (fun _ u e => ListCareful u e) hist u) :
    ListOk u ∧ ∀ tr ∈ hist, ListCareful tr.before tr.event := by
  apply hrun.invariant (I := fun hist u => ListOk u ∧ ∀ tr ∈ hist, ListCareful tr.before tr.event)
  · rintro u ⟨hnext, hheld, hrequests⟩
    have hlist : u.m_vStateList = [] := (List.append_eq_nil_iff.mp hheld).1
    refine ⟨⟨.of_list_nil hlist, fun p hp => ?_⟩, fun tr htr => (nomatch htr)⟩
    rw [hlist] at hp
    cases hp
  · rintro h u e v _ ⟨hu, hhist⟩ hcareful hstep
    refine ⟨hu.handle hcareful hstep, fun tr htr => ?_⟩
    rcases List.mem_cons.mp htr with rfl | htr
    · exact hcareful
    · exact hhist tr htr

/-- Of every unit and every run in which the identifiers are fresh and refusals come first. -/
theorem listUnique_of_run (hrun : listSystem.RunWhere (fun _ u e => ListCareful u e) hist u) : ListUnique hist u := by
  obtain ⟨hok, hhist⟩ := listOk_of_run hrun
  refine ⟨hok.toStatesUnique, fun tr htr unmount c a v code w hevent hcalls hadd hcode => ?_⟩
  have hcareful := hhist tr htr
  rw [hevent] at hcareful
  obtain ⟨-, hall⟩ := hcareful
  rw [hcalls, Option.all_some, Bool.and_eq_true, Bool.or_eq_true, Bool.not_eq_true'] at hall
  refine addState_refused hcalls (fun hrefuses => hall.2.resolve_left fun hnot => ?_) hadd hcode
  rw [hrefuses] at hnot
  cases hnot

/-- A state replaces another one, a weaker one is refused, and time passes. -/
theorem listUnique_novice : ∃ hist u, listSystem.RunWhere (fun _ u e => ListCareful u e) hist u ∧
    u.m_vStateList.map (fun p => ((u.states p).m_nCode, (u.states p).m_nUID)) = [(2, 2), (3, 3)] ∧ ListUnique hist u := by
  obtain ⟨hist, u, hrun, hu⟩ := System.exists_run_exec
    (fun u : UnitStates => u.m_vStateList.map fun p => ((u.states p).m_nCode, (u.states p).m_nUID))
    [.addState [] {} { code := 1, level := 1, end_time := 100 }, .addState [] {} { code := 2, level := 2, end_time := 100 },
      .addState [] {} { code := 1, level := 1, end_time := 100 }, .addState [] {} { code := 3, level := 1, end_time := 100 },
      .remove (.clearExpiredState {} 50)]
    (System.RunWhere.init ⟨rfl, rfl, fun _ => rfl⟩ : listSystem.RunWhere (fun _ u e => ListCareful u e) [] novice)
    (by decide +kernel : _ = some [((2 : Int), 2), (3, 3)])
  exact ⟨hist, u, hrun, hu, listUnique_of_run hrun⟩

/-- A player before the first state. The states 5 and 6 are of riding and exclude each other. -/
def rider : UnitStates where
  kind := .player
  stateInfo code := some (if code = 5 ∨ code = 6 then { effect_type := SEF_RIDING, duplicate_group := fun _ => 1 } else {})
  states _ := ⟨0, 0, fun _ => 0, fun _ => 0, fun _ => 0, fun _ => 0, false, none, 0⟩
  nextState := 0
  m_vStateList := []
  m_vStateListRemovedByDeath := []
  m_nCurrentStateUID := 0

/-- A riding state is refused for a stronger one, but what hid the player is gone. -/
theorem not_listUnique : ¬∀ hist u, listSystem.Run hist u → ListUnique hist u := by
  intro h
  obtain ⟨hist, u, hrun, hu⟩ := System.exists_run_exec
    (fun u : UnitStates => (u.m_vStateList, u.addState { isHiding := true } { code := 6, level := 1 } |>.map fun x =>
      (x.1, x.2.m_vStateList)))
    [.addState [] {} { code := StateCode.SC_HIDE, level := 1 }, .addState [] {} { code := 5, level := 2 }]
    (System.RunWhere.init ⟨rfl, rfl, fun _ => rfl⟩ : listSystem.Run [] rider)
    (by decide +kernel : _ = some ([0, 1], some (.alreadyExist, [1])))
  obtain ⟨hlist, hadd⟩ := Prod.mk.inj hu
  obtain ⟨⟨code, w⟩, hadd, hw⟩ := Option.map_eq_some_iff.mp hadd
  obtain ⟨rfl, hremains⟩ := Prod.mk.inj hw
  have hstep : u.handleList (.addState [] { isHiding := true } { code := 6, level := 1 }) = some w := by
    rw [handleList, listCalls, Option.bind_some, hadd]
    rfl
  have hnext := System.RunWhere.step hrun trivial hstep
  have hsame := ((h _ w hnext).refused _ List.mem_cons_self [] _ _ u _ w rfl rfl hadd nofun).1
  have hlist : u.m_vStateList = [0, 1] := hlist
  have hremains : w.m_vStateList = [1] := hremains
  have hsame : w.m_vStateList = u.m_vStateList := hsame
  rw [hremains, hlist] at hsame
  cases hsame

end UnitStates

end RZEmulator.Chihiro
