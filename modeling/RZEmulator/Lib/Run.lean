import Mathlib.Tactic.Common

/-!
# Runs of a labelled transition system

A `System` is an initial predicate and a step relation labelled with events. A run is recorded as its
history, the list of its transitions with the latest first, together with the state it ends in.
`RunWhere C` are the runs every step of which meets `C`; the condition may look at the history before
the step, so that it can speak of what an earlier event did.

`RunWhere.invariant` is the one induction over runs: a property of history and state that holds at the
start and that every admitted step keeps holds at the end of every run. `Since` is the past-time
operator "some earlier transition did `P`, and `I` has held in every state after it".
-/

namespace RZEmulator.Lib

/-- One transition of a run. -/
structure Transition (σ ε : Type*) where
  before : σ
  event : ε
  after : σ

/-- The transitions of a run, the latest first. -/
abbrev History (σ ε : Type*) := List (Transition σ ε)

structure System (σ ε : Type*) where
  Init : σ → Prop
  Step : σ → ε → σ → Prop

namespace System

variable {σ ε : Type*}

/-- The runs of `S` every step of which meets `C`. -/
inductive RunWhere (S : System σ ε) (C : History σ ε → σ → ε → Prop) : History σ ε → σ → Prop
  | init {s : σ} : S.Init s → RunWhere S C [] s
  | step {h : History σ ε} {s t : σ} {e : ε} :
      RunWhere S C h s → C h s e → S.Step s e t → RunWhere S C (⟨s, e, t⟩ :: h) t

/-- The runs of `S`. -/
abbrev Run (S : System σ ε) : History σ ε → σ → Prop := S.RunWhere fun _ _ _ => True

variable {S : System σ ε} {C : History σ ε → σ → ε → Prop}

theorem RunWhere.mono {D : History σ ε → σ → ε → Prop} (hCD : ∀ h s e, C h s e → D h s e)
    {h : History σ ε} {s : σ} (hrun : S.RunWhere C h s) : S.RunWhere D h s := by
  induction hrun with
  | init h0 => exact .init h0
  | step _ hc hs ih => exact .step ih (hCD _ _ _ hc) hs

theorem RunWhere.run {h : History σ ε} {s : σ} (hrun : S.RunWhere C h s) : S.Run h s :=
  hrun.mono fun _ _ _ _ => trivial

/-- **The invariant rule**: what holds at the start and is kept by every admitted step of a run holds
at the end of the run. -/
theorem RunWhere.invariant {I : History σ ε → σ → Prop} (hinit : ∀ s, S.Init s → I [] s)
    (hstep : ∀ h s e t, S.RunWhere C h s → I h s → C h s e → S.Step s e t → I (⟨s, e, t⟩ :: h) t)
    {h : History σ ε} {s : σ} (hrun : S.RunWhere C h s) : I h s := by
  induction hrun with
  | init h0 => exact hinit _ h0
  | step hr hc hs ih => exact hstep _ _ _ _ hr ih hc hs

/-- Every transition of a run is a step taken at the end of a shorter run. -/
theorem RunWhere.of_mem {h : History σ ε} {s : σ} (hrun : S.RunWhere C h s) {t : Transition σ ε}
    (ht : t ∈ h) : ∃ h', S.RunWhere C h' t.before ∧ C h' t.before t.event ∧
      S.Step t.before t.event t.after := by
  induction hrun with
  | init _ => cases ht
  | step hr hc hs ih =>
    rcases List.mem_cons.mp ht with rfl | ht
    · exact ⟨_, hr, hc, hs⟩
    · exact ih ht

/-! ## Systems given by a partial step function -/

/-- The system that starts in a state of `init` and steps by `f`; an event on which `f` has no result
ends the run. -/
def ofFun (init : σ → Prop) (f : σ → ε → Option σ) : System σ ε where
  Init := init
  Step s e t := f s e = some t

/-- The history and the last state of the run that takes the given events in order, as long as each
meets `C` and has a result. -/
def exec (C : History σ ε → σ → ε → Prop) [∀ h s e, Decidable (C h s e)] (f : σ → ε → Option σ) :
    List ε → History σ ε → σ → Option (History σ ε × σ)
  | [], h, s => some (h, s)
  | e :: es, h, s =>
    if C h s e then (f s e).bind fun t => exec C f es (⟨s, e, t⟩ :: h) t else none

/-- What `exec` returns is a run of every system that takes the steps of the function. -/
theorem RunWhere.exec [∀ h s e, Decidable (C h s e)] {f : σ → ε → Option σ}
    (hf : ∀ s e t, f s e = some t → S.Step s e t) (es : List ε) :
    ∀ {h : History σ ε} {s : σ}, S.RunWhere C h s → ∀ {h' : History σ ε} {s' : σ},
      exec C f es h s = some (h', s') → S.RunWhere C h' s' := by
  induction es with
  | nil =>
    intro h s hrun h' s' hex
    simp only [System.exec, Option.some.injEq, Prod.mk.injEq] at hex
    obtain ⟨rfl, rfl⟩ := hex
    exact hrun
  | cons e es ih =>
    intro h s hrun h' s' hex
    simp only [System.exec] at hex
    split_ifs at hex with he
    obtain ⟨t, ht, hex⟩ := Option.bind_eq_some_iff.mp hex
    exact ih (hrun.step he (hf _ _ _ ht)) hex

theorem run_exec {I : σ → Prop} [∀ h s e, Decidable (C h s e)] {f : σ → ε → Option σ} (es : List ε)
    {h : History σ ε} {s : σ} (hrun : (ofFun I f).RunWhere C h s) {h' : History σ ε} {s' : σ}
    (hex : exec C f es h s = some (h', s')) : (ofFun I f).RunWhere C h' s' :=
  hrun.exec (fun _ _ _ ht => ht) es hex

/-- A run that is known by the events it takes, and what is to be known of its last state. -/
theorem exists_run_exec {I : σ → Prop} [∀ h s e, Decidable (C h s e)] {f : σ → ε → Option σ}
    {α : Type*} (P : σ → α) (es : List ε) {h : History σ ε} {s : σ} (hrun : (ofFun I f).RunWhere C h s) {a : α}
    (hex : (exec C f es h s).map (fun x => P x.2) = some a) :
    ∃ h' s', (ofFun I f).RunWhere C h' s' ∧ P s' = a := by
  obtain ⟨⟨h', s'⟩, hex, ha⟩ := Option.map_eq_some_iff.mp hex
  exact ⟨h', s', run_exec es hrun hex, ha⟩

end System

/-! ## The past -/

variable {σ ε : Type*}

/-- Some earlier transition did `P`, and `I` has held in every state since (its result included). -/
def Since (I : σ → Prop) (P : Transition σ ε → Prop) : History σ ε → Prop
  | [] => False
  | t :: h => I t.after ∧ (P t ∨ Since I P h)

theorem Since.now {I : σ → Prop} {P : Transition σ ε → Prop} {t : Transition σ ε} {h : History σ ε}
    (hI : I t.after) (hP : P t) : Since I P (t :: h) := ⟨hI, .inl hP⟩

theorem Since.keep {I : σ → Prop} {P : Transition σ ε → Prop} {t : Transition σ ε} {h : History σ ε}
    (hI : I t.after) (hs : Since I P h) : Since I P (t :: h) := ⟨hI, .inr hs⟩

/-- The condition under `Since` may be exchanged for one it implies. -/
theorem Since.mono {I J : σ → Prop} {P : Transition σ ε → Prop} (hIJ : ∀ s, I s → J s) :
    ∀ {h : History σ ε}, Since I P h → Since J P h
  | [], hs => hs
  | _ :: _, ⟨hI, hs⟩ => ⟨hIJ _ hI, hs.imp_right (Since.mono hIJ)⟩

theorem Since.exists_mem {I : σ → Prop} {P : Transition σ ε → Prop} :
    ∀ {h : History σ ε}, Since I P h → ∃ t ∈ h, P t
  | t :: _, ⟨_, .inl hP⟩ => ⟨t, List.mem_cons_self .., hP⟩
  | _ :: _, ⟨_, .inr hs⟩ =>
    have ⟨t, ht, hP⟩ := Since.exists_mem hs
    ⟨t, List.mem_cons_of_mem _ ht, hP⟩

end RZEmulator.Lib
