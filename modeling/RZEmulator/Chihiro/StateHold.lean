import RZEmulator.Lib.Run
import RZEmulator.Chihiro.UnitState

/-!
# Holding a state and releasing it

`State::HoldRemainDuration` and `State::ReleaseRemainDuration` with the remaining times of a state, in 32-bit arithmetic.
`Timer` is what they are for: end times that wait while the state is held, some of them unlimited. `holdFaithful_iff` says of
every run which of the calls keep the two together.
-/

namespace RZEmulator.Chihiro

open Lib

/-- A `State` with its `m_nRemainDuration`. -/
structure HoldableState extends State where
  m_nRemainDuration : StateType → Nat

theorem SG_DUPLICATE_lt : 1 < 3 := by decide

def SG_DUPLICATE : StateType := ⟨1, SG_DUPLICATE_lt⟩

/-- An end time of -1: the level is unlimited. -/
def UNLIMITED : Nat := 2 ^ 32 - 1

namespace HoldableState

def getRemainDuration (s : HoldableState) : Nat :=
  if s.m_nRemainDuration SG_NORMAL > s.m_nRemainDuration SG_DUPLICATE then s.m_nRemainDuration SG_NORMAL else s.m_nRemainDuration SG_DUPLICATE

def isHolded (s : HoldableState) : Bool := s.getRemainDuration != 0

/-- `State::ReleaseRemainDuration` at the time `t`. -/
def releaseRemainDuration (s : HoldableState) (t : Nat) : HoldableState :=
  if s.isHolded = false then s
  else
    { s with
      m_nEndTime := fun i => (t + s.m_nRemainDuration i) % 2 ^ 32
      m_nRemainDuration := fun _ => 0
      m_bAura := false }

/-- `State::HoldRemainDuration` at the time `t`. -/
def holdRemainDuration (s : HoldableState) (t : Nat) : HoldableState :=
  if s.isHolded = true ∨ s.m_bAura = true then s
  else
    { s with
      m_nRemainDuration := fun i => (s.m_nEndTime i + 2 ^ 32 - t) % 2 ^ 32
      m_nEndTime := fun _ => UNLIMITED
      m_bAura := true }

theorem isHolded_eq_false_iff (s : HoldableState) :
    s.isHolded = false ↔ s.m_nRemainDuration SG_NORMAL = 0 ∧ s.m_nRemainDuration SG_DUPLICATE = 0 := by
  unfold isHolded getRemainDuration
  rw [bne_eq_false_iff_eq]
  split_ifs <;> omega

theorem isHolded_eq_true_iff (s : HoldableState) :
    s.isHolded = true ↔ s.m_nRemainDuration SG_NORMAL ≠ 0 ∨ s.m_nRemainDuration SG_DUPLICATE ≠ 0 := by
  rw [← Bool.not_eq_false, isHolded_eq_false_iff]
  omega

end HoldableState

/-! ## What holding is for -/

/-- End times that wait while they are held; `none` is unlimited. An aura cannot be held. -/
structure Timer where
  ends : StateType → Option Nat
  since : Option Nat := none
  aura : Bool := false

namespace Timer

def hold (x : Timer) (t : Nat) : Timer :=
  if x.since.isSome ∨ x.aura = true then x else { x with since := some t }

def release (x : Timer) (t : Nat) : Timer :=
  match x.since with
  | none => x
  | some h => { x with ends := fun i => (x.ends i).map (· + (t - h)), since := none }

end Timer

/-- The end time that stands for `e`. -/
def encodeEnd (e : Option Nat) : Nat := e.getD UNLIMITED

def decodeEnd (n : Nat) : Option Nat := if n = UNLIMITED then none else some n

theorem encodeEnd_decodeEnd (n : Nat) : encodeEnd (decodeEnd n) = n := by
  unfold encodeEnd decodeEnd
  split_ifs with h
  · exact h.symm
  · rfl

/-! ## Both, call by call -/

/-- A state, the timer it stands for and the time of the last call. -/
structure HeldRun where
  state : HoldableState
  timer : Timer
  clock : Nat

inductive HoldEvent where
  | hold (t : Nat)
  | release (t : Nat)

namespace HoldEvent

def time : HoldEvent → Nat
  | hold t => t
  | release t => t

end HoldEvent

namespace HeldRun

variable {p q : HeldRun} {h : History HeldRun HoldEvent} {e : HoldEvent} {n t h₀ : Nat}

/-- A state that has not been held yet. -/
def Fresh (p : HeldRun) : Prop :=
  (∀ i, p.state.m_nEndTime i < 2 ^ 32) ∧ p.state.m_nRemainDuration = (fun _ => 0) ∧
    p.timer = ⟨fun i => decodeEnd (p.state.m_nEndTime i), none, p.state.m_bAura⟩

def exec (p : HeldRun) : HoldEvent → HeldRun
  | .hold t => ⟨p.state.holdRemainDuration t, p.timer.hold t, t⟩
  | .release t => ⟨p.state.releaseRemainDuration t, p.timer.release t, t⟩

theorem exec_hold (p : HeldRun) (t : Nat) :
    p.exec (.hold t) = ⟨p.state.holdRemainDuration t, p.timer.hold t, t⟩ := rfl

theorem exec_release (p : HeldRun) (t : Nat) :
    p.exec (.release t) = ⟨p.state.releaseRemainDuration t, p.timer.release t, t⟩ := rfl

/-- Calls at times that never go back, each a 32-bit number. -/
def holdSystem : System HeldRun HoldEvent where
  Init := Fresh
  Step p e q := p.clock ≤ e.time ∧ e.time < 2 ^ 32 ∧ q = p.exec e

/-- The state shows what the timer says: while it is held it is so marked and no level of it expires, and otherwise every
level has the end time it should have. -/
def Faithful (p : HeldRun) : Prop :=
  match p.timer.since with
  | none => p.state.isHolded = false ∧ ∀ i, decodeEnd (p.state.m_nEndTime i) = p.timer.ends i
  | some _ => p.state.isHolded = true ∧ ∀ t < 2 ^ 32, ∀ i, p.state.levelExpired t i = false

/-- The calls that do no harm: a state is not held at the very time at which both its levels end, and a held state is
released at once where a level is unlimited, and otherwise while the new end times are below -1. -/
def CarefulHold (p : HeldRun) : HoldEvent → Prop
  | .hold t => p.timer.since = none → p.timer.aura = false →
      encodeEnd (p.timer.ends SG_NORMAL) ≠ t ∨ encodeEnd (p.timer.ends SG_DUPLICATE) ≠ t
  | .release t => ∀ h, p.timer.since = some h →
      ∀ i, (p.timer.ends i = none → t = h) ∧ ∀ e, p.timer.ends i = some e → e + (t - h) < UNLIMITED

/-! ## What the fields are between the calls -/

/-- The fields of the state, by what the timer says. -/
structure Tracks (p : HeldRun) : Prop where
  bound : ∀ i e, p.timer.ends i = some e → e < UNLIMITED
  free : p.timer.since = none → p.state.m_nRemainDuration = (fun _ => 0) ∧ p.state.m_bAura = p.timer.aura ∧
    ∀ i, p.state.m_nEndTime i = encodeEnd (p.timer.ends i)
  held : ∀ h, p.timer.since = some h → h ≤ p.clock ∧ p.timer.aura = false ∧ p.state.isHolded = true ∧
    (∀ i, p.state.m_nEndTime i = UNLIMITED) ∧
    ∀ i, p.state.m_nRemainDuration i = (encodeEnd (p.timer.ends i) + 2 ^ 32 - h) % 2 ^ 32

theorem Fresh.tracks (hp : p.Fresh) : p.Tracks := by
  obtain ⟨hlt, hzero, htimer⟩ := hp
  refine ⟨fun i e he => ?_, fun _ => ⟨hzero, ?_, fun i => ?_⟩, fun h hsince => ?_⟩
  · rw [htimer] at he
    simp only [decodeEnd] at he
    split_ifs at he with hne
    have := hlt i
    have := Option.some.inj he
    unfold UNLIMITED at hne ⊢
    omega
  · rw [htimer]
  · rw [htimer]
    exact (encodeEnd_decodeEnd _).symm
  · rw [htimer] at hsince
    cases hsince

theorem Tracks.isHolded (hp : p.Tracks) (hfree : p.timer.since = none) : p.state.isHolded = false := by
  rw [HoldableState.isHolded_eq_false_iff, (hp.free hfree).1]
  exact ⟨rfl, rfl⟩

theorem Tracks.decodeEnd_encodeEnd (hp : p.Tracks) (i : StateType) : decodeEnd (encodeEnd (p.timer.ends i)) = p.timer.ends i := by
  cases he : p.timer.ends i with
  | none => rfl
  | some e => exact if_neg (hp.bound i e he).ne

theorem Tracks.faithful (hp : p.Tracks) : p.Faithful := by
  unfold Faithful
  cases hsince : p.timer.since with
  | none =>
    refine ⟨hp.isHolded hsince, fun i => ?_⟩
    rw [(hp.free hsince).2.2 i]
    exact hp.decodeEnd_encodeEnd i
  | some h =>
    obtain ⟨-, -, hheld, hends, -⟩ := hp.held h hsince
    refine ⟨hheld, fun t ht i => ?_⟩
    unfold State.levelExpired
    rw [hends i, Bool.and_eq_false_iff]
    right
    rw [decide_eq_false_iff_not]
    unfold UNLIMITED
    omega

/-- The end time of a level, as a 32-bit number. -/
theorem Tracks.encodeEnd_lt (hp : p.Tracks) (i : StateType) : encodeEnd (p.timer.ends i) < 2 ^ 32 := by
  cases he : p.timer.ends i with
  | none => decide
  | some e =>
    have := hp.bound i e he
    unfold UNLIMITED at this
    show e < 2 ^ 32
    omega

/-- A level that ended `h` time units before the number `e` ends at the number `t + e - h`, if that is one. -/
theorem add_remain (hn : n < 2 ^ 32) (hh : h₀ ≤ t) (ht : t < 2 ^ 32) :
    (t + (n + 2 ^ 32 - h₀) % 2 ^ 32) % 2 ^ 32 = (n + (t - h₀)) % 2 ^ 32 := by
  omega

/-! ## One call -/

/-- A call of `HoldRemainDuration` on a state that is neither held nor an aura. -/
theorem Tracks.hold (hp : p.Tracks) (hsince : p.timer.since = none) (haura : p.timer.aura = false) (ht : t < 2 ^ 32) :
    ((p.exec (.hold t)).Tracks ↔ encodeEnd (p.timer.ends SG_NORMAL) ≠ t ∨ encodeEnd (p.timer.ends SG_DUPLICATE) ≠ t) ∧
      ((p.exec (.hold t)).Faithful → encodeEnd (p.timer.ends SG_NORMAL) ≠ t ∨ encodeEnd (p.timer.ends SG_DUPLICATE) ≠ t) := by
  obtain ⟨-, hpaura, hends⟩ := hp.free hsince
  have hstate : p.state.holdRemainDuration t = { p.state with
      m_nRemainDuration := fun i => (p.state.m_nEndTime i + 2 ^ 32 - t) % 2 ^ 32
      m_nEndTime := fun _ => UNLIMITED
      m_bAura := true } :=
    if_neg (not_or.mpr ⟨by rw [hp.isHolded hsince]; exact Bool.noConfusion, by rw [hpaura, haura]; exact Bool.noConfusion⟩)
  have htimer : p.timer.hold t = { p.timer with since := some t } :=
    if_neg (not_or.mpr ⟨by rw [hsince]; exact Bool.noConfusion, by rw [haura]; exact Bool.noConfusion⟩)
  have hheld : (p.state.holdRemainDuration t).isHolded = true ↔
      encodeEnd (p.timer.ends SG_NORMAL) ≠ t ∨ encodeEnd (p.timer.ends SG_DUPLICATE) ≠ t := by
    have h0 := hp.encodeEnd_lt SG_NORMAL
    have h1 := hp.encodeEnd_lt SG_DUPLICATE
    rw [hstate, HoldableState.isHolded_eq_true_iff]
    dsimp only
    rw [hends SG_NORMAL, hends SG_DUPLICATE]
    omega
  refine ⟨⟨fun h => ?_, fun h => ?_⟩, fun h => ?_⟩
  · have hsome : (p.exec (.hold t)).timer.since = some t := by rw [exec_hold, htimer]
    exact hheld.mp (h.held t hsome).2.2.1
  · rw [exec_hold, htimer]
    refine ⟨hp.bound, nofun, fun h₀ hsome => ?_⟩
    obtain rfl : t = h₀ := Option.some.inj hsome
    refine ⟨le_rfl, haura, hheld.mpr h, fun i => ?_, fun i => ?_⟩
    · rw [hstate]
    · rw [hstate]
      dsimp only
      rw [hends i]
  · rw [exec_hold, htimer] at h
    exact hheld.mp h.1

/-- A call of `ReleaseRemainDuration` on a state that has been held since `h₀`. -/
theorem Tracks.release (hp : p.Tracks) (hsince : p.timer.since = some h₀) (hclock : p.clock ≤ t) (ht : t < 2 ^ 32) :
    (CarefulHold p (.release t) → (p.exec (.release t)).Tracks) ∧
      ((p.exec (.release t)).Faithful → CarefulHold p (.release t)) := by
  obtain ⟨hle, haura, hheld, -, hremain⟩ := hp.held h₀ hsince
  have hh₀ : h₀ ≤ t := hle.trans hclock
  have hstate : p.state.releaseRemainDuration t = { p.state with
      m_nEndTime := fun i => (t + p.state.m_nRemainDuration i) % 2 ^ 32
      m_nRemainDuration := fun _ => 0
      m_bAura := false } :=
    if_neg (by rw [hheld]; exact Bool.noConfusion)
  have htimer : p.timer.release t = { p.timer with ends := fun i => (p.timer.ends i).map (· + (t - h₀)), since := none } := by
    unfold Timer.release
    rw [hsince]
  have hend : ∀ i, (p.state.releaseRemainDuration t).m_nEndTime i = (encodeEnd (p.timer.ends i) + (t - h₀)) % 2 ^ 32 := by
    intro i
    rw [hstate]
    dsimp only
    rw [hremain i]
    exact add_remain (hp.encodeEnd_lt i) hh₀ ht
  refine ⟨fun hcare => ?_, fun hfaithful h hsome i => ?_⟩
  · have hcare := hcare h₀ hsince
    rw [exec_release, htimer]
    refine ⟨fun i e he => ?_, fun _ => ⟨?_, ?_, fun i => ?_⟩, nofun⟩
    · obtain ⟨e₀, he₀, rfl⟩ := Option.map_eq_some_iff.mp he
      exact (hcare i).2 e₀ he₀
    · rw [hstate]
    · rw [hstate, haura]
    · dsimp only
      rw [hend i]
      cases he : p.timer.ends i with
      | none =>
        obtain rfl := (hcare i).1 he
        rw [Nat.sub_self]
        decide
      | some e =>
        have hlt := (hcare i).2 e he
        unfold UNLIMITED at hlt
        exact Nat.mod_eq_of_lt (show e + (t - h₀) < 2 ^ 32 by omega)
  · obtain rfl : h₀ = h := Option.some.inj (hsince.symm.trans hsome)
    rw [exec_release, htimer] at hfaithful
    have hi := hfaithful.2 i
    dsimp only at hi
    rw [hend i] at hi
    refine ⟨fun hnone => ?_, fun e he => ?_⟩
    · rw [hnone] at hi
      unfold decodeEnd encodeEnd UNLIMITED at hi
      simp only [Option.getD_none, Option.map_none, ite_eq_left_iff, reduceCtorEq, imp_false, not_not] at hi
      omega
    · rw [he] at hi
      unfold decodeEnd at hi
      split_ifs at hi with hne
      · cases hi
      have heq : (e + (t - h₀)) % 2 ^ 32 = e + (t - h₀) := Option.some.inj hi
      have hlt := Nat.mod_lt (e + (t - h₀)) (show 0 < 2 ^ 32 by omega)
      have hne' : (e + (t - h₀)) % 2 ^ 32 ≠ UNLIMITED := hne
      unfold UNLIMITED at hne' ⊢
      omega

/-- What does nothing to the state and to the timer keeps them together. -/
theorem Tracks.idle (hp : p.Tracks) (hclock : p.clock ≤ t) : Tracks ⟨p.state, p.timer, t⟩ :=
  ⟨hp.bound, hp.free, fun h hsome => ⟨(hp.held h hsome).1.trans hclock, (hp.held h hsome).2⟩⟩

/-- **One call**: a careful one keeps the state and the timer together, and any other makes the state wrong at once. -/
theorem Tracks.step (hp : p.Tracks) (hstep : holdSystem.Step p e q) :
    (CarefulHold p e → q.Tracks) ∧ (q.Faithful → CarefulHold p e) := by
  obtain ⟨hclock, ht, rfl⟩ := hstep
  cases e with
  | hold t =>
    cases hsince : p.timer.since with
    | none =>
      cases haura : p.timer.aura with
      | false =>
        obtain ⟨htracks, hfaithful⟩ := hp.hold hsince haura ht
        exact ⟨fun h => htracks.mpr (h hsince haura), fun h _ _ => hfaithful h⟩
      | true =>
        have hstate : p.state.holdRemainDuration t = p.state := if_pos (.inr ((hp.free hsince).2.1.trans haura))
        have htimer : p.timer.hold t = p.timer := if_pos (.inr haura)
        rw [exec_hold, hstate, htimer]
        exact ⟨fun _ => hp.idle hclock, fun _ _ h => absurd (haura.symm.trans h) Bool.noConfusion⟩
    | some h₀ =>
      have hstate : p.state.holdRemainDuration t = p.state := if_pos (.inl (hp.held h₀ hsince).2.2.1)
      have htimer : p.timer.hold t = p.timer := if_pos (.inl (by rw [hsince]; rfl))
      rw [exec_hold, hstate, htimer]
      exact ⟨fun _ => hp.idle hclock, fun _ h => absurd (hsince.symm.trans h) nofun⟩
  | release t =>
    cases hsince : p.timer.since with
    | none =>
      have hstate : p.state.releaseRemainDuration t = p.state := if_pos (hp.isHolded hsince)
      have htimer : p.timer.release t = p.timer := by
        unfold Timer.release
        rw [hsince]
      rw [exec_release, hstate, htimer]
      exact ⟨fun _ => hp.idle hclock, fun _ h hsome => absurd (hsince.symm.trans hsome) nofun⟩
    | some h₀ => exact hp.release hsince hclock ht

/-! ## Runs -/

/-- **Holding and releasing.** The state has shown what the timer says after every call of a run exactly where every call
was a careful one. -/
theorem holdFaithful_iff (hrun : holdSystem.Run h p) :
    (∀ tr ∈ h, tr.after.Faithful) ↔ ∀ tr ∈ h, CarefulHold tr.before tr.event := by
  have hinv : ((∀ tr ∈ h, tr.after.Faithful) ↔ ∀ tr ∈ h, CarefulHold tr.before tr.event) ∧
      ((∀ tr ∈ h, CarefulHold tr.before tr.event) → p.Tracks) := by
    refine System.RunWhere.invariant (I := fun h p => ((∀ tr ∈ h, tr.after.Faithful) ↔
      ∀ tr ∈ h, CarefulHold tr.before tr.event) ∧ ((∀ tr ∈ h, CarefulHold tr.before tr.event) → p.Tracks)) ?_ ?_ hrun
    · exact fun p hp => ⟨iff_of_true (fun _ hmem => absurd hmem List.not_mem_nil) fun _ hmem => absurd hmem List.not_mem_nil,
        fun _ => hp.tracks⟩
    · intro h p e q _ ih _ hstep
      simp only [List.forall_mem_cons]
      refine ⟨⟨fun hq => ?_, fun hcare => ?_⟩, fun hcare => ?_⟩
      · have hcare := ih.1.mp hq.2
        exact ⟨((ih.2 hcare).step hstep).2 hq.1, hcare⟩
      · exact ⟨(((ih.2 hcare.2).step hstep).1 hcare.1).faithful, ih.1.mpr hcare.2⟩
      · exact ((ih.2 hcare.2).step hstep).1 hcare.1
  exact hinv.1

/-- A poison, of level 3 until the time `n`. -/
def poison (n : Nat) : HoldableState where
  m_nCode := 0x1771
  m_nUID := 1
  m_nLevel := fun i => if i = SG_NORMAL then 3 else 0
  m_hCaster := fun _ => 7
  m_nStartTime := fun _ => 0
  m_nEndTime := fun i => if i = SG_NORMAL then n else 0
  m_bAura := false
  m_pTemplate := none
  m_nRemainDuration := fun _ => 0

def poisoned (n : Nat) : HeldRun := ⟨poison n, ⟨fun i => decodeEnd ((poison n).m_nEndTime i), none, false⟩, 0⟩

theorem poisoned_fresh (hn : n < 2 ^ 32) : (poisoned n).Fresh := by
  refine ⟨fun i => ?_, rfl, rfl⟩
  show (if i = SG_NORMAL then n else 0) < 2 ^ 32
  split_ifs
  · exact hn
  · omega

/-- The poison, held at the time 10 and released at the time 30. -/
theorem poisoned_run (hn : n < 2 ^ 32) : holdSystem.Run
    [⟨(poisoned n).exec (.hold 10), .release 30, ((poisoned n).exec (.hold 10)).exec (.release 30)⟩,
      ⟨poisoned n, .hold 10, (poisoned n).exec (.hold 10)⟩]
    (((poisoned n).exec (.hold 10)).exec (.release 30)) :=
  .step (.step (.init (poisoned_fresh hn)) trivial ⟨Nat.zero_le _, by decide, rfl⟩) trivial
    ⟨show 10 ≤ 30 by omega, by decide, rfl⟩

theorem holdFaithful_poison : ∃ (h : History HeldRun HoldEvent) (p : HeldRun),
    holdSystem.Run h p ∧ h.length = 2 ∧ ∀ tr ∈ h, tr.after.Faithful := by
  refine ⟨_, _, poisoned_run (n := 100) (by decide), rfl, (holdFaithful_iff (poisoned_run (by decide))).mpr ?_⟩
  rw [List.forall_mem_cons, List.forall_mem_singleton]
  refine ⟨fun h hsome i => ?_, fun _ _ => .inl (by decide)⟩
  obtain rfl : 10 = h := Option.some.inj hsome
  revert i
  decide

/-- **Failing input**: a poison without an end, held at the time 10 and released at the time 30, ends at the time 19. -/
theorem not_holdFaithful : ¬∀ (h : History HeldRun HoldEvent) (p : HeldRun), holdSystem.Run h p → p.Faithful := by
  intro hall
  have hends := (hall _ _ (poisoned_run (n := UNLIMITED) (by decide))).2 SG_NORMAL
  revert hends
  decide

end HeldRun

end RZEmulator.Chihiro
