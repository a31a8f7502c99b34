import RZEmulator.Chihiro.ItemWearEffect
import RZEmulator.Chihiro.StateHold

/-!
# The level of a state that is decreased

The passes of `CalculateStat.cpp` over the state list, `applyStatByState`, `amplifyStatByState`, `applyStateEffect` and
`applyStateAmplifyEffect`. States with `SEF_DECREASE_STATE_EFFECT` lower the levels at which others are applied. A level is taken
out of the slots from the last to the first; what is left in the entry is carried on also from a slot that was enough.
-/

namespace RZEmulator.Chihiro

open Lib

theorem dependence_lt : 2 < 3 := by decide

def SG_DEPENDENCE : StateType := ⟨2, dependence_lt⟩

def SEF_PARAMETER_INC : Int := 1
def SEF_PARAMETER_AMP : Int := 2
def SEF_PARAMETER_INC_WHEN_EQUIP_SHIELD : Int := 3
def SEF_DECREASE_STATE_EFFECT : Int := 84

/-- A state with the values of its template. Its levels have 16 bits. -/
structure EffectState extends State where
  value : Nat → ℚ
  small : ∀ i, m_nLevel i < 2 ^ 16

namespace EffectState

def getEffectType (s : EffectState) : Int :=
  match s.m_pTemplate with
  | none => 0
  | some info => info.effect_type

def getValue (s : EffectState) (idx : Nat) : ℚ :=
  match s.m_pTemplate with
  | none => 0
  | some _ => s.value idx

/-- `SetLevel` for the three slots. -/
def setLevels (s : EffectState) (level : StateType → Int) : EffectState where
  toState := { s.toState with m_nLevel := fun i => (level i % 2 ^ 16).toNat }
  value := s.value
  small i := by
    show (level i % 2 ^ 16).toNat < 2 ^ 16
    have := Int.emod_lt_of_pos (level i) (show (0 : Int) < 2 ^ 16 by norm_num)
    omega

end EffectState

/-! ## The list of decreases -/

/-- The entries of one state: a code and the decrease of its level. -/
def EffectState.decreases (s : EffectState) : List (Int × Int) :=
  if s.getEffectType = SEF_DECREASE_STATE_EFFECT then
    let nDecreaseLevel := truncated (s.getValue 0 + s.getValue 1 * s.getLevel)
    (((List.range' 2 9).map s.getValue).takeWhile fun v => decide (v ≠ 0)).map fun v => (truncated v, nDecreaseLevel)
  else []

/-- `vDecreaseList` -/
def decreaseList (states : List EffectState) : List (Int × Int) := states.flatMap EffectState.decreases

/-- One slot: its new level, and the entry as it is left. -/
def lowerSlot (nOriginalLevel : Nat) (second : Int) : Int × Int :=
  let nLevel : Int := nOriginalLevel - second
  if nLevel < 0 then (0, -1 * nLevel) else (nLevel, second)

/-- The loop over the slots. -/
def lowerLevels (nOriginalLevel : StateType → Nat) (second : Int) : (StateType → Int) × Int :=
  let dependence := lowerSlot (nOriginalLevel SG_DEPENDENCE) second
  let duplicate := lowerSlot (nOriginalLevel SG_DUPLICATE) dependence.2
  let normal := lowerSlot (nOriginalLevel SG_NORMAL) duplicate.2
  (fun i => if i = SG_NORMAL then normal.1 else if i = SG_DUPLICATE then duplicate.1 else dependence.1, normal.2)

/-- The loop over the entries, which ends with the first for the code. -/
def lowerState (s : EffectState) : List (Int × Int) → EffectState × List (Int × Int)
  | [] => (s, [])
  | rp :: rest =>
    if rp.1 = s.m_nCode then
      let lowered := lowerLevels s.m_nLevel rp.2
      (s.setLevels lowered.1, (rp.1, lowered.2) :: rest)
    else
      let lowered := lowerState s rest
      (lowered.1, rp :: lowered.2)

/-! ## The passes -/

section

variable {U : Type*} (apply : U → EffectState → U)

/-- The loop over the states: what has been applied, and the states with their levels put back. -/
def passLoop : List EffectState → List (Int × Int) → U → U × List EffectState
  | [], _, u => (u, [])
  | s :: states, vDecreaseList, u =>
    let lowered := lowerState s vDecreaseList
    let rest := passLoop states lowered.2 (apply u lowered.1)
    (rest.1, lowered.1.setLevels (fun i => s.m_nLevel i) :: rest.2)

def statePass (u : U) (states : List EffectState) : U × List EffectState := passLoop apply states (decreaseList states) u

end

namespace StatUnit

/-- The bits and the value of a parameter that grows with the level. -/
def growing (s : EffectState) (i : Nat) : BitVec 32 × ℚ :=
  (BitVec.ofInt 32 (truncated (s.getValue i)), s.getValue (i + 1) + s.getValue (i + 2) * s.getLevel)

def statByState (u : StatUnit) (s : EffectState) : StatUnit :=
  if s.getLevel > 0 then
    if s.getEffectType = SEF_PARAMETER_INC then
      [0, 3, 12, 15].foldl (fun u i => u.incParameter (growing s i).1 (growing s i).2 true) u
    else if s.getEffectType = SEF_PARAMETER_INC_WHEN_EQUIP_SHIELD ∧ u.traits.isWearShield = true then
      -- the level is added here, not multiplied
      [0, 3].foldl (fun u i => u.incParameter (growing s i).1 (s.getValue (i + 1) + (s.getValue (i + 2) + s.getLevel)) true) u
    else u
  else u

def amplifyByState (u : StatUnit) (s : EffectState) : StatUnit :=
  if s.getLevel > 0 then
    if s.getEffectType = SEF_PARAMETER_AMP then
      [0, 3, 12, 15].foldl (fun u i => u.ampParameter (growing s i).1 (growing s i).2 true) u
    else u
  else u

/-- A state with a level is given to the function. -/
def ifLeveled (applyState : StatUnit → EffectState → StatUnit) (u : StatUnit) (s : EffectState) : StatUnit :=
  if s.getLevel > 0 then applyState u s else u

def applyStatByState (u : StatUnit) (m_vStateList : List EffectState) : StatUnit × List EffectState :=
  statePass statByState u m_vStateList

def amplifyStatByState (u : StatUnit) (m_vStateList : List EffectState) : StatUnit × List EffectState :=
  statePass amplifyByState u m_vStateList

def applyStateEffect (applyState : StatUnit → EffectState → StatUnit) (u : StatUnit) (m_vStateList : List EffectState) :
    StatUnit × List EffectState :=
  statePass (ifLeveled applyState) u m_vStateList

def applyStateAmplifyEffect (applyStateAmplify : StatUnit → EffectState → StatUnit) (u : StatUnit)
    (m_vStateList : List EffectState) : StatUnit × List EffectState :=
  statePass (ifLeveled applyStateAmplify) u m_vStateList

end StatUnit

/-- The states as a pass applies them. -/
def statesSeen (states : List EffectState) : List EffectState := (statePass (fun seen s => seen ++ [s]) [] states).1

/-! ## The effective level -/

/-- The decrease for the code of a state: that of its first entry. -/
def decreaseOf (l : List (Int × Int)) (s : EffectState) : Int := ((l.find? fun rp => rp.1 = s.m_nCode).map (·.2)).getD 0

/-- A decrease is taken out of the dependence slot, then the duplicate, then the normal one, each unit once. -/
def effectiveLevels (level : StateType → Nat) (d : Nat) (i : StateType) : Nat :=
  if i = SG_NORMAL then level SG_NORMAL - (d - level SG_DEPENDENCE - level SG_DUPLICATE)
  else if i = SG_DUPLICATE then level SG_DUPLICATE - (d - level SG_DEPENDENCE)
  else level SG_DEPENDENCE - d

def EffectState.effective (s : EffectState) (d : Int) : EffectState :=
  s.setLevels fun i => effectiveLevels s.m_nLevel d.toNat i

/-- The slots behind the one that takes the rest of the decrease are empty, or there is no decrease. -/
def NoCarry (level : StateType → Nat) (d : Int) : Prop :=
  d = 0 ∨ (d ≤ level SG_DEPENDENCE → level SG_DUPLICATE = 0 ∧ level SG_NORMAL = 0) ∧
    (level SG_DEPENDENCE < d ∧ d ≤ level SG_DEPENDENCE + level SG_DUPLICATE → level SG_NORMAL = 0)

/-! ## One state -/

theorem slot_cases (i : StateType) : i = SG_NORMAL ∨ i = SG_DUPLICATE ∨ i = SG_DEPENDENCE := by
  revert i
  decide

theorem lowerSlot_spec {n : Nat} {d : Int} (hd : 0 ≤ d) :
    lowerSlot n d = (((n - d.toNat : Nat) : Int), if (n : Int) < d then d - n else d) := by
  unfold lowerSlot
  dsimp only
  split_ifs with h h' h'
  · exact Prod.ext (by omega) (by omega)
  · omega
  · omega
  · exact Prod.ext (by show (n : Int) - d = _; omega) rfl

theorem lowerSlot_nonneg {n : Nat} {d : Int} (hd : 0 ≤ d) : 0 ≤ (lowerSlot n d).2 := by
  rw [lowerSlot_spec hd]
  dsimp only
  split_ifs <;> omega

/-- The slots as the loop leaves them. -/
theorem lowerLevels_slots (level : StateType → Nat) {d : Int} (hd : 0 ≤ d) :
    let d₁ := if (level SG_DEPENDENCE : Int) < d then d - level SG_DEPENDENCE else d
    let d₀ := if (level SG_DUPLICATE : Int) < d₁ then d₁ - level SG_DUPLICATE else d₁
    (lowerLevels level d).1 SG_DEPENDENCE = ((level SG_DEPENDENCE - d.toNat : Nat) : Int) ∧
      (lowerLevels level d).1 SG_DUPLICATE = ((level SG_DUPLICATE - d₁.toNat : Nat) : Int) ∧
      (lowerLevels level d).1 SG_NORMAL = ((level SG_NORMAL - d₀.toNat : Nat) : Int) := by
  intro d₁ d₀
  have h2 := lowerSlot_spec (n := level SG_DEPENDENCE) hd
  have hsecond : (lowerSlot (level SG_DEPENDENCE) d).2 = d₁ := congrArg Prod.snd h2
  have hd₁ : 0 ≤ d₁ := hsecond ▸ lowerSlot_nonneg hd
  have h1 := lowerSlot_spec (n := level SG_DUPLICATE) hd₁
  have hthird : (lowerSlot (level SG_DUPLICATE) (lowerSlot (level SG_DEPENDENCE) d).2).2 = d₀ := by rw [hsecond, h1]
  have hd₀ : 0 ≤ d₀ := by
    rw [← hthird, hsecond]
    exact lowerSlot_nonneg hd₁
  have h0 := lowerSlot_spec (n := level SG_NORMAL) hd₀
  refine ⟨congrArg Prod.fst h2, ?_, ?_⟩
  · show (lowerSlot (level SG_DUPLICATE) (lowerSlot (level SG_DEPENDENCE) d).2).1 = _
    rw [hsecond, h1]
  · show (lowerSlot (level SG_NORMAL) (lowerSlot (level SG_DUPLICATE) (lowerSlot (level SG_DEPENDENCE) d).2).2).1 = _
    rw [hthird, h0]

/-- The slots as the loop leaves them are the right ones if and only if nothing is carried on. -/
theorem lowerLevels_eq_iff (level : StateType → Nat) {d : Int} (hd : 0 ≤ d) :
    (lowerLevels level d).1 = (fun i => (effectiveLevels level d.toNat i : Int)) ↔ NoCarry level d := by
  obtain ⟨h2, h1, h0⟩ := lowerLevels_slots level hd
  have hslots : (lowerLevels level d).1 = (fun i => (effectiveLevels level d.toNat i : Int)) ↔
      (lowerLevels level d).1 SG_NORMAL = ((level SG_NORMAL - (d.toNat - level SG_DEPENDENCE - level SG_DUPLICATE) : Nat) : Int) ∧
        (lowerLevels level d).1 SG_DUPLICATE = ((level SG_DUPLICATE - (d.toNat - level SG_DEPENDENCE) : Nat) : Int) ∧
        (lowerLevels level d).1 SG_DEPENDENCE = ((level SG_DEPENDENCE - d.toNat : Nat) : Int) := by
    refine ⟨fun h => ⟨congrFun h SG_NORMAL, congrFun h SG_DUPLICATE, congrFun h SG_DEPENDENCE⟩, fun h => ?_⟩
    funext i
    rcases slot_cases i with rfl | rfl | rfl
    · exact h.1
    · exact h.2.1
    · exact h.2.2
  rw [hslots, h0, h1, h2]
  unfold NoCarry
  split_ifs <;> omega

/-- A lowered slot is a level of 16 bits. -/
theorem lowerLevels_range {level : StateType → Nat} (hlevel : ∀ i, level i < 2 ^ 16) {d : Int} (hd : 0 ≤ d) (i : StateType) :
    0 ≤ (lowerLevels level d).1 i ∧ (lowerLevels level d).1 i < 2 ^ 16 := by
  obtain ⟨h2, h1, h0⟩ := lowerLevels_slots level hd
  have hmatch : ∀ i, ∃ k : Nat, (lowerLevels level d).1 i = ((level i - k : Nat) : Int) := by
    intro i
    rcases slot_cases i with rfl | rfl | rfl
    · exact ⟨_, h0⟩
    · exact ⟨_, h1⟩
    · exact ⟨_, h2⟩
  obtain ⟨k, hk⟩ := hmatch i
  have := hlevel i
  rw [hk]
  omega

theorem effectiveLevels_le (level : StateType → Nat) (d : Nat) (i : StateType) : effectiveLevels level d i ≤ level i := by
  rcases slot_cases i with rfl | rfl | rfl
  · exact Nat.sub_le _ _
  · exact Nat.sub_le _ _
  · exact Nat.sub_le _ _

/-- What is left of the level in all. -/
theorem effectiveLevels_total (level : StateType → Nat) (d : Nat) :
    effectiveLevels level d SG_NORMAL + effectiveLevels level d SG_DUPLICATE + effectiveLevels level d SG_DEPENDENCE =
      level SG_NORMAL + level SG_DUPLICATE + level SG_DEPENDENCE - d := by
  show (level SG_NORMAL - (d - level SG_DEPENDENCE - level SG_DUPLICATE)) + (level SG_DUPLICATE - (d - level SG_DEPENDENCE)) +
    (level SG_DEPENDENCE - d) = _
  omega

namespace EffectState

/-- The state as the loop over the slots leaves it. -/
def lowered (s : EffectState) (d : Int) : EffectState := s.setLevels (lowerLevels s.m_nLevel d).1

theorem setLevels_self (s : EffectState) : s.setLevels (fun i => s.m_nLevel i) = s := by
  have hlevel : (fun i => (((s.m_nLevel i : Int)) % 2 ^ 16).toNat) = s.m_nLevel := by
    funext i
    have := s.small i
    omega
  obtain ⟨state, value, small⟩ := s
  unfold setLevels
  simp only [hlevel]

theorem setLevels_inj {s : EffectState} {a b : StateType → Int} (ha : ∀ i, 0 ≤ a i ∧ a i < 2 ^ 16)
    (hb : ∀ i, 0 ≤ b i ∧ b i < 2 ^ 16) : s.setLevels a = s.setLevels b ↔ a = b := by
  refine ⟨fun h => ?_, fun h => by rw [h]⟩
  funext i
  have hi : (a i % 2 ^ 16).toNat = (b i % 2 ^ 16).toNat := congrFun (congrArg (fun s : EffectState => s.m_nLevel) h) i
  have := ha i
  have := hb i
  omega

theorem lowered_zero (s : EffectState) : s.lowered 0 = s := by
  have hslots : (lowerLevels s.m_nLevel 0).1 = fun i => (s.m_nLevel i : Int) := by
    rw [(lowerLevels_eq_iff s.m_nLevel (le_refl 0)).mpr (.inl rfl)]
    funext i
    rcases slot_cases i with rfl | rfl | rfl
    · show ((s.m_nLevel SG_NORMAL - (0 - s.m_nLevel SG_DEPENDENCE - s.m_nLevel SG_DUPLICATE) : Nat) : Int) = _
      omega
    · show ((s.m_nLevel SG_DUPLICATE - (0 - s.m_nLevel SG_DEPENDENCE) : Nat) : Int) = _
      omega
    · rfl
  rw [lowered, hslots, setLevels_self]

/-- The state is lowered as it should be if and only if nothing is carried on. -/
theorem lowered_eq_effective_iff (s : EffectState) {d : Int} (hd : 0 ≤ d) : s.lowered d = s.effective d ↔ NoCarry s.m_nLevel d := by
  rw [← lowerLevels_eq_iff s.m_nLevel hd]
  refine setLevels_inj (fun i => lowerLevels_range s.small hd i) fun i => ?_
  have := effectiveLevels_le s.m_nLevel d.toNat i
  have := s.small i
  omega

end EffectState

/-! ## A pass -/

theorem lowerState_fst (s : EffectState) (l : List (Int × Int)) : (lowerState s l).1 = s.lowered (decreaseOf l s) := by
  induction l with
  | nil => exact s.lowered_zero.symm
  | cons rp rest ih =>
    unfold lowerState decreaseOf
    by_cases hcode : rp.1 = s.m_nCode
    · rw [if_pos hcode, List.find?_cons_of_pos (by exact decide_eq_true hcode)]
      rfl
    · rw [if_neg hcode, List.find?_cons_of_neg (by rw [decide_eq_true_eq]; exact hcode)]
      exact ih

/-- The entries for other codes stay as they are. -/
theorem decreaseOf_lowerState {s s' : EffectState} (hcode : s'.m_nCode ≠ s.m_nCode) (l : List (Int × Int)) :
    decreaseOf (lowerState s l).2 s' = decreaseOf l s' := by
  induction l with
  | nil => rfl
  | cons rp rest ih =>
    unfold lowerState
    by_cases hrp : rp.1 = s.m_nCode
    · rw [if_pos hrp]
      unfold decreaseOf
      rw [List.find?_cons_of_neg (by rw [decide_eq_true_eq, hrp]; exact hcode.symm),
        List.find?_cons_of_neg (by rw [decide_eq_true_eq, hrp]; exact hcode.symm)]
    · rw [if_neg hrp]
      unfold decreaseOf at ih ⊢
      rw [List.find?_cons, List.find?_cons]
      cases decide (rp.1 = s'.m_nCode) with
      | true => rfl
      | false => exact ih

/-- A pass applies every state lowered by its own decrease, and leaves the states as they were. -/
theorem passLoop_eq {U : Type*} (apply : U → EffectState → U) {states : List EffectState}
    (hcodes : (states.map fun s => s.m_nCode).Nodup) (l : List (Int × Int)) (u : U) :
    passLoop apply states l u = ((states.map fun s => s.lowered (decreaseOf l s)).foldl apply u, states) := by
  induction states generalizing l u with
  | nil => rfl
  | cons s states ih =>
    rw [List.map_cons, List.nodup_cons] at hcodes
    have hrest : (states.map fun s' => s'.lowered (decreaseOf (lowerState s l).2 s')) =
        states.map fun s' => s'.lowered (decreaseOf l s') := by
      refine List.map_congr_left fun s' hs' => ?_
      rw [decreaseOf_lowerState fun h => hcodes.1 (List.mem_map.mpr ⟨s', hs', h⟩)]
    unfold passLoop
    dsimp only
    rw [ih hcodes.2, hrest, lowerState_fst]
    exact Prod.ext rfl (congrArg (· :: states) s.setLevels_self)

theorem statePass_eq {U : Type*} (apply : U → EffectState → U) {states : List EffectState}
    (hcodes : (states.map fun s => s.m_nCode).Nodup) (u : U) :
    statePass apply u states = ((states.map fun s => s.lowered (decreaseOf (decreaseList states) s)).foldl apply u, states) :=
  passLoop_eq apply hcodes _ u

theorem foldl_concat {α : Type*} (l seen : List α) : l.foldl (fun seen a => seen ++ [a]) seen = seen ++ l := by
  induction l generalizing seen with
  | nil => exact (List.append_nil _).symm
  | cons a l ih => rw [List.foldl_cons, ih, List.append_assoc, List.singleton_append]

theorem statesSeen_eq {states : List EffectState} (hcodes : (states.map fun s => s.m_nCode).Nodup) :
    statesSeen states = states.map fun s => s.lowered (decreaseOf (decreaseList states) s) := by
  rw [statesSeen, statePass_eq _ hcodes, foldl_concat, List.nil_append]

/-! ## The four passes -/

/-- The states at their effective levels. -/
def effectiveStates (states : List EffectState) : List EffectState :=
  states.map fun s => s.effective (decreaseOf (decreaseList states) s)

/-- Every pass applies the states at their effective levels, whose sum is that of the levels less the decrease, and leaves the
levels as they were. -/
structure LevelRight (applyState applyStateAmplify : StatUnit → EffectState → StatUnit) (states : List EffectState) : Prop where
  seen : statesSeen states = effectiveStates states
  total : ∀ s ∈ states, ∀ d,
    (s.effective d).m_nLevel SG_NORMAL + (s.effective d).m_nLevel SG_DUPLICATE + (s.effective d).m_nLevel SG_DEPENDENCE =
      s.m_nLevel SG_NORMAL + s.m_nLevel SG_DUPLICATE + s.m_nLevel SG_DEPENDENCE - d.toNat
  stat : ∀ u, StatUnit.applyStatByState u states = ((effectiveStates states).foldl StatUnit.statByState u, states)
  amplify : ∀ u, StatUnit.amplifyStatByState u states = ((effectiveStates states).foldl StatUnit.amplifyByState u, states)
  effect : ∀ u, StatUnit.applyStateEffect applyState u states =
    ((effectiveStates states).foldl (StatUnit.ifLeveled applyState) u, states)
  amplifyEffect : ∀ u, StatUnit.applyStateAmplifyEffect applyStateAmplify u states =
    ((effectiveStates states).foldl (StatUnit.ifLeveled applyStateAmplify) u, states)

theorem effective_total (s : EffectState) (d : Int) :
    (s.effective d).m_nLevel SG_NORMAL + (s.effective d).m_nLevel SG_DUPLICATE + (s.effective d).m_nLevel SG_DEPENDENCE =
      s.m_nLevel SG_NORMAL + s.m_nLevel SG_DUPLICATE + s.m_nLevel SG_DEPENDENCE - d.toNat := by
  have hlevel : ∀ i, (s.effective d).m_nLevel i = effectiveLevels s.m_nLevel d.toNat i := by
    intro i
    have := effectiveLevels_le s.m_nLevel d.toNat i
    have := s.small i
    show ((effectiveLevels s.m_nLevel d.toNat i : Int) % 2 ^ 16).toNat = _
    omega
  rw [hlevel, hlevel, hlevel, effectiveLevels_total]

/-- A state of level SG_DUPLICATE with a dependence of 2. -/
def decreasedState : EffectState where
  m_nCode := 7
  m_nUID := 1
  m_nLevel i := if i = SG_NORMAL then 1 else if i = SG_DEPENDENCE then 2 else 0
  m_hCaster _ := 0
  m_nStartTime _ := 0
  m_nEndTime _ := 0
  m_bAura := false
  m_pTemplate := none
  value _ := 0
  small := by decide

/-- A state that decreases it by 2. -/
def decreasingState : EffectState where
  m_nCode := 8
  m_nUID := 2
  m_nLevel i := if i = SG_NORMAL then 1 else 0
  m_hCaster _ := 0
  m_nStartTime _ := 0
  m_nEndTime _ := 0
  m_bAura := false
  m_pTemplate := some { effect_type := SEF_DECREASE_STATE_EFFECT }
  value idx := if idx = 0 then 2 else if idx = 2 then 7 else 0
  small := by decide

end RZEmulator.Chihiro
