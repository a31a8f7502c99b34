import Mathlib.Algebra.Order.Ring.Int
import RZEmulator.Lib.Run

/-!
# Enhancing an item

`MixManager::EnhanceItem`, `MixManager::EnhanceSkillCard` and `MixManager::procEnhanceFail`, as far as the enhance level of
the item goes. The random draws are inputs, and the chances of `fPercentage` are taken as the numbers that the two functions
make of them. A read outside the table of chances and a loop that does not end are outcomes of their own.
-/

namespace RZEmulator.Chihiro

open Lib

structure EnhanceInfo where
  nSID : Int
  nFailResult : Int
  nMaxEnhance : Int
  nNeedItemCode : Int
  fPercentage : Fin 20 → Nat

namespace EnhanceInfo

def RESULT_FAIL : Int := 1
def RESULT_SKILL_CARD_FAIL : Int := 2
def RESULT_ACCESSORY_FAIL : Int := 3

/-- `fPercentage[n]`, if `n` is an index of the table. -/
def percentage (info : EnhanceInfo) (n : Int) : Option Nat :=
  if h : 0 ≤ n ∧ n < 20 then some (info.fPercentage ⟨n.toNat, by omega⟩) else none

theorem percentage_of_lt (info : EnhanceInfo) {n : Int} (h0 : 0 ≤ n) (h : n < 20) :
    info.percentage n = some (info.fPercentage ⟨n.toNat, by omega⟩) := dif_pos ⟨h0, h⟩

theorem percentage_of_le (info : EnhanceInfo) {n : Int} (h : 20 ≤ n) : info.percentage n = none :=
  dif_neg fun h' => absurd h'.2 (not_lt.mpr h)

end EnhanceInfo

/-- The types of a recipe that `EnhanceItem` is called for. -/
inductive EnhanceType
  | MIX_ENHANCE
  | MIX_ENHANCE_WITHOUT_FAIL
  deriving DecidableEq

def MAX_SOCKET_NUMBER : Nat := 4

/-- What is read of a material. -/
structure EnhanceMaterial where
  code : Int
  isCube : Bool := false

/-- How an attempt ends for the item. -/
inductive EnhanceOutcome
  /-- Nothing has been changed. -/
  | refused
  /-- The table of chances is read at an index it does not have. -/
  | outOfTable
  | level (nEnhance : Int)
  | erased
  deriving DecidableEq

namespace MixManager

/-- The loop over the sockets in `procEnhanceFail`: its condition is the number of sockets. -/
def socketLoop : Nat → Nat → Option Nat
  | 0, _ => none
  | fuel + 1, i => if MAX_SOCKET_NUMBER ≠ 0 then socketLoop fuel (i + 1) else some i

/-- `procEnhanceFail` of an item of the given level; `none` where the fuel does not reach its end. -/
def procEnhanceFail (fuel : Nat) (nEnhance nFailResult : Int) : Option EnhanceOutcome :=
  let nFailResult := if nFailResult = 0 then 1 else nFailResult
  if nFailResult = EnhanceInfo.RESULT_FAIL then (socketLoop fuel 0).map fun _ => .level nEnhance
  else if nFailResult = EnhanceInfo.RESULT_SKILL_CARD_FAIL then
    if nEnhance ≤ 3 then some .erased else some (.level (nEnhance - 3))
  else if nFailResult = EnhanceInfo.RESULT_ACCESSORY_FAIL then
    if nEnhance ≤ 3 then some (.level 0) else some (.level (nEnhance - 3))
  else some (.level nEnhance)

/-- The cube among the sub materials. -/
def cubeOf (type : EnhanceType) (pSubMaterial : List EnhanceMaterial) : Option EnhanceMaterial :=
  if type = .MIX_ENHANCE_WITHOUT_FAIL then
    match pSubMaterial[0]? with
    | none => none
    | some x => if x.isCube then some x else pSubMaterial[1]?
  else pSubMaterial[0]?

/-- The number of levels that `EnhanceItem` tries to add, `increase` being the draw of `irand`. -/
def itemEnhance (type : EnhanceType) (info : EnhanceInfo) (nEnhance increase : Int) : Int :=
  let itemEnhance := if type = .MIX_ENHANCE then increase else 1
  if info.nMaxEnhance < nEnhance + itemEnhance then info.nMaxEnhance - nEnhance else itemEnhance

/-- The end of `EnhanceItem`, when `itemEnhance` levels are to be added. -/
def enhanceDraw (fuel : Nat) (type : EnhanceType) (info : EnhanceInfo) (nEnhance itemEnhance : Int) (draw : Nat) :
    Option EnhanceOutcome :=
  match info.percentage nEnhance with
  | none => some .outOfTable
  | some nRandom =>
    if draw ≤ nRandom then some (.level (nEnhance + itemEnhance))
    else if type = .MIX_ENHANCE_WITHOUT_FAIL then some (.level (nEnhance - 1))
    else procEnhanceFail fuel nEnhance info.nFailResult

/-- `EnhanceItem` on an item of the level `nEnhance`, with the two draws. -/
def enhanceItem (fuel : Nat) (type : EnhanceType) (info : EnhanceInfo) (nEnhance : Int) (pSubMaterial : List EnhanceMaterial)
    (increase : Int) (draw : Nat) : Option EnhanceOutcome :=
  if (cubeOf type pSubMaterial).map EnhanceMaterial.code ≠ some info.nNeedItemCode then some .refused
  else if itemEnhance type info nEnhance increase ≤ 0 then some .refused
  else enhanceDraw fuel type info nEnhance (itemEnhance type info nEnhance increase) draw

/-- What is read of a skill card. -/
structure SkillCard where
  code : Int
  nEnhance : Int

/-- `EnhanceSkillCard`, when it has picked the main card and, if there is one, the other card out of the three materials. -/
def enhanceSkillCard (info : EnhanceInfo) (skillCardMain : SkillCard) (skillCardSec : Option SkillCard) (draw : Nat) :
    EnhanceOutcome :=
  match skillCardSec with
  | none => .refused
  | some sec =>
    if skillCardMain.code ≠ sec.code ∨ skillCardMain.nEnhance ≠ sec.nEnhance then .refused
    else
      match info.percentage skillCardMain.nEnhance with
      | none => .outOfTable
      | some nRandom => if draw > nRandom then .erased else .level (skillCardMain.nEnhance + 1)

end MixManager

/-! ## Attempts -/

/-- An attempt on the item: the recipe, the materials and the draws. -/
inductive EnhanceAttempt where
  | item (type : EnhanceType) (pSubMaterial : List EnhanceMaterial) (increase : Int) (draw : Nat)
  | skillCard (skillCardSec : Option MixManager.SkillCard) (draw : Nat)

/-- An item that is enhanced with recipes of one entry of the table. -/
structure Enhanced where
  info : EnhanceInfo
  code : Int
  nEnhance : Int

namespace Enhanced

open MixManager

variable {s s' : Enhanced} {a : EnhanceAttempt} {o : EnhanceOutcome} {fuel : Nat} {n : Int}

def attempt (s : Enhanced) (fuel : Nat) : EnhanceAttempt → Option EnhanceOutcome
  | .item type pSubMaterial increase draw => enhanceItem fuel type s.info s.nEnhance pSubMaterial increase draw
  | .skillCard sec draw => some (enhanceSkillCard s.info ⟨s.code, s.nEnhance⟩ sec draw)

/-- The level is one that the recipe allows. -/
def InRange (s : Enhanced) (n : Int) : Prop := 0 ≤ n ∧ n ≤ s.info.nMaxEnhance

/-- The attempt ends, without a read outside the table, and leaves a level that the recipe allows if it leaves one. -/
def Safe (s : Enhanced) (a : EnhanceAttempt) : Prop :=
  ∃ fuel o, s.attempt fuel a = some o ∧ o ≠ .outOfTable ∧ ∀ n, o = .level n → s.InRange n

/-- An attempt on a card takes it beyond its maximum only where it succeeds at the maximum. -/
def CarefulCard (s : Enhanced) (draw : Nat) : Prop :=
  s.nEnhance < 20 ∧ ∀ nRandom, s.info.percentage s.nEnhance = some nRandom → draw ≤ nRandom →
    s.nEnhance < s.info.nMaxEnhance

/-- A protected item has a level to lose, and another one is not of the kind that breaks. -/
def MayFail (s : Enhanced) : EnhanceType → Prop
  | .MIX_ENHANCE => s.info.nFailResult ≠ 0 ∧ s.info.nFailResult ≠ EnhanceInfo.RESULT_FAIL
  | .MIX_ENHANCE_WITHOUT_FAIL => 1 ≤ s.nEnhance

/-- An attempt on an item fails only where it may. -/
def CarefulItem (s : Enhanced) (type : EnhanceType) (draw : Nat) : Prop :=
  s.nEnhance < 20 ∧ ∀ nRandom, s.info.percentage s.nEnhance = some nRandom → nRandom < draw → s.MayFail type

/-- The attempt is refused, or it does no harm. -/
def Careful (s : Enhanced) : EnhanceAttempt → Prop
  | .item type pSubMaterial increase draw =>
    (cubeOf type pSubMaterial).map EnhanceMaterial.code = some s.info.nNeedItemCode →
      0 < itemEnhance type s.info s.nEnhance increase → s.CarefulItem type draw
  | .skillCard sec draw => ∀ c, sec = some c → s.code = c.code → s.nEnhance = c.nEnhance → s.CarefulCard draw

/-- An attempt that ends and leaves the item. -/
inductive Step (s : Enhanced) (a : EnhanceAttempt) : Enhanced → Prop
  | refused (fuel : Nat) : s.attempt fuel a = some .refused → Step s a s
  | level (fuel : Nat) (n : Int) : s.attempt fuel a = some (.level n) → Step s a { s with nEnhance := n }

/-- Attempts on an item whose level the recipe allows at first. -/
def enhanceSystem : System Enhanced EnhanceAttempt where
  Init s := s.InRange s.nEnhance
  Step := Step

end Enhanced

namespace MixManager

variable {fuel : Nat} {n nFailResult : Int} {o : EnhanceOutcome}

/-- The loop over the sockets does not end. -/
theorem socketLoop_eq_none (fuel i : Nat) : socketLoop fuel i = none := by
  induction fuel generalizing i with
  | zero => rfl
  | succ fuel ih =>
    unfold socketLoop
    rw [if_pos (by decide)]
    exact ih (i + 1)

/-- **When `procEnhanceFail` ends.** -/
theorem procEnhanceFail_isSome_iff (fuel : Nat) (n nFailResult : Int) :
    (procEnhanceFail fuel n nFailResult).isSome ↔ nFailResult ≠ 0 ∧ nFailResult ≠ EnhanceInfo.RESULT_FAIL := by
  unfold procEnhanceFail EnhanceInfo.RESULT_FAIL EnhanceInfo.RESULT_SKILL_CARD_FAIL EnhanceInfo.RESULT_ACCESSORY_FAIL
  by_cases h0 : nFailResult = 0
  · subst h0
    rw [if_pos rfl]
    dsimp only
    rw [if_pos rfl, socketLoop_eq_none]
    exact iff_of_false Bool.noConfusion fun h => h.1 rfl
  · rw [if_neg h0]
    dsimp only
    by_cases h1 : nFailResult = 1
    · rw [if_pos h1, socketLoop_eq_none]
      exact iff_of_false Bool.noConfusion fun h => h.2 h1
    · rw [if_neg h1]
      refine iff_of_true ?_ ⟨h0, h1⟩
      split_ifs <;> rfl

/-- A failure does not raise the level, and leaves none below 0. -/
theorem procEnhanceFail_level (hn : 0 ≤ n) (hrun : procEnhanceFail fuel n nFailResult = some o) :
    o ≠ .outOfTable ∧ ∀ m, o = .level m → 0 ≤ m ∧ m ≤ n := by
  have hcases : procEnhanceFail fuel n nFailResult = none ∨ procEnhanceFail fuel n nFailResult = some .erased ∨
      ∃ m, procEnhanceFail fuel n nFailResult = some (.level m) ∧ 0 ≤ m ∧ m ≤ n := by
    unfold procEnhanceFail
    dsimp only
    rw [socketLoop_eq_none, Option.map_none]
    split_ifs
    all_goals
      first
      | exact .inl rfl
      | exact .inr (.inl rfl)
      | exact .inr (.inr ⟨_, rfl, by omega, by omega⟩)
  rw [hrun] at hcases
  rcases hcases with h | h | ⟨k, h, h0, hle⟩
  · cases h
  · obtain rfl := Option.some.inj h
    exact ⟨nofun, nofun⟩
  · obtain rfl := Option.some.inj h
    refine ⟨nofun, fun m hm => ?_⟩
    obtain rfl := EnhanceOutcome.level.inj hm
    exact ⟨h0, hle⟩

theorem itemEnhance_le (type : EnhanceType) (info : EnhanceInfo) (n increase : Int) :
    n + itemEnhance type info n increase ≤ info.nMaxEnhance := by
  unfold itemEnhance
  dsimp only
  split_ifs <;> omega

end MixManager

namespace Enhanced

open MixManager

variable {s s' : Enhanced} {a : EnhanceAttempt} {type : EnhanceType} {l : List EnhanceMaterial} {increase : Int}
  {draw nRandom : Nat} {o : EnhanceOutcome}

/-- What is left by an attempt that ends at a level. -/
theorem safe_level (hrun : ∀ fuel, s.attempt fuel a = some (.level n)) : s.Safe a ↔ s.InRange n := by
  constructor
  · rintro ⟨fuel, o, ho, -, hrange⟩
    exact hrange n (Option.some.inj (ho.symm.trans (hrun fuel)))
  · intro h
    refine ⟨0, _, hrun 0, nofun, fun m hm => ?_⟩
    obtain rfl := EnhanceOutcome.level.inj hm
    exact h

theorem safe_of_refused (hrun : ∀ fuel, s.attempt fuel a = some .refused) : s.Safe a := ⟨0, _, hrun 0, nofun, nofun⟩

theorem safe_of_erased (hrun : ∀ fuel, s.attempt fuel a = some .erased) : s.Safe a := ⟨0, _, hrun 0, nofun, nofun⟩

theorem not_safe_of_outOfTable (hrun : ∀ fuel, s.attempt fuel a = some .outOfTable) : ¬s.Safe a := by
  rintro ⟨fuel, o, ho, hne, -⟩
  exact hne (Option.some.inj (ho.symm.trans (hrun fuel)))

/-- The draw of `EnhanceItem`. -/
theorem safe_draw_iff (hs : s.InRange s.nEnhance) {k : Int} (hk : 0 < k) (hmax : s.nEnhance + k ≤ s.info.nMaxEnhance)
    (hrun : ∀ fuel, s.attempt fuel a = enhanceDraw fuel type s.info s.nEnhance k draw) :
    s.Safe a ↔ s.CarefulItem type draw := by
  obtain ⟨h0, -⟩ := hs
  unfold CarefulItem
  unfold enhanceDraw at hrun
  by_cases h20 : s.nEnhance < 20
  · rw [s.info.percentage_of_lt h0 h20] at hrun ⊢
    dsimp only at hrun
    generalize s.info.fPercentage ⟨s.nEnhance.toNat, _⟩ = nRandom at hrun
    have hcare : (∀ r, some nRandom = some r → r < draw → s.MayFail type) ↔ (nRandom < draw → s.MayFail type) :=
      ⟨fun h => h nRandom rfl, fun h r hr => Option.some.inj hr ▸ h⟩
    rw [hcare, and_iff_right h20]
    by_cases hdraw : draw ≤ nRandom
    · rw [safe_level (n := s.nEnhance + k) fun fuel => (hrun fuel).trans (if_pos hdraw)]
      exact iff_of_true ⟨by omega, hmax⟩ fun h => absurd h (not_lt.mpr hdraw)
    · have hlt : nRandom < draw := not_le.mp hdraw
      simp only [if_neg hdraw] at hrun
      rw [imp_iff_right hlt]
      cases type with
      | MIX_ENHANCE_WITHOUT_FAIL =>
        rw [safe_level (n := s.nEnhance - 1) fun fuel => (hrun fuel).trans (if_pos rfl)]
        unfold InRange MayFail
        omega
      | MIX_ENHANCE =>
        have hrun : ∀ fuel, s.attempt fuel a = procEnhanceFail fuel s.nEnhance s.info.nFailResult :=
          fun fuel => (hrun fuel).trans (if_neg nofun)
        constructor
        · rintro ⟨fuel, o, ho, -, -⟩
          exact (procEnhanceFail_isSome_iff fuel s.nEnhance _).mp (Option.isSome_of_eq_some ((hrun fuel).symm.trans ho))
        · intro h
          obtain ⟨o, ho⟩ := Option.isSome_iff_exists.mp ((procEnhanceFail_isSome_iff 0 s.nEnhance _).mpr h)
          obtain ⟨htable, hlevel⟩ := procEnhanceFail_level h0 ho
          exact ⟨0, o, (hrun 0).trans ho, htable, fun n hn => ⟨(hlevel n hn).1, by have := (hlevel n hn).2; omega⟩⟩
  · rw [s.info.percentage_of_le (not_lt.mp h20)] at hrun
    exact iff_of_false (not_safe_of_outOfTable hrun) fun h => h20 h.1

/-- **One attempt on an item.** -/
theorem safe_item_iff (hs : s.InRange s.nEnhance) :
    s.Safe (.item type l increase draw) ↔ s.Careful (.item type l increase draw) := by
  have hrun : ∀ fuel, s.attempt fuel (.item type l increase draw) =
    if (cubeOf type l).map EnhanceMaterial.code ≠ some s.info.nNeedItemCode then some .refused
    else if itemEnhance type s.info s.nEnhance increase ≤ 0 then some .refused
    else enhanceDraw fuel type s.info s.nEnhance (itemEnhance type s.info s.nEnhance increase) draw := fun _ => rfl
  simp only [Careful]
  by_cases hcube : (cubeOf type l).map EnhanceMaterial.code = some s.info.nNeedItemCode
  · simp only [if_neg (not_not.mpr hcube)] at hrun
    rw [imp_iff_right hcube]
    by_cases hpos : 0 < itemEnhance type s.info s.nEnhance increase
    · simp only [if_neg (not_le.mpr hpos)] at hrun
      rw [imp_iff_right hpos]
      exact safe_draw_iff hs hpos (itemEnhance_le ..) hrun
    · exact iff_of_true (safe_of_refused fun fuel => (hrun fuel).trans (if_pos (not_lt.mp hpos))) fun h => absurd h hpos
  · exact iff_of_true (safe_of_refused fun fuel => (hrun fuel).trans (if_pos hcube)) fun h => absurd h hcube

/-- **One attempt on a skill card.** -/
theorem safe_skillCard_iff {sec : Option SkillCard} (hs : s.InRange s.nEnhance) :
    s.Safe (.skillCard sec draw) ↔ s.Careful (.skillCard sec draw) := by
  obtain ⟨h0, hmax⟩ := hs
  have hrun : ∀ fuel, s.attempt fuel (.skillCard sec draw) =
    some (enhanceSkillCard s.info ⟨s.code, s.nEnhance⟩ sec draw) := fun _ => rfl
  simp only [Careful]
  unfold enhanceSkillCard at hrun
  cases sec with
  | none => exact iff_of_true (safe_of_refused hrun) nofun
  | some c =>
    dsimp only at hrun
    by_cases hsame : s.code = c.code ∧ s.nEnhance = c.nEnhance
    · have hcare : (∀ c', some c = some c' → s.code = c'.code → s.nEnhance = c'.nEnhance → s.CarefulCard draw) ↔
          s.CarefulCard draw := ⟨fun h => h c rfl hsame.1 hsame.2, fun h _ _ _ _ => h⟩
      simp only [if_neg (not_or.mpr ⟨not_not.mpr hsame.1, not_not.mpr hsame.2⟩)] at hrun
      rw [hcare]
      unfold CarefulCard
      by_cases h20 : s.nEnhance < 20
      · rw [s.info.percentage_of_lt h0 h20] at hrun ⊢
        dsimp only at hrun
        generalize s.info.fPercentage ⟨s.nEnhance.toNat, _⟩ = nRandom at hrun
        rw [and_iff_right h20]
        by_cases hdraw : draw > nRandom
        · refine iff_of_true (safe_of_erased fun fuel => (hrun fuel).trans (congrArg some (if_pos hdraw))) fun r hr hle => ?_
          obtain rfl := Option.some.inj hr
          omega
        · rw [safe_level (n := s.nEnhance + 1) fun fuel => (hrun fuel).trans (congrArg some (if_neg hdraw))]
          unfold InRange
          constructor
          · intro h _ _ _
            omega
          · intro h
            have := h nRandom rfl (not_lt.mp hdraw)
            omega
      · rw [s.info.percentage_of_le (not_lt.mp h20)] at hrun
        exact iff_of_false (not_safe_of_outOfTable hrun) fun h => h20 h.1
    · refine iff_of_true (safe_of_refused fun fuel => (hrun fuel).trans (congrArg some (if_pos ?_)))
        fun c' hc hcode hlevel => ?_
      · by_contra h
        rw [not_or, not_not, not_not] at h
        exact hsame h
      · obtain rfl := Option.some.inj hc
        exact absurd ⟨hcode, hlevel⟩ hsame

/-- **One attempt.** -/
theorem safe_iff (hs : s.InRange s.nEnhance) (a : EnhanceAttempt) : s.Safe a ↔ s.Careful a := by
  cases a with
  | item => exact safe_item_iff hs
  | skillCard => exact safe_skillCard_iff hs

theorem attempt_fuel (s : Enhanced) (a : EnhanceAttempt) (fuel fuel' : Nat) : s.attempt fuel a = s.attempt fuel' a := by
  cases a with
  | item type l increase draw =>
    simp only [attempt, enhanceItem, enhanceDraw, procEnhanceFail, socketLoop_eq_none]
  | skillCard sec draw => rfl

/-- A safe attempt leaves a level that the recipe allows. -/
theorem Step.inRange (hstep : Step s a s') (hs : s.InRange s.nEnhance) (hsafe : s.Safe a) : s'.InRange s'.nEnhance := by
  cases hstep with
  | refused => exact hs
  | level fuel n hlevel =>
    obtain ⟨fuel', o, ho, -, hrange⟩ := hsafe
    rw [attempt_fuel s a fuel' fuel, hlevel] at ho
    exact hrange n (Option.some.inj ho).symm

variable {h : History Enhanced EnhanceAttempt}

theorem inRange_of_run (hrun : enhanceSystem.RunWhere (fun _ => Careful) h s) : s.InRange s.nEnhance := by
  refine System.RunWhere.invariant (I := fun _ s => s.InRange s.nEnhance) (fun _ h0 => h0) ?_ hrun
  intro h s a s' _ hs hcare hstep
  exact Step.inRange hstep hs ((safe_iff hs a).mpr hcare)

/-- **Enhancing is safe**: after any number of careful attempts the level is one that the recipe allows, and the next
attempt ends inside the table and leaves such a level exactly where it is careful too. -/
theorem enhanceSafe_iff (hrun : enhanceSystem.RunWhere (fun _ => Careful) h s) (a : EnhanceAttempt) :
    s.InRange s.nEnhance ∧ (s.Safe a ↔ s.Careful a) :=
  ⟨inRange_of_run hrun, safe_iff (inRange_of_run hrun) a⟩

/-- A weapon at the level `n` of 20, with even chances. -/
def weapon (n : Int) : Enhanced := ⟨⟨1, 0, 20, 700, fun _ => 50000⟩, 101, n⟩

theorem weapon_inRange {n : Int} (h0 : 0 ≤ n) (h : n ≤ 20) : (weapon n).InRange n := ⟨h0, h⟩

/-- The weapon is enhanced once under protection, and so is safe the second time. -/
theorem enhanceSafe_weapon :
    (weapon 4).InRange 4 ∧ ((weapon 4).Safe (.item .MIX_ENHANCE_WITHOUT_FAIL [⟨700, true⟩, ⟨701, false⟩] 0 90000) ↔
      (weapon 4).Careful (.item .MIX_ENHANCE_WITHOUT_FAIL [⟨700, true⟩, ⟨701, false⟩] 0 90000)) := by
  refine enhanceSafe_iff (h := [⟨weapon 3, .item .MIX_ENHANCE_WITHOUT_FAIL [⟨700, true⟩, ⟨701, false⟩] 0 100, weapon 4⟩])
    (.step (.init (weapon_inRange (by decide) (by decide))) ?_ (.level 0 4 rfl)) _
  intro _ _
  refine ⟨by decide, fun r hr hlt => ?_⟩
  obtain rfl : 50000 = r := Option.some.inj hr
  omega

/-- **Failing input**: a weapon of the level 4 is enhanced without protection and fails, and the loop over its sockets
does not end. -/
theorem not_enhanceSafe : ¬∀ (h : History Enhanced EnhanceAttempt) (s : Enhanced), enhanceSystem.Run h s →
    ∀ a, s.Safe a := by
  intro hall
  have hsafe := hall [] (weapon 4) (.init (weapon_inRange (by decide) (by decide)))
    (.item .MIX_ENHANCE [⟨700, true⟩] 1 90000)
  have hcare := (safe_iff (weapon_inRange (by decide) (by decide)) _).mp hsafe rfl (by decide)
  exact (hcare.2 50000 rfl (by decide)).1 rfl

end Enhanced

end RZEmulator.Chihiro
