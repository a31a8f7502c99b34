import Mathlib.Algebra.Order.Floor.Semiring
import Mathlib.Data.Rat.Floor
import Mathlib.Order.Iterate
import RZEmulator.Chihiro.WearPosition

/-!
# The tables of the rules

The functions of `GameRule.cpp` and `GameContent.cpp` that read a table at an index computed from a rank or a level. Reading
outside a table has no result. Integers and fractions are exact.
-/

namespace RZEmulator.Chihiro

/-- `table[i]` -/
def readTable {α : Type*} (table : List α) (i : Int) : Option α := if i < 0 then none else table[i.toNat]?

theorem readTable_isSome {α : Type*} (table : List α) (i : Int) :
    (readTable table i).isSome = true ↔ 0 ≤ i ∧ i < table.length := by
  unfold readTable
  split_ifs with h
  · exact iff_of_false Bool.false_ne_true fun h' => absurd h'.1 (not_le.mpr h)
  · rw [isSome_getElem?]
    omega

namespace GameRule

def _modtable : List Int := [0, 3, 3, 2, 2, 3, 2, 2]

/-- An index that is kept between `low` and `high`. -/
def clampIndex (low high idx : Int) : Int :=
  let idx := if idx < low then low else idx
  if idx > high then high else idx

def getItemRecommendModTable (item_rank : Int) : Option Int := readTable _modtable (clampIndex 1 8 item_rank)

def getItemLevelLimit (item_rank : Int) : Int := getRankLevel item_rank

def getItemRecommendedLevel (item_rank item_level : Int) : Option Int :=
  if item_rank > 1 then
    (getItemRecommendModTable item_rank).map fun modifier => modifier * (item_level - 1) + getItemLevelLimit item_rank
  else some 0

def getItemLevelPenalty (creature_level item_rank item_level : Int) : Option ℚ :=
  (getItemRecommendedLevel item_rank item_level).map fun recommended =>
    let limit := getItemLevelLimit item_rank
    if item_level = 1 ∨ creature_level < limit ∨ creature_level ≥ recommended then 10000 / 10000
    else
      let n := 10000 * (recommended - limit)
      let resulta := (10000 * (recommended - creature_level)).tdiv n
      ((10000 - resulta * (10000 - item_level * 500) : Int) : ℚ) / 10000

/-- `_staminaExpRate` -/
abbrev StaminaTable (R : Type*) := { table : List R // table.length = 300 }

/-- `GetStaminaRatio`, which fills the table as it goes: the ratio and the table. `rate` computes the ratio of a level. -/
def getStaminaRatio {R : Type*} [Zero R] [DecidableEq R] (rate : Int → R) (_staminaExpRate : StaminaTable R) (level : Int) :
    Option (R × StaminaTable R) :=
  let level := clampIndex 1 300 level
  (readTable _staminaExpRate.val level).map fun ratio =>
    if ratio = 0 then
      (rate level, ⟨_staminaExpRate.val.set level.toNat (rate level), List.length_set.trans _staminaExpRate.property⟩)
    else (ratio, _staminaExpRate)

end GameRule

/-! ## The price of an item -/

/-- The table `f` of `GetItemSellPrice`. -/
def sellTable : List ℚ := [135 / 100, 4 / 10, 2 / 10, 13 / 100, 1 / 10, 1 / 10, 1 / 10, 1 / 10]

/-- One round of the loop over the levels. -/
def sellRound (rank k : Int) : Option Int :=
  if rank ≠ 0 ∧ rank ≠ 1 then
    if rank = 2 then some (k + truncated (k * (4 / 10) * (1 / 100) * 100))
    else (readTable sellTable rank).map fun f => k + truncated (f * k * (1 / 1000) * 1000)
  else some (k + truncated (k * (135 / 100) * (1 / 10) * 10))

/-- The loop, for the rounds that are left. -/
def sellLoop (rank : Int) : Nat → Int → Option Int
  | 0, k => some k
  | i + 1, k => (sellRound rank k).bind (sellLoop rank i)

/-- `GetItemSellPrice` -/
def getItemSellPrice (price rank lv : Int) (same_price_for_buying : Bool) : Option Int :=
  if rank ≤ 8 then
    (if lv ≥ 2 then sellLoop rank (lv - 1).toNat price else some price).map fun k =>
      if same_price_for_buying = true then k else k.tdiv 2
  else some 0

/-! ## What is claimed -/

/-- A call of one of the functions, with any arguments. -/
inductive RuleCall
  | sellPrice (price : Nat) (rank lv : Int) (same_price_for_buying : Bool)
  | levelPenalty (creature_level item_rank item_level : Int)
  | recommendModTable (item_rank : Int)
  | staminaRatio (level : Int)

/-- The price `v` is not negative, does not fall with the base price or the level, and is at most the price of a sale. -/
structure PriceRight (price : Nat) (rank lv : Int) (same : Bool) (v : Int) : Prop where
  nonneg : 0 ≤ v
  mono : ∀ (price' : Nat) v', price ≤ price' → getItemSellPrice price' rank lv same = some v' → v ≤ v'
  level : ∀ lv' v', lv ≤ lv' → getItemSellPrice price rank lv' same = some v' → v ≤ v'
  sale : ∀ v', getItemSellPrice price rank lv true = some v' → v ≤ v'

section

variable {R : Type*} [Zero R] [DecidableEq R]

/-- The call reads inside the tables, and a price is right. -/
def CallRight (rate : Int → R) (_staminaExpRate : GameRule.StaminaTable R) : RuleCall → Prop
  | .sellPrice price rank lv same => ∃ v, getItemSellPrice price rank lv same = some v ∧ PriceRight price rank lv same v
  | .levelPenalty creature_level item_rank item_level =>
    (GameRule.getItemLevelPenalty creature_level item_rank item_level).isSome = true
  | .recommendModTable item_rank => (GameRule.getItemRecommendModTable item_rank).isSome = true
  | .staminaRatio level => (GameRule.getStaminaRatio rate _staminaExpRate level).isSome = true

/-- The calls whose index is inside the table. -/
def CallInside : RuleCall → Prop
  | .sellPrice _ rank lv _ => 8 < rank ∨ lv < 2 ∨ 0 ≤ rank ∧ rank < 8
  | .levelPenalty _ item_rank _ => item_rank < 8
  | .recommendModTable item_rank => item_rank < 8
  | .staminaRatio level => level < 300

end

namespace GameRule

theorem clampIndex_range {low high : Int} (h : low ≤ high) (idx : Int) :
    low ≤ clampIndex low high idx ∧ (clampIndex low high idx < high ↔ idx < high ∧ low < high) := by
  unfold clampIndex
  dsimp only
  split_ifs <;> omega

theorem getItemRecommendModTable_isSome (item_rank : Int) :
    (getItemRecommendModTable item_rank).isSome = true ↔ item_rank < 8 := by
  have hrange := clampIndex_range (show (1 : Int) ≤ 8 by decide) item_rank
  have hlength : (_modtable.length : Int) = 8 := rfl
  rw [getItemRecommendModTable, readTable_isSome, hlength]
  omega

theorem getItemLevelPenalty_isSome (creature_level item_rank item_level : Int) :
    (getItemLevelPenalty creature_level item_rank item_level).isSome = true ↔ item_rank < 8 := by
  rw [getItemLevelPenalty, Option.isSome_map, getItemRecommendedLevel]
  split_ifs with hrank
  · rw [Option.isSome_map, getItemRecommendModTable_isSome]
  · exact iff_of_true rfl (by omega)

theorem getStaminaRatio_isSome {R : Type*} [Zero R] [DecidableEq R] (rate : Int → R) (_staminaExpRate : StaminaTable R)
    (level : Int) : (getStaminaRatio rate _staminaExpRate level).isSome = true ↔ level < 300 := by
  have hrange := clampIndex_range (show (1 : Int) ≤ 300 by decide) level
  rw [getStaminaRatio, Option.isSome_map, readTable_isSome, _staminaExpRate.property]
  push_cast
  omega

end GameRule

/-! ## The rounds of the price -/

/-- What the price of an item of the rank rises by with a level. -/
def sellRate (rank : Int) : ℚ :=
  if rank = 0 ∨ rank = 1 then 135 / 100 else if rank = 2 then 4 / 10 else (readTable sellTable rank).getD 0

def raisedBy (rate : ℚ) (k : Nat) : Nat := k + ⌊rate * k⌋₊

theorem sellRate_nonneg (rank : Int) : 0 ≤ sellRate rank := by
  unfold sellRate
  split_ifs
  · norm_num
  · norm_num
  · cases h : readTable sellTable rank with
    | none => exact le_refl _
    | some f =>
      have hall : ∀ f ∈ sellTable, (0 : ℚ) ≤ f := by
        unfold sellTable
        intro f hf
        simp only [List.mem_cons, List.not_mem_nil, or_false] at hf
        rcases hf with rfl | rfl | rfl | rfl | rfl | rfl | rfl | rfl <;> norm_num
      unfold readTable at h
      split_ifs at h
      exact hall f (List.mem_of_getElem? h)

theorem le_raisedBy (rate : ℚ) (k : Nat) : k ≤ raisedBy rate k := Nat.le_add_right _ _

theorem raisedBy_mono {rate : ℚ} (hrate : 0 ≤ rate) : Monotone (raisedBy rate) := by
  intro k k' hk
  refine Nat.add_le_add hk (Nat.floor_le_floor ?_)
  gcongr

theorem truncated_eq_floor {x : ℚ} (hx : 0 ≤ x) : truncated x = (⌊x⌋₊ : Int) := by
  rw [Int.natCast_floor_eq_floor hx, Rat.floor_def', truncated]
  exact Int.tdiv_eq_ediv_of_nonneg (Rat.num_nonneg.mpr hx)

/-- A round inside the table raises the price at the rate of the rank. -/
theorem sellRound_eq {rank : Int} (hrank : 0 ≤ rank ∧ rank < 8) (k : Nat) :
    sellRound rank k = some ((raisedBy (sellRate rank) k : Nat) : Int) := by
  have hround : ∀ x : ℚ, x = sellRate rank * k → some ((k : Int) + truncated x) =
      some ((raisedBy (sellRate rank) k : Nat) : Int) := by
    rintro x rfl
    rw [truncated_eq_floor (mul_nonneg (sellRate_nonneg rank) (Nat.cast_nonneg k)), raisedBy]
    push_cast
    rfl
  unfold sellRound
  by_cases hlow : rank = 0 ∨ rank = 1
  · rw [if_neg (by omega)]
    refine hround _ ?_
    rw [sellRate, if_pos hlow]
    push_cast
    ring
  · rw [if_pos (by omega)]
    by_cases htwo : rank = 2
    · rw [if_pos htwo]
      refine hround _ ?_
      rw [sellRate, if_neg hlow, if_pos htwo]
      push_cast
      ring
    · rw [if_neg htwo]
      obtain ⟨f, hf⟩ := Option.isSome_iff_exists.mp ((readTable_isSome sellTable rank).mpr hrank)
      rw [hf, Option.map_some]
      refine hround _ ?_
      rw [sellRate, if_neg hlow, if_neg htwo, hf, Option.getD_some]
      push_cast
      ring

theorem sellLoop_eq {rank : Int} (hrank : 0 ≤ rank ∧ rank < 8) (i k : Nat) :
    sellLoop rank i k = some (((raisedBy (sellRate rank))^[i] k : Nat) : Int) := by
  induction i generalizing k with
  | zero => rfl
  | succ i ih => rw [sellLoop, sellRound_eq hrank, Option.bind_some, ih, Function.iterate_succ_apply]

/-- Outside the table a round has no result. -/
theorem sellLoop_eq_none {rank : Int} (hrank : rank < 0 ∨ rank = 8) (i : Nat) (k : Int) : sellLoop rank (i + 1) k = none := by
  have hnone : readTable sellTable rank = none := by
    rw [← Option.not_isSome_iff_eq_none, readTable_isSome]
    have hlength : (sellTable.length : Int) = 8 := rfl
    omega
  rw [sellLoop, sellRound, if_pos (by omega), if_neg (by omega), hnone]
  rfl

/-- The price of a sale for which nothing outside the table is read. -/
def salePrice (price : Nat) (rank lv : Int) : Nat :=
  if rank ≤ 8 then (raisedBy (sellRate rank))^[(lv - 1).toNat] price else 0

def sellPart (same : Bool) (k : Nat) : Nat := if same = true then k else k / 2

/-- **The price**: half of that of a sale, or all of it, unless the rank is outside the table and the item has a level to be
paid for. -/
theorem getItemSellPrice_eq (price : Nat) (rank lv : Int) (same : Bool) :
    getItemSellPrice price rank lv same =
      if 8 < rank ∨ lv < 2 ∨ 0 ≤ rank ∧ rank < 8 then some ((sellPart same (salePrice price rank lv) : Nat) : Int) else none := by
  have hpart : ∀ k : Nat, (if same = true then (k : Int) else (k : Int).tdiv 2) = (sellPart same k : Nat) := by
    intro k
    unfold sellPart
    split_ifs
    · rfl
    · exact (Int.tdiv_eq_ediv_of_nonneg (Int.natCast_nonneg k)).trans (Int.natCast_ediv k 2).symm
  unfold getItemSellPrice salePrice
  by_cases hrank : rank ≤ 8
  · rw [if_pos hrank, if_pos hrank]
    by_cases hlv : lv ≥ 2
    · rw [if_pos hlv]
      by_cases hin : 0 ≤ rank ∧ rank < 8
      · rw [if_pos (Or.inr (Or.inr hin)), sellLoop_eq hin, Option.map_some, hpart]
      · obtain ⟨i, hi⟩ : ∃ i, (lv - 1).toNat = i + 1 := ⟨(lv - 2).toNat, by omega⟩
        rw [if_neg (by omega), hi, sellLoop_eq_none (by omega)]
        rfl
    · rw [if_neg hlv, if_pos (Or.inr (Or.inl (not_le.mp hlv))), Option.map_some, hpart,
        show (lv - 1).toNat = 0 by omega]
      rfl
  · rw [if_neg hrank, if_neg hrank, if_pos (Or.inl (not_le.mp hrank))]
    cases same <;> rfl

theorem sellPart_mono (same : Bool) : Monotone (sellPart same) := by
  intro k k' hk
  unfold sellPart
  split_ifs
  · exact hk
  · exact Nat.div_le_div_right hk

theorem salePrice_mono {price price' : Nat} {lv lv' : Int} (rank : Int) (hprice : price ≤ price') (hlv : lv ≤ lv') :
    salePrice price rank lv ≤ salePrice price' rank lv' := by
  unfold salePrice
  split_ifs
  · have hmono := raisedBy_mono (sellRate_nonneg rank)
    have hid : id ≤ raisedBy (sellRate rank) := le_raisedBy _
    exact (hmono.iterate _ hprice).trans
      (Function.monotone_iterate_of_id_le hid (Int.toNat_le_toNat (by omega)) price')
  · exact le_refl _

theorem le_of_getItemSellPrice {price price' : Nat} {rank lv lv' v v' : Int} {same same' : Bool}
    (hle : sellPart same (salePrice price rank lv) ≤ sellPart same' (salePrice price' rank lv'))
    (hv : getItemSellPrice price rank lv same = some v) (hv' : getItemSellPrice price' rank lv' same' = some v') : v ≤ v' := by
  rw [getItemSellPrice_eq] at hv hv'
  split_ifs at hv hv'
  obtain rfl := Option.some.inj hv
  obtain rfl := Option.some.inj hv'
  exact Int.ofNat_le.mpr hle

/-- **The rule tables.** A call reads inside the tables, and gives a right price, exactly if the rank is below 8 or, for a price,
not used or used inside the table, and the level of a creature is below 300. -/
theorem callRight_iff {R : Type*} [Zero R] [DecidableEq R] (rate : Int → R) (_staminaExpRate : GameRule.StaminaTable R)
    (call : RuleCall) : CallRight rate _staminaExpRate call ↔ CallInside call := by
  cases call with
  | sellPrice price rank lv same =>
    constructor
    · rintro ⟨v, hv, -⟩
      rw [getItemSellPrice_eq] at hv
      split_ifs at hv with hin
      exact hin
    · intro hin
      have hv := (getItemSellPrice_eq price rank lv same).trans (if_pos hin)
      refine ⟨_, hv, Int.natCast_nonneg _, fun price' v' hprice hv' => ?_, fun lv' v' hlv hv' => ?_, fun v' hv' => ?_⟩
      · exact le_of_getItemSellPrice (sellPart_mono same (salePrice_mono rank hprice (le_refl lv))) hv hv'
      · exact le_of_getItemSellPrice (sellPart_mono same (salePrice_mono rank (le_refl price) hlv)) hv hv'
      · refine le_of_getItemSellPrice ?_ hv hv'
        cases same with
        | false => exact Nat.div_le_self _ 2
        | true => exact le_refl _
  | levelPenalty creature_level item_rank item_level =>
    exact GameRule.getItemLevelPenalty_isSome creature_level item_rank item_level
  | recommendModTable item_rank => exact GameRule.getItemRecommendModTable_isSome item_rank
  | staminaRatio level => exact GameRule.getStaminaRatio_isSome rate _staminaExpRate level

/-- An item of rank 8 is looked up behind the end of `_modtable`. -/
theorem not_callRight_rank : ¬∀ call, CallRight (fun _ => (1 : ℚ)) ⟨List.replicate 300 0, List.length_replicate⟩ call := by
  intro h
  have hright : (GameRule.getItemRecommendModTable 8).isSome = true := h (.recommendModTable 8)
  exact absurd hright (by decide)

end RZEmulator.Chihiro
