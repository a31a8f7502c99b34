import Mathlib.Algebra.BigOperators.Ring.Finset
import Mathlib.Data.Rat.Defs
import Mathlib.Logic.Function.Basic
import Mathlib.Tactic.Ring
import RZEmulator.Chihiro.WearPosition
import RZEmulator.Lib.Run

/-!
# What summons wear

`Unit::Puton` and `Unit::Putoff` for summons, with `Summon::TranslateWearPosition`, `putonItem` and `putoffItem`. The
slots, the owner that an item carries and the weight modifier of the master's inventory are kept together; an `ASSERT`
that fails ends the run.

With the automatic position `TranslateWearPosition` takes an occupied slot for a free one. `gear_runs_iff`: until an
automatic request gets that far, everything is as it should be.
-/

namespace RZEmulator.Chihiro

open Lib Finset
open ItemWearType (WEAR_NONE)

/-- An item as far as a summon wears it. -/
structure GearItem where
  group : Int
  wearType : Int
  /-- `m_Instance.Flag` -/
  flag : Nat
  levelLimit : Int
  useMinLevel : Int
  useMaxLevel : Int
  isInInventory : Bool
  /-- `GetWeight()` -/
  weight : ℚ
  nWearInfo : Int
  ownSummonHandle : Nat
  nOwnSummonUID : Int

structure GearSummon where
  handle : Nat
  uid : Int
  level : Int
  unitExpertLevel : Int
  /-- `m_anWear`: which item is in a slot. -/
  wear : Nat → Option Nat

/-- The summons of a master, the items and the weight modifier of his inventory. -/
structure SummonGear (ι : Type) where
  items : Nat → GearItem
  summons : ι → GearSummon
  m_fWeightModifier : ℚ

inductive GearResult
  | success
  | notExist
  | accessDenied
  | notActable
  | tooHeavy
  deriving DecidableEq, Repr

def GROUP_ARTIFACT : Int := 130

/-- The slots of a summon. -/
def SUMMON_MAX_NON_ARTIFACT_ITEM_WEAR : Nat := 2

namespace GearItem

def isArtifact (x : GearItem) : Bool := x.group == GROUP_ARTIFACT

def isWearable (x : GearItem) : Bool := x.wearType != -1 && !x.flag.testBit 3

/-- `Unit::TranslateWearPosition`. -/
def fits (x : GearItem) (su : GearSummon) : Bool :=
  x.wearType != -1 && x.isWearable && decide (x.levelLimit ≤ max su.unitExpertLevel su.level) &&
    (x.useMinLevel == 0 || decide (x.useMinLevel ≤ su.level)) &&
    (x.useMaxLevel == 0 || decide (su.level ≤ x.useMaxLevel))

/-- `m_Instance.Flag & 1`. -/
def isForSummons (x : GearItem) : Bool := x.flag.testBit 0

end GearItem

namespace SummonGear

variable {ι : Type} [DecidableEq ι] (s : SummonGear ι)

def worn (i : ι) (p : Nat) : Option Nat := (s.summons i).wear p

def setSlot (i : ι) (p : Nat) (v : Option Nat) : SummonGear ι :=
  let su := { s.summons i with wear := Function.update (s.summons i).wear p v }
  { s with summons := Function.update s.summons i su }

def updItem (x : Nat) (f : GearItem → GearItem) : SummonGear ι :=
  { s with items := Function.update s.items x (f (s.items x)) }

def setWearInfo (x : Nat) (wear_info : Int) : SummonGear ι := s.updItem x fun it => { it with nWearInfo := wear_info }

def setOwnSummonInfo (x handle : Nat) (UID : Int) : SummonGear ι :=
  s.updItem x fun it => { it with ownSummonHandle := handle, nOwnSummonUID := UID }

def addWeightModifier (v : ℚ) : SummonGear ι := { s with m_fWeightModifier := s.m_fWeightModifier + v }

/-! ## Positions -/

/-- The loop of the automatic position over slots, with the position so far. -/
def scanSlots (i : ι) (x : Nat) : List Nat → Int → Option Int
  | [], pos => some pos
  | p :: ps, pos =>
    match s.worn i p with
    | none => scanSlots i x ps pos
    | some y =>
      if (s.items x).isArtifact = false ∧ (s.items y).group = (s.items x).group then none
      else if y = x then none
      else scanSlots i x ps (if pos = MAX_ITEM_WEAR then p else pos)

/-- `Summon::TranslateWearPosition`: the position, and the slots to be cleared. -/
def translateWearPosition (i : ι) (x : Nat) (pos : Int) : Option (Int × List Nat) :=
  if (s.items x).fits (s.summons i) = false then none
  else if (s.items x).isForSummons = false then none
  else if pos > MAX_ITEM_WEAR ∨ pos < 0 then none
  else if pos = MAX_ITEM_WEAR then
    (s.scanSlots i x (List.range SUMMON_MAX_NON_ARTIFACT_ITEM_WEAR) pos).bind fun pos =>
      if pos = MAX_ITEM_WEAR then none else some (pos, [])
  else if pos ≥ SUMMON_MAX_NON_ARTIFACT_ITEM_WEAR then none
  else some (pos, if s.worn i pos.toNat = none then [] else [pos.toNat])

/-! ## Putting on and off -/

/-- `Unit::putonItem`, with its two assertions. -/
def unitPutonItem (i : ι) (p : Nat) (x : Nat) : Option (SummonGear ι) :=
  if p < MAX_SPARE_ITEM_WEAR ∧ s.worn i p = none then some ((s.setSlot i p (some x)).setWearInfo x p) else none

/-- `masterHere`: the master is there and in the world. -/
def putonItem (masterHere : Bool) (i : ι) (p : Nat) (x : Nat) : Option (GearResult × SummonGear ι) :=
  if masterHere = false ∨ (s.items x).isForSummons = false then some (.accessDenied, s)
  else (s.unitPutonItem i p x).map fun s =>
    let s := s.setOwnSummonInfo x (s.summons i).handle (s.summons i).uid
    (.success, if s.worn i p = some x then s.addWeightModifier (-(s.items x).weight) else s)

/-- `Unit::putoffItem`. -/
def unitPutoffItem (i : ι) (p : Nat) (x : Nat) : SummonGear ι := (s.setWearInfo x WEAR_NONE).setSlot i p none

def putoffItem (masterHere : Bool) (i : ι) (p : Nat) : GearResult × SummonGear ι :=
  if masterHere = false then (.accessDenied, s)
  else
    match s.worn i p with
    | none => (.notExist, s)
    | some x =>
      let s := (s.setOwnSummonInfo x 0 0).unitPutoffItem i p x
      (.success, if s.worn i p = none then s.addWeightModifier (s.items x).weight else s)

/-- The loop of `Puton` over the slots to be cleared, and what follows it. -/
def clearSlots (masterHere : Bool) (i : ι) (p : Nat) (x : Nat) :
    List Nat → SummonGear ι → Option (GearResult × SummonGear ι)
  | [], s => s.putonItem masterHere i p x
  | it :: rest, s =>
    let s := (s.putoffItem masterHere i it).2
    if s.worn i it ≠ none then some (.notActable, s) else clearSlots masterHere i p x rest s

def puton (masterHere : Bool) (i : ι) (x : Nat) (pos : Int) : Option (GearResult × SummonGear ι) :=
  if (s.items x).isInInventory = false then some (.accessDenied, s)
  else if (s.items x).nWearInfo ≠ WEAR_NONE then some (.notActable, s)
  else
    match s.translateWearPosition i x pos with
    | none => some (.notActable, s)
    | some (pos, vOverlappedItemList) => clearSlots masterHere i pos.toNat x vOverlappedItemList s

/-- `onPutOffItem` looks for the worn item, and `Putoff` does the rest; `bagNeeded` is what the weights say of a bag. -/
def putoff (masterHere bagNeeded : Bool) (i : ι) (pos : Int) : GearResult × SummonGear ι :=
  if pos ≥ MAX_ITEM_WEAR ∨ pos < 0 then (.notExist, s)
  else if s.worn i pos.toNat = none then (.notExist, s)
  else if pos = ItemWearType.BAG_SLOT ∧ bagNeeded = true then (.tooHeavy, s)
  else s.putoffItem masterHere i pos.toNat

end SummonGear

/-! ## Runs -/

inductive GearEvent (ι : Type)
  | puton (masterHere : Bool) (summon : ι) (item : Nat) (pos : Int)
  | putoff (masterHere bagNeeded : Bool) (summon : ι) (pos : Int)

namespace SummonGear

variable {ι : Type} [DecidableEq ι]

def handle (s : SummonGear ι) : GearEvent ι → Option (GearResult × SummonGear ι)
  | .puton masterHere i x pos => s.puton masterHere i x pos
  | .putoff masterHere bagNeeded i pos => some (s.putoff masterHere bagNeeded i pos)

/-! ## What is claimed -/

def weightOf (items : Nat → GearItem) (slot : Option Nat) : ℚ := slot.elim 0 fun x => (items x).weight

/-- The weight of all that the summons wear. -/
def wornWeight [Fintype ι] (s : SummonGear ι) : ℚ :=
  ∑ i, ∑ p ∈ range SUMMON_MAX_NON_ARTIFACT_ITEM_WEAR, weightOf s.items (s.worn i p)

/-- The owners are those of the worn items, and the weight modifier takes their weight away. -/
structure Equipped [Fintype ι] (s : SummonGear ι) : Prop where
  handles : Function.Injective fun i => (s.summons i).handle
  handle_ne : ∀ i, (s.summons i).handle ≠ 0
  slots : ∀ i p x, s.worn i p = some x → p < SUMMON_MAX_NON_ARTIFACT_ITEM_WEAR
  info : ∀ i p x, s.worn i p = some x → (s.items x).nWearInfo = p
  owner : ∀ i x, (s.items x).ownSummonHandle = (s.summons i).handle ↔ ∃ p, s.worn i p = some x
  uid : ∀ i p x, s.worn i p = some x → (s.items x).nOwnSummonUID = (s.summons i).uid
  weight : s.m_fWeightModifier = -s.wornWeight

variable (s : SummonGear ι)

/-- The summon can wear the item, apart from its slots. -/
def mayWear (masterHere : Bool) (i : ι) (x : Nat) : Bool :=
  masterHere && (s.items x).isInInventory && (s.items x).nWearInfo == WEAR_NONE && (s.items x).fits (s.summons i) &&
    (s.items x).isForSummons

/-- A worn item is of the group of this one. -/
def wearsGroup (i : ι) (x : Nat) : Prop := ∃ p < SUMMON_MAX_NON_ARTIFACT_ITEM_WEAR, ∃ y, s.worn i p = some y ∧
  (s.items y).group = (s.items x).group

def hasFreeSlot (i : ι) : Prop := ∃ p < SUMMON_MAX_NON_ARTIFACT_ITEM_WEAR, s.worn i p = none

/-- What an automatic request is to do. -/
structure AutomaticRight (masterHere : Bool) (i : ι) (x : Nat) (res : GearResult) (t : SummonGear ι) : Prop where
  succeeds : s.mayWear masterHere i x = true → (res = .success ↔ s.hasFreeSlot i ∧ ¬s.wearsGroup i x)
  free : res = .success → ∃ p < SUMMON_MAX_NON_ARTIFACT_ITEM_WEAR, s.worn i p = none ∧ t.worn i p = some x

/-- The request has a result, keeps owners and weights, loses no item of a slot without putting it off, and changes
nothing if it is refused. -/
structure StepRight [Fintype ι] (e : GearEvent ι) : Prop where
  result : ∃ res t, s.handle e = some (res, t) ∧ Equipped t ∧ (res ≠ .success → t = s) ∧
    (∀ i p y, s.worn i p = some y → t.worn i p = some y ∨ (t.items y).nWearInfo = WEAR_NONE) ∧
    ∀ masterHere i x, e = .puton masterHere i x MAX_ITEM_WEAR → s.AutomaticRight masterHere i x res t

/-- An automatic request for an item that the summon can wear is to be refused for its group, and the item is none of
those that are exempt from that. -/
def GearCareful : GearEvent ι → Prop
  | .puton masterHere i x pos => pos = MAX_ITEM_WEAR → s.mayWear masterHere i x = true →
      (s.items x).isArtifact = false ∧ s.wearsGroup i x
  | .putoff _ _ _ _ => True

/-- The runs from what is equipped rightly. -/
def gearSystem (ι : Type) [DecidableEq ι] [Fintype ι] : System (SummonGear ι) (GearEvent ι) :=
  .ofFun Equipped fun s e => (s.handle e).map Prod.snd

/-! ## One slot -/

variable {s : SummonGear ι} {i j : ι} {p q : Nat} {x y : Nat} {masterHere : Bool}

/-- The item is put into the slot. -/
def wearAt (s : SummonGear ι) (i : ι) (p x : Nat) : SummonGear ι :=
  let t := ((s.setSlot i p (some x)).setWearInfo x p).setOwnSummonInfo x (s.summons i).handle (s.summons i).uid
  t.addWeightModifier (-(s.items x).weight)

/-- The item is taken out of the slot. -/
def takeOff (s : SummonGear ι) (i : ι) (p x : Nat) : SummonGear ι :=
  (((s.setOwnSummonInfo x 0 0).setWearInfo x WEAR_NONE).setSlot i p none).addWeightModifier (s.items x).weight

theorem worn_setSlot (s : SummonGear ι) (i j : ι) (p q : Nat) (v : Option Nat) :
    (s.setSlot i p v).worn j q = if j = i ∧ q = p then v else s.worn j q := by
  unfold worn setSlot
  dsimp only
  by_cases hj : j = i
  · subst hj
    rw [Function.update_self]
    by_cases hq : q = p
    · rw [hq, if_pos ⟨rfl, rfl⟩]
      exact Function.update_self ..
    · rw [if_neg fun h => hq h.2]
      exact Function.update_of_ne hq ..
  · rw [Function.update_of_ne hj, if_neg fun h => hj h.1]

/-- What a summon is, but for its slots. -/
theorem summons_setSlot (s : SummonGear ι) (i : ι) (p : Nat) (v : Option Nat) (j : ι) :
    ((s.setSlot i p v).summons j).handle = (s.summons j).handle ∧
      ((s.setSlot i p v).summons j).uid = (s.summons j).uid := by
  unfold setSlot
  dsimp only
  by_cases hj : j = i
  · subst hj
    rw [Function.update_self]
    exact ⟨rfl, rfl⟩
  · rw [Function.update_of_ne hj]
    exact ⟨rfl, rfl⟩

omit [DecidableEq ι] in
theorem items_updItem (s : SummonGear ι) (x y : Nat) (f : GearItem → GearItem) :
    (s.updItem x f).items y = if y = x then f (s.items x) else s.items y := by
  unfold updItem
  exact Function.update_apply ..

theorem items_wearAt (s : SummonGear ι) (i : ι) (p x y : Nat) : (s.wearAt i p x).items y =
    if y = x then { s.items x with
      nWearInfo := p, ownSummonHandle := (s.summons i).handle, nOwnSummonUID := (s.summons i).uid }
    else s.items y := by
  change (((s.setSlot i p (some x)).setWearInfo x p).setOwnSummonInfo x _ _).items y = _
  unfold setOwnSummonInfo setWearInfo
  rw [items_updItem, items_updItem, items_updItem]
  by_cases h : y = x
  · rw [if_pos h, if_pos h, if_pos rfl]
    rfl
  · rw [if_neg h, if_neg h, if_neg h]
    rfl

theorem items_takeOff (s : SummonGear ι) (i : ι) (p x y : Nat) : (s.takeOff i p x).items y =
    if y = x then { s.items x with nWearInfo := WEAR_NONE, ownSummonHandle := 0, nOwnSummonUID := 0 }
    else s.items y := by
  change ((s.setOwnSummonInfo x 0 0).setWearInfo x WEAR_NONE).items y = _
  unfold setOwnSummonInfo setWearInfo
  rw [items_updItem, items_updItem, items_updItem]
  by_cases h : y = x
  · rw [if_pos h, if_pos h, if_pos rfl]
  · rw [if_neg h, if_neg h, if_neg h]

theorem weight_wearAt (s : SummonGear ι) (i : ι) (p x y : Nat) :
    ((s.wearAt i p x).items y).weight = (s.items y).weight := by
  rw [items_wearAt]
  split
  next h => rw [h]
  next => rfl

theorem weight_takeOff (s : SummonGear ι) (i : ι) (p x y : Nat) :
    ((s.takeOff i p x).items y).weight = (s.items y).weight := by
  rw [items_takeOff]
  split
  next h => rw [h]
  next => rfl

theorem worn_wearAt (s : SummonGear ι) (i j : ι) (p q x : Nat) :
    (s.wearAt i p x).worn j q = if j = i ∧ q = p then some x else s.worn j q := worn_setSlot s i j p q (some x)

theorem worn_takeOff (s : SummonGear ι) (i j : ι) (p q x : Nat) :
    (s.takeOff i p x).worn j q = if j = i ∧ q = p then none else s.worn j q := worn_setSlot _ i j p q none

theorem putonItem_of_free (hhere : masterHere = true) (hfor : (s.items x).isForSummons = true)
    (hp : p < SUMMON_MAX_NON_ARTIFACT_ITEM_WEAR) (hfree : s.worn i p = none) :
    s.putonItem masterHere i p x = some (.success, s.wearAt i p x) := by
  have hspare : p < MAX_SPARE_ITEM_WEAR := hp.trans (by decide)
  have hsummon := summons_setSlot s i p (some x) i
  unfold putonItem unitPutonItem
  rw [if_neg (by rw [hhere, hfor]; decide), if_pos ⟨hspare, hfree⟩, Option.map_some]
  dsimp only
  have hhandle : (((s.setSlot i p (some x)).setWearInfo x p).summons i).handle = (s.summons i).handle := hsummon.1
  have huid : (((s.setSlot i p (some x)).setWearInfo x p).summons i).uid = (s.summons i).uid := hsummon.2
  rw [hhandle, huid]
  have hworn : (((s.setSlot i p (some x)).setWearInfo x p).setOwnSummonInfo x (s.summons i).handle
      (s.summons i).uid).worn i p = some x := (worn_setSlot s i i p p (some x)).trans (if_pos ⟨rfl, rfl⟩)
  rw [if_pos hworn]
  have hweight : ((((s.setSlot i p (some x)).setWearInfo x p).setOwnSummonInfo x (s.summons i).handle
      (s.summons i).uid).items x).weight = (s.items x).weight :=
    weight_wearAt s i p x x
  rw [hweight]
  rfl

theorem putoffItem_of_worn (hhere : masterHere = true) (hworn : s.worn i p = some x) :
    s.putoffItem masterHere i p = (.success, s.takeOff i p x) := by
  unfold putoffItem
  rw [if_neg (by rw [hhere]; decide), hworn]
  dsimp only
  have hempty : ((s.setOwnSummonInfo x 0 0).unitPutoffItem i p x).worn i p = none :=
    (worn_setSlot _ i i p p none).trans (if_pos ⟨rfl, rfl⟩)
  rw [if_pos hempty]
  have hweight : (((s.setOwnSummonInfo x 0 0).unitPutoffItem i p x).items x).weight = (s.items x).weight :=
    weight_takeOff s i p x x
  rw [hweight]
  rfl

theorem worn_wearAt_some (hnowhere : ∀ j q, s.worn j q ≠ some x) (hy : (s.wearAt i p x).worn j q = some y) :
    j = i ∧ q = p ∧ y = x ∨ y ≠ x ∧ s.worn j q = some y := by
  rw [worn_wearAt] at hy
  split at hy
  next hslot => exact Or.inl ⟨hslot.1, hslot.2, (Option.some.inj hy).symm⟩
  next => exact Or.inr ⟨fun hyx => hnowhere j q (hyx ▸ hy), hy⟩

theorem worn_takeOff_some (honce : ∀ j q, s.worn j q = some x → j = i ∧ q = p)
    (hy : (s.takeOff i p x).worn j q = some y) : y ≠ x ∧ s.worn j q = some y := by
  rw [worn_takeOff] at hy
  split at hy
  next => cases hy
  next hslot => exact ⟨fun hyx => hslot (honce j q (hyx ▸ hy)), hy⟩

/-- Who wears another item is as before, when the slot has been free or is made so. -/
theorem exists_worn_congr {t : SummonGear ι} {v : Option Nat} (hworn : ∀ j q, t.worn j q =
    if j = i ∧ q = p then v else s.worn j q) (hv : v ≠ some y) (hbefore : s.worn i p ≠ some y) (j : ι) :
    (∃ q, s.worn j q = some y) ↔ ∃ q, t.worn j q = some y := by
  refine exists_congr fun q => ?_
  rw [hworn]
  split
  next hslot =>
    rw [hslot.1, hslot.2]
    exact ⟨fun h => absurd h hbefore, fun h => absurd h hv⟩
  next => rfl

/-! ## Weights -/

variable [Fintype ι]

/-- One slot is changed. -/
theorem wornWeight_of_slot {t : SummonGear ι} {v : Option Nat} (hp : p < SUMMON_MAX_NON_ARTIFACT_ITEM_WEAR)
    (hworn : ∀ j q, t.worn j q = if j = i ∧ q = p then v else s.worn j q)
    (hweight : ∀ y, (t.items y).weight = (s.items y).weight) :
    t.wornWeight = s.wornWeight + (weightOf s.items v - weightOf s.items (s.worn i p)) := by
  have hof : ∀ slot, weightOf t.items slot = weightOf s.items slot := by
    intro slot
    cases slot with
    | none => rfl
    | some y => exact hweight y
  rw [← sub_eq_iff_eq_add']
  unfold wornWeight
  rw [← Finset.sum_sub_distrib, Finset.sum_eq_single i]
  · rw [← Finset.sum_sub_distrib, Finset.sum_eq_single p]
    · rw [hof, hworn, if_pos ⟨rfl, rfl⟩]
    · intro q _ hq
      rw [hof, hworn, if_neg fun h => hq h.2, sub_self]
    · exact fun h => absurd (Finset.mem_range.mpr hp) h
  · intro j _ hj
    rw [← Finset.sum_sub_distrib]
    refine Finset.sum_eq_zero fun q _ => ?_
    rw [hof, hworn, if_neg fun h => hj h.1, sub_self]
  · exact fun h => absurd (Finset.mem_univ i) h

/-! ## Steps -/

omit [DecidableEq ι] in
/-- Nobody wears what has no place. -/
theorem Equipped.not_worn (h : Equipped s) (hinfo : (s.items x).nWearInfo = WEAR_NONE) (j : ι) (q : Nat) :
    s.worn j q ≠ some x := by
  intro hq
  have hplace := h.info j q x hq
  rw [hinfo] at hplace
  unfold WEAR_NONE at hplace
  omega

omit [DecidableEq ι] in
/-- What is worn has one place. -/
theorem Equipped.once (h : Equipped s) (hworn : s.worn i p = some x) (hq : s.worn j q = some x) : j = i ∧ q = p := by
  have hhandle := ((h.owner j x).mpr ⟨q, hq⟩).symm.trans ((h.owner i x).mpr ⟨p, hworn⟩)
  have hplace := (h.info j q x hq).symm.trans (h.info i p x hworn)
  exact ⟨h.handles hhandle, Int.ofNat.inj hplace⟩

theorem Equipped.wearAt (h : Equipped s) (hp : p < SUMMON_MAX_NON_ARTIFACT_ITEM_WEAR) (hfree : s.worn i p = none)
    (hinfo : (s.items x).nWearInfo = WEAR_NONE) : Equipped (s.wearAt i p x) := by
  have hhandle : ∀ j, ((s.wearAt i p x).summons j).handle = (s.summons j).handle :=
    fun j => (summons_setSlot s i p (some x) j).1
  have huid : ∀ j, ((s.wearAt i p x).summons j).uid = (s.summons j).uid :=
    fun j => (summons_setSlot s i p (some x) j).2
  have hnowhere := h.not_worn hinfo
  constructor
  case handles => exact fun j k hjk => h.handles (((hhandle j).symm.trans hjk).trans (hhandle k))
  case handle_ne => exact fun j => (hhandle j).trans_ne (h.handle_ne j)
  case slots =>
    intro j q y hy
    rcases worn_wearAt_some hnowhere hy with ⟨-, rfl, -⟩ | ⟨-, hbefore⟩
    · exact hp
    · exact h.slots j q y hbefore
  case info =>
    intro j q y hy
    rw [items_wearAt]
    rcases worn_wearAt_some hnowhere hy with ⟨-, rfl, rfl⟩ | ⟨hne, hbefore⟩
    · rw [if_pos rfl]
    · rw [if_neg hne]
      exact h.info j q y hbefore
  case owner =>
    intro j y
    rw [items_wearAt, hhandle]
    by_cases hyx : y = x
    · subst hyx
      rw [if_pos rfl]
      constructor
      · intro hij
        cases h.handles hij
        exact ⟨p, (worn_wearAt ..).trans (if_pos ⟨rfl, rfl⟩)⟩
      · rintro ⟨q, hq⟩
        rcases worn_wearAt_some hnowhere hq with ⟨rfl, -, -⟩ | ⟨hne, -⟩
        · rfl
        · exact absurd rfl hne
    · rw [if_neg hyx, h.owner]
      refine exists_worn_congr (fun j q => worn_wearAt s i j p q x) (fun hy => hyx (Option.some.inj hy).symm) ?_ j
      rw [hfree]
      nofun
  case uid =>
    intro j q y hy
    rw [items_wearAt, huid]
    rcases worn_wearAt_some hnowhere hy with ⟨rfl, -, rfl⟩ | ⟨hne, hbefore⟩
    · rw [if_pos rfl]
    · rw [if_neg hne]
      exact h.uid j q y hbefore
  case weight =>
    rw [wornWeight_of_slot hp (fun j q => worn_wearAt s i j p q x) (weight_wearAt s i p x), hfree]
    change s.m_fWeightModifier + -(s.items x).weight = -(s.wornWeight + ((s.items x).weight - 0))
    rw [h.weight]
    ring

theorem Equipped.takeOff (h : Equipped s) (hworn : s.worn i p = some x) : Equipped (s.takeOff i p x) := by
  have hsummon := summons_setSlot ((s.setOwnSummonInfo x 0 0).setWearInfo x WEAR_NONE) i p none
  have hhandle : ∀ j, ((s.takeOff i p x).summons j).handle = (s.summons j).handle := fun j => (hsummon j).1
  have huid : ∀ j, ((s.takeOff i p x).summons j).uid = (s.summons j).uid := fun j => (hsummon j).2
  have honce : ∀ j q, s.worn j q = some x → j = i ∧ q = p := fun _ _ hq => h.once hworn hq
  constructor
  case handles => exact fun j k hjk => h.handles (((hhandle j).symm.trans hjk).trans (hhandle k))
  case handle_ne => exact fun j => (hhandle j).trans_ne (h.handle_ne j)
  case slots => exact fun j q y hy => h.slots j q y (worn_takeOff_some honce hy).2
  case info =>
    intro j q y hy
    obtain ⟨hne, hbefore⟩ := worn_takeOff_some honce hy
    rw [items_takeOff, if_neg hne]
    exact h.info j q y hbefore
  case owner =>
    intro j y
    rw [items_takeOff, hhandle]
    by_cases hyx : y = x
    · subst hyx
      rw [if_pos rfl]
      refine ⟨fun h0 => absurd h0.symm (h.handle_ne j), ?_⟩
      rintro ⟨q, hq⟩
      exact absurd rfl (worn_takeOff_some honce hq).1
    · rw [if_neg hyx, h.owner]
      refine exists_worn_congr (fun j q => worn_takeOff s i j p q x) nofun ?_ j
      rw [hworn]
      exact fun hy => hyx (Option.some.inj hy).symm
  case uid =>
    intro j q y hy
    obtain ⟨hne, hbefore⟩ := worn_takeOff_some honce hy
    rw [items_takeOff, huid, if_neg hne]
    exact h.uid j q y hbefore
  case weight =>
    have hp := h.slots i p x hworn
    rw [wornWeight_of_slot hp (fun j q => worn_takeOff s i j p q x) (weight_takeOff s i p x), hworn]
    change s.m_fWeightModifier + (s.items x).weight = -(s.wornWeight + (0 - (s.items x).weight))
    rw [h.weight]
    ring

/-- What is refused changes nothing. -/
theorem StepRight.refused {e : GearEvent ι} {res : GearResult} (h : Equipped s) (hhandle : s.handle e = some (res, s))
    (hres : res ≠ .success)
    (hauto : ∀ masterHere i x, e = .puton masterHere i x MAX_ITEM_WEAR → s.mayWear masterHere i x = true →
      ¬(s.hasFreeSlot i ∧ ¬s.wearsGroup i x)) : s.StepRight e := by
  refine ⟨res, s, hhandle, h, fun _ => rfl, fun _ _ _ hy => Or.inl hy, fun masterHere i x he => ?_⟩
  exact ⟨fun hmay => ⟨fun h => absurd h hres, fun hfree => absurd hfree (hauto masterHere i x he hmay)⟩,
    fun h => absurd h hres⟩

theorem stepRight_putoff (h : Equipped s) (masterHere bagNeeded : Bool) (i : ι) (pos : Int) :
    s.StepRight (.putoff masterHere bagNeeded i pos) := by
  have hrefused : ∀ res, s.putoff masterHere bagNeeded i pos = (res, s) → res ≠ .success →
      s.StepRight (.putoff masterHere bagNeeded i pos) :=
    fun res hput hres => .refused h (congrArg some hput) hres nofun
  unfold putoff at hrefused
  by_cases hpos : pos ≥ MAX_ITEM_WEAR ∨ pos < 0
  · exact hrefused .notExist (if_pos hpos) nofun
  rw [if_neg hpos] at hrefused
  by_cases hfree : s.worn i pos.toNat = none
  · exact hrefused .notExist (if_pos hfree) nofun
  rw [if_neg hfree] at hrefused
  by_cases hbag : pos = ItemWearType.BAG_SLOT ∧ bagNeeded = true
  · exact hrefused .tooHeavy (if_pos hbag) nofun
  rw [if_neg hbag] at hrefused
  cases hhere : masterHere with
  | false =>
    subst hhere
    exact hrefused .accessDenied (if_pos rfl) nofun
  | true =>
    obtain ⟨x, hx⟩ := Option.ne_none_iff_exists'.mp hfree
    have hhandle : s.handle (.putoff true bagNeeded i pos) = some (.success, s.takeOff i pos.toNat x) := by
      change some (s.putoff true bagNeeded i pos) = _
      unfold putoff
      rw [if_neg hpos, if_neg hfree, if_neg hbag, putoffItem_of_worn rfl hx]
    refine ⟨.success, s.takeOff i pos.toNat x, hhandle, h.takeOff hx, fun h => absurd rfl h, ?_, nofun⟩
    intro j q y hy
    rw [worn_takeOff]
    split
    next hslot =>
      rw [hslot.1, hslot.2, hx] at hy
      cases hy
      right
      rw [items_takeOff, if_pos rfl]
    next => exact Or.inl hy

/-! ## Positions -/

omit [DecidableEq ι] [Fintype ι] in
theorem translateWearPosition_chosen {pos r : Int} {l : List Nat} (hpos : pos ≠ MAX_ITEM_WEAR)
    (h : s.translateWearPosition i x pos = some (r, l)) : (s.items x).isForSummons = true ∧
      ∃ p < SUMMON_MAX_NON_ARTIFACT_ITEM_WEAR, r.toNat = p ∧ l = if s.worn i p = none then [] else [p] := by
  unfold translateWearPosition at h
  split at h
  next => cases h
  split at h
  next => cases h
  next hfor =>
  split at h
  next => cases h
  next hrange =>
  split at h
  next => cases h
  next hslot =>
  cases h
  refine ⟨Bool.eq_true_of_not_eq_false hfor, pos.toNat, ?_, rfl, rfl⟩
  omega

omit [DecidableEq ι] [Fintype ι] in
/-- No slot of the scan is free once a position has been found. -/
theorem scanSlots_some (i : ι) (x : Nat) (ps : List Nat) (hnot : ∀ p ∈ ps, s.worn i p ≠ some x)
    (hgroup : (s.items x).isArtifact = false →
      ∀ p ∈ ps, ∀ y, s.worn i p = some y → (s.items y).group ≠ (s.items x).group) (pos : Int) :
    ∃ r, s.scanSlots i x ps pos = some r ∧
      (r = pos ∧ (pos = MAX_ITEM_WEAR → ∀ p ∈ ps, s.worn i p = none) ∨
        ∃ p ∈ ps, r = p ∧ s.worn i p ≠ none) := by
  induction ps generalizing pos with
  | nil => exact ⟨pos, rfl, Or.inl ⟨rfl, fun _ _ hp => absurd hp List.not_mem_nil⟩⟩
  | cons p ps ih =>
    have htail := ih (fun q hq => hnot q (List.mem_cons_of_mem p hq))
      (fun hart q hq => hgroup hart q (List.mem_cons_of_mem p hq))
    unfold scanSlots
    cases hp : s.worn i p with
    | none =>
      obtain ⟨r, hr, hcase⟩ := htail pos
      refine ⟨r, hr, ?_⟩
      rcases hcase with ⟨hrpos, hfree⟩ | ⟨q, hq, h⟩
      · exact Or.inl ⟨hrpos, fun hpos => List.forall_mem_cons.mpr ⟨hp, hfree hpos⟩⟩
      · exact Or.inr ⟨q, List.mem_cons_of_mem p hq, h⟩
    | some y =>
      dsimp only
      have hother : y ≠ x := fun hyx => hnot p List.mem_cons_self (hyx ▸ hp)
      rw [if_neg fun h => hgroup h.1 p List.mem_cons_self y hp h.2, if_neg hother]
      obtain ⟨r, hr, hcase⟩ := htail (if pos = MAX_ITEM_WEAR then p else pos)
      refine ⟨r, hr, ?_⟩
      rcases hcase with ⟨hrpos, -⟩ | ⟨q, hq, h⟩
      · by_cases hpos : pos = MAX_ITEM_WEAR
        · rw [if_pos hpos] at hrpos
          exact Or.inr ⟨p, List.mem_cons_self, hrpos, by rw [hp]; nofun⟩
        · rw [if_neg hpos] at hrpos
          exact Or.inl ⟨hrpos, fun h => absurd h hpos⟩
      · exact Or.inr ⟨q, List.mem_cons_of_mem p hq, h⟩

omit [DecidableEq ι] [Fintype ι] in
theorem scanSlots_none (i : ι) (x : Nat) (ps : List Nat) (hart : (s.items x).isArtifact = false)
    (hgroup : ∃ p ∈ ps, ∃ y, s.worn i p = some y ∧ (s.items y).group = (s.items x).group) (pos : Int) :
    s.scanSlots i x ps pos = none := by
  induction ps generalizing pos with
  | nil =>
    obtain ⟨p, hp, -⟩ := hgroup
    exact absurd hp List.not_mem_nil
  | cons p ps ih =>
    obtain ⟨q, hq, y, hy, hsame⟩ := hgroup
    unfold scanSlots
    rcases List.mem_cons.mp hq with rfl | hq
    · rw [hy]
      exact if_pos ⟨hart, hsame⟩
    · have htail := ih ⟨q, hq, y, hy, hsame⟩
      cases s.worn i p with
      | none => exact htail pos
      | some z =>
        dsimp only
        rw [htail]
        split
        next => rfl
        next => exact ite_self none

/-! ## Requests -/

/-- Into a slot that may have to be cleared. -/
theorem Equipped.clearSlots (h : Equipped s) (masterHere : Bool) (hfor : (s.items x).isForSummons = true)
    (hinfo : (s.items x).nWearInfo = WEAR_NONE) (hp : p < SUMMON_MAX_NON_ARTIFACT_ITEM_WEAR) :
    ∃ res t, clearSlots masterHere i p x (if s.worn i p = none then [] else [p]) s = some (res, t) ∧ Equipped t ∧
      (res ≠ .success → t = s) ∧
      ∀ j q y, s.worn j q = some y → t.worn j q = some y ∨ (t.items y).nWearInfo = WEAR_NONE := by
  cases hworn : s.worn i p with
  | none =>
    rw [if_pos rfl]
    unfold SummonGear.clearSlots
    cases masterHere with
    | false => exact ⟨.accessDenied, s, if_pos (Or.inl rfl), h, fun _ => rfl, fun _ _ _ hy => Or.inl hy⟩
    | true =>
      refine ⟨.success, _, putonItem_of_free rfl hfor hp hworn, h.wearAt hp hworn hinfo, fun h => absurd rfl h, ?_⟩
      intro j q y hy
      left
      rw [worn_wearAt, if_neg, hy]
      rintro ⟨rfl, rfl⟩
      rw [hworn] at hy
      cases hy
  | some z =>
    rw [if_neg nofun]
    unfold SummonGear.clearSlots
    cases masterHere with
    | false =>
      have hput : s.putoffItem false i p = (.accessDenied, s) := if_pos rfl
      rw [hput]
      exact ⟨.notActable, s, if_pos (by rw [hworn]; nofun), h, fun _ => rfl, fun _ _ _ hy => Or.inl hy⟩
    | true =>
      rw [putoffItem_of_worn rfl hworn]
      have hempty : (s.takeOff i p z).worn i p = none := (worn_takeOff ..).trans (if_pos ⟨rfl, rfl⟩)
      rw [if_neg (not_not.mpr hempty)]
      unfold SummonGear.clearSlots
      have hother : x ≠ z := by
        rintro rfl
        exact h.not_worn hinfo i p hworn
      have hsame : (s.takeOff i p z).items x = s.items x := (items_takeOff ..).trans (if_neg hother)
      refine ⟨.success, _, putonItem_of_free rfl (hsame ▸ hfor) hp hempty,
        (h.takeOff hworn).wearAt hp hempty (hsame ▸ hinfo), fun h => absurd rfl h, ?_⟩
      intro j q y hy
      rw [worn_wearAt, worn_takeOff, items_wearAt]
      by_cases hslot : j = i ∧ q = p
      · rw [hslot.1, hslot.2, hworn] at hy
        cases hy
        right
        rw [if_neg hother.symm, items_takeOff, if_pos rfl]
      · left
        rw [if_neg hslot, if_neg hslot, hy]

theorem stepRight_chosen (h : Equipped s) (masterHere : Bool) (i : ι) (x : Nat) {pos : Int}
    (hpos : pos ≠ MAX_ITEM_WEAR) : s.StepRight (.puton masterHere i x pos) := by
  have hchosen : ∀ masterHere' j y, GearEvent.puton masterHere i x pos ≠ .puton masterHere' j y MAX_ITEM_WEAR := by
    intro _ _ _ he
    cases he
    exact hpos rfl
  have hrefused : ∀ res, s.puton masterHere i x pos = some (res, s) → res ≠ .success →
      s.StepRight (.puton masterHere i x pos) :=
    fun res hput hres => .refused h hput hres fun _ _ _ he => absurd he (hchosen _ _ _)
  unfold puton at hrefused
  by_cases hbag : (s.items x).isInInventory = false
  · exact hrefused .accessDenied (if_pos hbag) nofun
  rw [if_neg hbag] at hrefused
  by_cases hinfo : (s.items x).nWearInfo ≠ WEAR_NONE
  · exact hrefused .notActable (if_pos hinfo) nofun
  rw [if_neg hinfo] at hrefused
  cases htranslate : s.translateWearPosition i x pos with
  | none =>
    rw [htranslate] at hrefused
    exact hrefused .notActable rfl nofun
  | some out =>
    obtain ⟨r, l⟩ := out
    obtain ⟨hfor, p, hp, hr, hl⟩ := translateWearPosition_chosen hpos htranslate
    obtain ⟨res, t, hput, ht, hres, hslots⟩ := h.clearSlots (i := i) masterHere hfor (not_not.mp hinfo) hp
    have hhandle : s.handle (.puton masterHere i x pos) = some (res, t) := by
      change s.puton masterHere i x pos = _
      unfold puton
      rw [if_neg hbag, if_neg hinfo, htranslate]
      dsimp only
      rw [hr, hl, hput]
    exact ⟨res, t, hhandle, ht, hres, hslots, fun _ _ _ he => absurd he (hchosen _ _ _)⟩

omit [DecidableEq ι] [Fintype ι] in
theorem translateWearPosition_automatic (hfits : (s.items x).fits (s.summons i) = true)
    (hfor : (s.items x).isForSummons = true) : s.translateWearPosition i x MAX_ITEM_WEAR =
      (s.scanSlots i x (List.range SUMMON_MAX_NON_ARTIFACT_ITEM_WEAR) MAX_ITEM_WEAR).bind fun pos =>
        if pos = MAX_ITEM_WEAR then none else some (pos, []) := by
  unfold translateWearPosition
  rw [hfits, hfor, if_neg nofun, if_neg nofun, if_neg (by decide), if_pos rfl]

omit [DecidableEq ι] [Fintype ι] in
theorem mayWear_spec (hmay : s.mayWear masterHere i x = true) : masterHere = true ∧
    (s.items x).isInInventory = true ∧ (s.items x).nWearInfo = WEAR_NONE ∧ (s.items x).fits (s.summons i) = true ∧
    (s.items x).isForSummons = true := by
  unfold mayWear at hmay
  simp only [Bool.and_eq_true, beq_iff_eq] at hmay
  obtain ⟨⟨⟨⟨hhere, hbag⟩, hinfo⟩, hfits⟩, hfor⟩ := hmay
  exact ⟨hhere, hbag, hinfo, hfits, hfor⟩

omit [Fintype ι] in
/-- The summon cannot wear the item. -/
theorem puton_of_not_mayWear (hmay : s.mayWear masterHere i x ≠ true) :
    ∃ res, s.puton masterHere i x MAX_ITEM_WEAR = some (res, s) ∧ res ≠ .success := by
  unfold puton
  by_cases hbag : (s.items x).isInInventory = false
  · exact ⟨.accessDenied, if_pos hbag, nofun⟩
  rw [if_neg hbag]
  by_cases hinfo : (s.items x).nWearInfo ≠ WEAR_NONE
  · exact ⟨.notActable, if_pos hinfo, nofun⟩
  rw [if_neg hinfo]
  by_cases hfits : (s.items x).fits (s.summons i) = false
  · have htranslate : s.translateWearPosition i x MAX_ITEM_WEAR = none := if_pos hfits
    rw [htranslate]
    exact ⟨.notActable, rfl, nofun⟩
  by_cases hfor : (s.items x).isForSummons = false
  · have htranslate : s.translateWearPosition i x MAX_ITEM_WEAR = none := (if_neg hfits).trans (if_pos hfor)
    rw [htranslate]
    exact ⟨.notActable, rfl, nofun⟩
  rw [Bool.not_eq_false] at hbag hfits hfor
  have hhere : masterHere = false := by
    unfold mayWear at hmay
    rw [hbag, not_not.mp hinfo, hfits, hfor] at hmay
    cases masterHere with
    | false => rfl
    | true => exact absurd rfl hmay
  subst hhere
  rw [translateWearPosition_automatic hfits hfor]
  cases s.scanSlots i x (List.range SUMMON_MAX_NON_ARTIFACT_ITEM_WEAR) MAX_ITEM_WEAR with
  | none => exact ⟨.notActable, rfl, nofun⟩
  | some r =>
    rw [Option.bind_some]
    by_cases hr : r = MAX_ITEM_WEAR
    · rw [if_pos hr]
      exact ⟨.notActable, rfl, nofun⟩
    · rw [if_neg hr]
      have hput : s.putonItem false i r.toNat x = some (.accessDenied, s) := if_pos (Or.inl rfl)
      exact ⟨.accessDenied, hput, nofun⟩

omit [Fintype ι] in
/-- The summon can wear the item: the slots decide. -/
theorem puton_of_mayWear (hmay : s.mayWear masterHere i x = true) : s.puton masterHere i x MAX_ITEM_WEAR =
    match (s.scanSlots i x (List.range SUMMON_MAX_NON_ARTIFACT_ITEM_WEAR) MAX_ITEM_WEAR) with
    | none => some (.notActable, s)
    | some r => if r = MAX_ITEM_WEAR then some (.notActable, s) else s.putonItem masterHere i r.toNat x := by
  obtain ⟨-, hbag, hinfo, hfits, hfor⟩ := mayWear_spec hmay
  unfold puton
  rw [hbag, hinfo, if_neg nofun, if_neg (not_not.mpr rfl), translateWearPosition_automatic hfits hfor]
  cases s.scanSlots i x (List.range SUMMON_MAX_NON_ARTIFACT_ITEM_WEAR) MAX_ITEM_WEAR with
  | none => rfl
  | some r =>
    rw [Option.bind_some]
    by_cases hr : r = MAX_ITEM_WEAR
    · rw [if_pos hr]
      exact (if_pos hr).symm
    · rw [if_neg hr]
      exact (if_neg hr).symm

/-- It can, and no group forbids it: with all slots free it is refused, and otherwise the position is an occupied slot,
so that the assertion fails. -/
theorem puton_astray (h : Equipped s) (hmay : s.mayWear masterHere i x = true)
    (hnot : ¬((s.items x).isArtifact = false ∧ s.wearsGroup i x)) :
    s.puton masterHere i x MAX_ITEM_WEAR = none ∨ s.puton masterHere i x MAX_ITEM_WEAR = some (.notActable, s) ∧
      ∀ p < SUMMON_MAX_NON_ARTIFACT_ITEM_WEAR, s.worn i p = none := by
  obtain ⟨hhere, -, hinfo, -, hfor⟩ := mayWear_spec hmay
  have hgroup : (s.items x).isArtifact = false → ∀ p ∈ List.range SUMMON_MAX_NON_ARTIFACT_ITEM_WEAR, ∀ y,
      s.worn i p = some y → (s.items y).group ≠ (s.items x).group :=
    fun hart p hp y hy hsame => hnot ⟨hart, p, List.mem_range.mp hp, y, hy, hsame⟩
  rw [puton_of_mayWear hmay]
  obtain ⟨r, hr, hcase⟩ := scanSlots_some i x _ (fun p _ => h.not_worn hinfo i p) hgroup MAX_ITEM_WEAR
  rw [hr]
  dsimp only
  rcases hcase with ⟨rfl, hfree⟩ | ⟨p, hp, rfl, hocc⟩
  · exact Or.inr ⟨if_pos rfl, fun p hp => hfree rfl p (List.mem_range.mpr hp)⟩
  · left
    have hslot : (p : Int) ≠ MAX_ITEM_WEAR := by
      have hlt := List.mem_range.mp hp
      unfold SUMMON_MAX_NON_ARTIFACT_ITEM_WEAR at hlt
      unfold MAX_ITEM_WEAR
      omega
    rw [if_neg hslot, Int.toNat_natCast]
    unfold putonItem unitPutonItem
    rw [hhere, hfor, if_neg (by decide), if_neg fun h : p < MAX_SPARE_ITEM_WEAR ∧ _ => hocc h.2]
    rfl

theorem stepRight_automatic (h : Equipped s) (masterHere : Bool) (i : ι) (x : Nat) :
    s.StepRight (.puton masterHere i x MAX_ITEM_WEAR) ↔ (s.mayWear masterHere i x = true →
      (s.items x).isArtifact = false ∧ s.wearsGroup i x) := by
  constructor
  · intro hright hmay
    by_contra hnot
    obtain ⟨res, t, hhandle, -, -, -, hauto⟩ := hright.result
    change s.puton masterHere i x MAX_ITEM_WEAR = some (res, t) at hhandle
    rcases puton_astray h hmay hnot with hput | ⟨hput, hfree⟩
    · cases hput.symm.trans hhandle
    · cases hput.symm.trans hhandle
      have hslot : s.hasFreeSlot i := ⟨0, by decide, hfree 0 (by decide)⟩
      refine absurd (((hauto masterHere i x rfl).succeeds hmay).mpr ⟨hslot, ?_⟩) nofun
      rintro ⟨p, hp, y, hy, -⟩
      rw [hfree p hp] at hy
      cases hy
  · intro hcareful
    by_cases hmay : s.mayWear masterHere i x = true
    · obtain ⟨hart, p, hp, y, hy, hsame⟩ := hcareful hmay
      have hput := puton_of_mayWear hmay
      rw [scanSlots_none i x _ hart ⟨p, List.mem_range.mpr hp, y, hy, hsame⟩] at hput
      refine .refused h hput nofun ?_
      intro _ _ _ he _
      cases he
      exact fun hfree => hfree.2 ⟨p, hp, y, hy, hsame⟩
    · obtain ⟨res, hput, hres⟩ := puton_of_not_mayWear hmay
      refine .refused h hput hres ?_
      intro _ _ _ he hmay'
      cases he
      exact absurd hmay' hmay

theorem stepRight_iff (h : Equipped s) (e : GearEvent ι) : s.StepRight e ↔ s.GearCareful e := by
  cases e with
  | puton masterHere i x pos =>
    by_cases hpos : pos = MAX_ITEM_WEAR
    · subst hpos
      exact (stepRight_automatic h masterHere i x).trans ⟨fun h _ => h, fun h => h rfl⟩
    · exact ⟨fun _ h => absurd h hpos, fun _ => stepRight_chosen h masterHere i x hpos⟩
  | putoff masterHere bagNeeded i pos =>
    exact ⟨fun _ => trivial, fun _ => stepRight_putoff h masterHere bagNeeded i pos⟩

theorem equipped_of_run {hist : History (SummonGear ι) (GearEvent ι)}
    (hrun : (gearSystem ι).RunWhere (fun _ s e => s.GearCareful e) hist s) : Equipped s := by
  refine hrun.invariant (I := fun _ s => Equipped s) (fun s h => h) ?_
  intro _ s e t _ hs hcareful hstep
  obtain ⟨res, t', hhandle, ht, -⟩ := ((stepRight_iff hs e).mpr hcareful).result
  obtain ⟨out, hout, rfl⟩ := Option.map_eq_some_iff.mp hstep
  cases hhandle.symm.trans hout
  exact ht

/-- In a run of careful requests every step has been as it should be, and the next one is so just if it is careful. -/
theorem gear_runs_iff {hist : History (SummonGear ι) (GearEvent ι)}
    (hrun : (gearSystem ι).RunWhere (fun _ s e => s.GearCareful e) hist s) :
    Equipped s ∧ (∀ tr ∈ hist, tr.before.StepRight tr.event) ∧ ∀ e, s.StepRight e ↔ s.GearCareful e := by
  refine ⟨equipped_of_run hrun, fun tr htr => ?_, stepRight_iff (equipped_of_run hrun)⟩
  obtain ⟨_, hbefore, hcareful, -⟩ := hrun.of_mem htr
  exact (stepRight_iff (equipped_of_run hbefore) tr.event).mpr hcareful

/-- A summon that wears nothing, and items for it of which each is of a group of its own. -/
def bareSummon : SummonGear Unit :=
  { items := fun x => ⟨x, 0, 1, 0, 0, 0, true, 1, WEAR_NONE, 0, 0⟩
    summons := fun _ => ⟨7, 70, 1, 1, fun _ => none⟩
    m_fWeightModifier := 0 }

theorem bareSummon_equipped : Equipped bareSummon where
  handles := fun _ _ _ => rfl
  handle_ne := fun _ => nofun
  slots := nofun
  info := nofun
  owner := fun _ _ => ⟨nofun, fun ⟨_, hp⟩ => nomatch hp⟩
  uid := nofun
  weight := by decide +kernel

/-- The slot may be chosen. -/
theorem bareSummon_puton (p x : Nat) (hp : p < SUMMON_MAX_NON_ARTIFACT_ITEM_WEAR) :
    (gearSystem Unit).Step bareSummon (.puton true () x p) (bareSummon.wearAt () p x) := by
  have hfor : (bareSummon.items x).isForSummons = true := show Nat.testBit 1 0 = true by decide
  have hfits : (bareSummon.items x).fits (bareSummon.summons ()) = true := by
    change (bareSummon.items 0).fits (bareSummon.summons ()) = true
    decide
  unfold SUMMON_MAX_NON_ARTIFACT_ITEM_WEAR at hp
  have htranslate : bareSummon.translateWearPosition () x p = some ((p : Int), []) := by
    unfold translateWearPosition SUMMON_MAX_NON_ARTIFACT_ITEM_WEAR MAX_ITEM_WEAR
    rw [hfor, hfits, if_neg nofun, if_neg nofun, if_neg (by omega), if_neg (by omega), if_neg (by omega)]
    rfl
  have hput : bareSummon.puton true () x p = some (.success, bareSummon.wearAt () p x) := by
    unfold puton
    rw [htranslate]
    exact putonItem_of_free rfl hfor hp rfl
  change (bareSummon.puton true () x p).map Prod.snd = _
  rw [hput]
  rfl

theorem gear_runs_iff_bare : Equipped (bareSummon.wearAt () 1 5) ∧
    (∀ tr ∈ [(⟨bareSummon, .puton true () 5 1, bareSummon.wearAt () 1 5⟩ : Transition _ _)],
      tr.before.StepRight tr.event) ∧
    ∀ e, (bareSummon.wearAt () 1 5).StepRight e ↔ (bareSummon.wearAt () 1 5).GearCareful e :=
  gear_runs_iff (.step (.init bareSummon_equipped) (show (1 : Int) = MAX_ITEM_WEAR → _ from nofun)
    (bareSummon_puton 1 5 (by decide)))

/-- All slots are free, and the item is refused; one is worn, and the assertion fails. -/
theorem automatic_astray :
    (bareSummon.handle (.puton true () 5 MAX_ITEM_WEAR) = some (.notActable, bareSummon) ∧
      ¬bareSummon.StepRight (.puton true () 5 MAX_ITEM_WEAR)) ∧
    ((gearSystem Unit).Run [⟨bareSummon, .puton true () 4 (0 : Nat), bareSummon.wearAt () 0 4⟩]
        (bareSummon.wearAt () 0 4) ∧
      (bareSummon.wearAt () 0 4).hasFreeSlot () ∧
      (bareSummon.wearAt () 0 4).handle (.puton true () 5 MAX_ITEM_WEAR) = none ∧
      ¬(bareSummon.wearAt () 0 4).StepRight (.puton true () 5 MAX_ITEM_WEAR)) := by
  have hrefused : bareSummon.handle (.puton true () 5 MAX_ITEM_WEAR) = some (.notActable, bareSummon) := rfl
  have hfailed : (bareSummon.wearAt () 0 4).handle (.puton true () 5 MAX_ITEM_WEAR) = none := rfl
  refine ⟨⟨hrefused, fun h => ?_⟩, .step (.init bareSummon_equipped) trivial (bareSummon_puton 0 4 (by decide)),
    ⟨1, by decide, rfl⟩, hfailed, fun h => ?_⟩
  · obtain ⟨res, t, hhandle, -, -, -, hauto⟩ := h.result
    cases hrefused.symm.trans hhandle
    refine absurd (((hauto true () 5 rfl).succeeds rfl).mpr ⟨⟨0, by decide, rfl⟩, ?_⟩) nofun
    rintro ⟨_, _, _, hy, -⟩
    cases hy
  · obtain ⟨res, t, hhandle, -⟩ := h.result
    cases hfailed.symm.trans hhandle

end SummonGear

end RZEmulator.Chihiro
