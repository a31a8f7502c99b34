import Mathlib.Data.List.Perm.Basic
import Mathlib.Algebra.Order.Ring.Int

/-!
# Finding the recipe

`MixManager::GetProperMixInfo` with the checks it makes of the materials. The counts of the sub items are taken by reference
and overwritten by every check that is passed, and what a recipe leaves of them is what the next one sees. A check that reads
an item that is not there has no result.
-/

namespace RZEmulator.Chihiro

def MATERIAL_INFO_COUNT : Nat := 5

structure MaterialInfo where
  type : Nat → Int
  value : Nat → Int

structure MixBase where
  id : Int
  type : Int
  value : Nat → Int
  sub_material_cnt : Int
  main_material : MaterialInfo
  sub_material : Nat → MaterialInfo

namespace MixBase

def CHECK_ITEM_GROUP : Int := 1
def CHECK_ITEM_CLASS : Int := 2
def CHECK_ITEM_ID : Int := 3
def CHECK_ITEM_RANK : Int := 4
def CHECK_ITEM_LEVEL : Int := 5
def CHECK_FLAG_ON : Int := 6
def CHECK_FLAG_OFF : Int := 7
def CHECK_ENHANCE_MATCH : Int := 8
def CHECK_ENHANCE_DISMATCH : Int := 9
def CHECK_ITEM_COUNT : Int := 10
def CHECK_ITEM_WEAR_POSITION_MATCH : Int := 13
def CHECK_ITEM_WEAR_POSITION_MISMATCH : Int := 14
def CHECK_SAME_ITEM_ID : Int := 19
def CHECK_SAME_SUMMON_CODE : Int := 20

end MixBase

/-- What the checks read of an item. -/
structure MixItem where
  group : Int := 0
  iclass : Int := 0
  code : Int
  rank : Int := 0
  nLevel : Int := 1
  Flag : Nat := 0
  nEnhance : Int := 0
  wearType : Int := 0

namespace MixManager

open MixBase

/-- One condition of a material. -/
def checkCondition (type value : Int) (x : MixItem) (count : Nat) : Bool :=
  if type = CHECK_ITEM_GROUP then x.group == value
  else if type = CHECK_ITEM_CLASS then x.iclass == value
  else if type = CHECK_ITEM_ID then x.code == value
  else if type = CHECK_ITEM_RANK then x.rank == value
  else if type = CHECK_ITEM_LEVEL then x.nLevel == value
  else if type = CHECK_FLAG_ON then x.Flag.testBit (value % 32).toNat
  else if type = CHECK_FLAG_OFF then !x.Flag.testBit (value % 32).toNat
  else if type = CHECK_ENHANCE_MATCH then x.nEnhance == value
  else if type = CHECK_ENHANCE_DISMATCH then x.nEnhance != value
  else if type = CHECK_ITEM_COUNT then (count : Int) == value
  else if type = CHECK_ITEM_WEAR_POSITION_MATCH then x.wearType == value
  else if type = CHECK_ITEM_WEAR_POSITION_MISMATCH then x.wearType != value
  else true

/-- What `check_material_info` returns of an item that is there. -/
def check_material_info (info : MaterialInfo) (x : MixItem) (count : Nat) : Bool :=
  info.type 0 != 0 && (List.range MATERIAL_INFO_COUNT).all fun i => checkCondition (info.type i) (info.value i) x count

/-- `check_material_info` of the main material, of which there is one if there is any. -/
def check_main_material (info : MaterialInfo) : Option MixItem → Bool
  | none => info.type 0 == 0
  | some x => check_material_info info x 1

/-- The code that a `CHECK_SAME_ITEM_ID` compares with: the main material's or that of a slot. -/
def codeAt (main : Option MixItem) (arranged : List MixItem) (slot : Int) : Option Int :=
  if slot = 0 then main.map MixItem.code
  else if slot < 0 then none
  else (arranged[(slot - 1).toNat]?).map MixItem.code

/-- The conditions of `post_arrange_check_material_info`, from the index `i` on. -/
def postChecks (info : MaterialInfo) (main : Option MixItem) (arranged : List MixItem) (x : Option MixItem) :
    List Nat → Option Bool
  | [] => some true
  | i :: is =>
    if info.type i = CHECK_SAME_ITEM_ID then
      match x.map MixItem.code, codeAt main arranged (info.value i) with
      | some a, some b => if a = b then postChecks info main arranged x is else some false
      | _, _ => none
    else if info.type i = CHECK_SAME_SUMMON_CODE then some false
    else postChecks info main arranged x is

def post_arrange_check_material_info (info : MaterialInfo) (main : Option MixItem) (arranged : List MixItem)
    (x : Option MixItem) : Option Bool := postChecks info main arranged x (List.range MATERIAL_INFO_COUNT)

/-! ## Arranging the sub items -/

/-- The marks, the counts and the arranged sub items of the loops over slots and sub items. -/
structure Arrangement where
  bSubMaterialChecked : Nat → Bool
  pCountList : Nat → Nat
  pSubMaterialArrangeBuffer : List Nat

/-- The check that the inner loop makes: the material of the index of the sub item. -/
def fitsAt (r : MixBase) (pSubItem : List MixItem) (pCountList : Nat → Nat) (s : Nat) : Bool :=
  (pSubItem[s]?).any fun x => check_material_info (r.sub_material s) x (pCountList s)

/-- The inner loop. -/
def findSub (r : MixBase) (pSubItem : List MixItem) (a : Arrangement) : Option Nat :=
  (List.range pSubItem.length).find? fun s => !a.bSubMaterialChecked s && fitsAt r pSubItem a.pCountList s

def Arrangement.put (a : Arrangement) (s : Nat) : Arrangement where
  bSubMaterialChecked := fun i => if i = s then true else a.bSubMaterialChecked i
  pCountList := fun i => if i = s then 1 else a.pCountList i
  pSubMaterialArrangeBuffer := a.pSubMaterialArrangeBuffer ++ [s]

/-- The outer loop, for the number of slots that are left; whether it has found all of them. -/
def arrangeLoop (r : MixBase) (pSubItem : List MixItem) : Nat → Arrangement → Bool × Arrangement
  | 0, a => (true, a)
  | n + 1, a =>
    match findSub r pSubItem a with
    | none => (false, a)
    | some s => arrangeLoop r pSubItem n (a.put s)

def arrange (r : MixBase) (pSubItem : List MixItem) (pCountList : Nat → Nat) : Bool × Arrangement :=
  arrangeLoop r pSubItem pSubItem.length ⟨fun _ => false, pCountList, []⟩

/-- The checks after the arrangement: of the main material and then slot by slot. -/
def postSlots (r : MixBase) (main : Option MixItem) (arranged : List MixItem) : List Nat → Option Bool
  | [] => some true
  | s :: ss =>
    match post_arrange_check_material_info (r.sub_material s) main arranged arranged[s]? with
    | none => none
    | some false => some false
    | some true => postSlots r main arranged ss

def postArrange (r : MixBase) (main : Option MixItem) (arranged : List MixItem) : Option Bool :=
  match post_arrange_check_material_info r.main_material main arranged main with
  | none => none
  | some false => some false
  | some true => postSlots r main arranged (List.range arranged.length)

/-! ## The search -/

/-- The recipe has as many sub materials, and its main material is met. -/
def tried (r : MixBase) (main : Option MixItem) (n : Nat) : Bool :=
  r.sub_material_cnt == (n : Int) && check_main_material r.main_material main

/-- The loop over the recipes, with the counts that the recipes before have left. -/
def searchMix (main : Option MixItem) (pSubItem : List MixItem) : List MixBase → (Nat → Nat) → Option (Option MixBase)
  | [], _ => some none
  | r :: rs, pCountList =>
    if tried r main pSubItem.length = false then searchMix main pSubItem rs pCountList
    else
      let a := arrange r pSubItem pCountList
      if a.1 = false then searchMix main pSubItem rs a.2.pCountList
      else
        match postArrange r main (a.2.pSubMaterialArrangeBuffer.filterMap fun s => pSubItem[s]?) with
        | none => none
        | some false => searchMix main pSubItem rs a.2.pCountList
        | some true => some (some r)

/-- The counts of a list of sub items. -/
def countsOf (subs : List (MixItem × Nat)) (s : Nat) : Nat := (subs[s]?).elim 0 Prod.snd

/-- `MixManager::GetProperMixInfo` with the table `m_vMixInfo`. -/
def getProperMixInfo (m_vMixInfo : List MixBase) (main : Option MixItem) (subs : List (MixItem × Nat)) :
    Option (Option MixBase) := searchMix main (subs.map Prod.fst) m_vMixInfo (countsOf subs)

end MixManager

end RZEmulator.Chihiro
