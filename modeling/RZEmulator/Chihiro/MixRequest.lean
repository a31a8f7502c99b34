import Mathlib.Logic.Function.Basic
import RZEmulator.Chihiro.Enhance
import RZEmulator.Chihiro.MixSearch

/-!
# Mix requests

`WorldSession::onMixRequest` with `EnhanceItem`, `EnhanceSkillCard`, `MixItem` and `RepairItem`, as far as they remove items and
change them. An item is in the inventory when it has units there. An item that is erased without being there, a null pointer and
an index that is not there end the process and are `none`.
-/

namespace RZEmulator.Chihiro

namespace MixBase

def MIX_ENHANCE : Int := 101
def MIX_ENHANCE_SKILL_CARD : Int := 102
def MIX_ENHANCE_WITHOUT_FAIL : Int := 103
def MIX_ADD_LEVEL_SET_FLAG : Int := 311
def MIX_RESTORE_ENHANCE_SET_FLAG : Int := 501

end MixBase

/-- An item with what the checks of a request read: whether its base is a cube, whether its status flag keeps it from being
mixed, and whether `IsErasable` holds of it where it is in the inventory. -/
structure MixObject extends MixItem where
  isCube : Bool := false
  barred : Bool := false
  erasable : Bool := true

/-- The items in the world, and the units of them in the inventory of the player. -/
structure MixState where
  pool : Nat → Option MixObject
  units : Nat → Nat

structure MixTables where
  recipes : List MixBase
  enhanceInfo : Int → Option EnhanceInfo

/-- `TS_CS_MIX`: the main item, and the sub items with their counts. -/
structure MixRequest where
  main_item : Nat
  sub_items : List (Nat × Nat)

/-- The draws of a mix, and the fuel for the loop over the sockets. -/
structure MixDraws where
  increase : Int
  draw : Nat
  fuel : Nat

namespace MixManager

/-- The search of `GetProperMixInfo`, with the counts that it leaves. -/
def matchMix (main : Option MixItem) (pSubItem : List MixItem) :
    List MixBase → (Nat → Nat) → Option (Option (MixBase × (Nat → Nat)))
  | [], _ => some none
  | r :: rs, pCountList =>
    if tried r main pSubItem.length = false then matchMix main pSubItem rs pCountList
    else
      let a := arrange r pSubItem pCountList
      if a.1 = false then matchMix main pSubItem rs a.2.pCountList
      else
        match postArrange r main (a.2.pSubMaterialArrangeBuffer.filterMap fun s => pSubItem[s]?) with
        | none => none
        | some false => matchMix main pSubItem rs a.2.pCountList
        | some true => some (some (r, a.2.pCountList))

/-- The main skill card, the other one and the cube that `EnhanceSkillCard` picks. -/
def pickCards : List (Nat × MixObject) → Option (Nat × MixObject) → Option (Nat × MixObject) → Option (Nat × MixObject) →
    Option (Nat × MixObject) × Option (Nat × MixObject) × Option (Nat × MixObject)
  | [], skillCardMain, skillCardSec, skillCube => (skillCardMain, skillCardSec, skillCube)
  | x :: xs, skillCardMain, skillCardSec, skillCube =>
    if x.2.group = 10 then
      match skillCardMain with
      | none => pickCards xs (some x) skillCardSec skillCube
      | some m => pickCards xs (some m) (some x) skillCube
    else if x.2.group = 23 then pickCards xs skillCardMain skillCardSec (some x)
    else pickCards xs skillCardMain skillCardSec skillCube

/-- The cube and, with protection, the powder that `EnhanceItem` erases; `none` where a sub item it reads is not there. -/
def enhanceUses (type : EnhanceType) : List (Nat × MixObject) → Option (List Nat)
  | [] => none
  | [x] => if type = .MIX_ENHANCE then some [x.1] else none
  | x :: y :: _ => if type = .MIX_ENHANCE then some [x.1] else some (if x.2.isCube then [x.1, y.1] else [y.1, x.1])

end MixManager

namespace MixState

open MixBase MixManager

variable (s : MixState)

/-- `check_mixable_item`. -/
def check_mixable_item (hItem nItemCount : Nat) : Option MixObject :=
  match s.pool hItem with
  | none => none
  | some retItem =>
    if s.units hItem < nItemCount then none
    else if retItem.barred then none
    else if s.units hItem = 0 ∨ retItem.erasable = false then none
    else some retItem

/-- The loop over the sub items of a request. -/
def checkSubItems : List (Nat × Nat) → Option (List (Nat × MixObject))
  | [] => some []
  | mixInfo :: infos =>
    match s.check_mixable_item mixInfo.1 mixInfo.2 with
    | none => none
    | some item => (checkSubItems infos).map ((mixInfo.1, item) :: ·)

def eraseItem (h count : Nat) : Option MixState :=
  if s.units h = 0 then none else some { s with units := Function.update s.units h (s.units h - count) }

def eraseItems : MixState → List (Nat × Nat) → Option MixState
  | s, [] => some s
  | s, x :: xs =>
    match s.eraseItem x.1 x.2 with
    | none => none
    | some s' => s'.eraseItems xs

def changeItem (h : Nat) (f : MixObject → MixObject) : MixState :=
  { s with pool := Function.update s.pool h ((s.pool h).map f) }

/-- `EnhanceItem`. -/
def enhanceItem (tables : MixTables) (type : EnhanceType) (r : MixBase) (main : Nat × MixObject) (subs : List (Nat × MixObject))
    (d : MixDraws) : Option MixState :=
  match tables.enhanceInfo (r.value 0) with
  | none => some s
  | some pInfo =>
    match enhanceUses type subs with
    | none => none
    | some uses =>
      match MixManager.enhanceItem d.fuel type pInfo main.2.nEnhance (subs.map fun x => ⟨x.2.code, x.2.isCube⟩) d.increase d.draw with
      | none => none
      | some .refused => some s
      | some .outOfTable => none
      | some (.level n) => (s.eraseItems (uses.map (·, 1))).map fun s' => s'.changeItem main.1 fun x => { x with nEnhance := n }
      | some .erased => (s.eraseItems (uses.map (·, 1))).bind fun s' => s'.eraseItem main.1 1

/-- `EnhanceSkillCard`. -/
def enhanceSkillCard (tables : MixTables) (r : MixBase) (subs : List (Nat × MixObject)) (d : MixDraws) : Option MixState :=
  if subs.length ≠ 3 then some s
  else
    match tables.enhanceInfo (r.value 0), pickCards subs none none none with
    | some pInfo, (some m, some sec, skillCube) =>
      match MixManager.enhanceSkillCard pInfo ⟨m.2.code, m.2.nEnhance⟩ (some ⟨sec.2.code, sec.2.nEnhance⟩) d.draw, skillCube with
      | .refused, _ => some s
      | _, none => none
      | .outOfTable, _ => none
      | .erased, some cube => s.eraseItems [(cube.1, 1), (m.1, 1), (sec.1, 1)]
      | .level n, some cube =>
        (s.eraseItems [(cube.1, 1), (sec.1, 1)]).map fun s' => s'.changeItem m.1 fun x => { x with nEnhance := n }
    | _, _ => some s

/-- The sub items with the counts that the search has left. -/
def erasedBy (subs : List (Nat × MixObject)) (pCountList : Nat → Nat) : List (Nat × Nat) :=
  (subs.map Prod.fst).zipIdx.map fun x => (x.1, pCountList x.2)

/-- `MixItem`. -/
def mixItem (r : MixBase) (main : Nat × MixObject) (subs : List (Nat × MixObject)) (pCountList : Nat → Nat) : Option MixState :=
  (s.eraseItems (erasedBy subs pCountList)).map fun s' => s'.changeItem main.1 fun x => { x with Flag := (r.value 2 % 2 ^ 32).toNat }

/-- `RepairItem`. -/
def repairItem (main : Nat × MixObject) (subs : List (Nat × MixObject)) (pCountList : Nat → Nat) : Option MixState :=
  if main.2.Flag = 0x08 then
    (s.eraseItems (erasedBy subs pCountList)).map fun s' => s'.changeItem main.1 fun x => { x with Flag := 0x00 }
  else some s

/-- The branches of `onMixRequest`, when the recipe `r` has been found. -/
def mixBy (tables : MixTables) (r : MixBase) (main : Option (Nat × MixObject)) (subs : List (Nat × MixObject))
    (pCountList : Nat → Nat) (d : MixDraws) : Option MixState :=
  if r.type = MIX_ENHANCE_SKILL_CARD then s.enhanceSkillCard tables r subs d
  else
    match main with
    | none => some s
    | some x =>
      if r.type = MIX_ENHANCE then s.enhanceItem tables .MIX_ENHANCE r x subs d
      else if r.type = MIX_ENHANCE_WITHOUT_FAIL then s.enhanceItem tables .MIX_ENHANCE_WITHOUT_FAIL r x subs d
      else if r.type = MIX_ADD_LEVEL_SET_FLAG then s.mixItem r x subs pCountList
      else if r.type = MIX_RESTORE_ENHANCE_SET_FLAG then s.repairItem x subs pCountList
      else some s

/-- The items of a request, when the checks of all of them are passed. -/
def itemsOf (pct : MixRequest) : Option (Option (Nat × MixObject) × List (Nat × MixObject)) :=
  if pct.sub_items.length > 9 then none
  else
    let pMainItem := s.check_mixable_item pct.main_item 1
    if pct.main_item ≠ 0 ∧ pMainItem.isNone then none
    else (s.checkSubItems pct.sub_items).map fun subs => (pMainItem.map fun x => (pct.main_item, x), subs)

/-- `GetProperMixInfo` for the items of a request. -/
def matchedBy (tables : MixTables) (pct : MixRequest) (main : Option (Nat × MixObject)) (subs : List (Nat × MixObject)) :
    Option (Option (MixBase × (Nat → Nat))) :=
  matchMix (main.map fun x => x.2.toMixItem) (subs.map fun x => x.2.toMixItem) tables.recipes
    fun i => (pct.sub_items[i]?).elim 0 Prod.snd

/-- `WorldSession::onMixRequest`. -/
def onMixRequest (tables : MixTables) (pct : MixRequest) (d : MixDraws) : Option MixState :=
  match s.itemsOf pct with
  | none => some s
  | some (main, subs) =>
    match matchedBy tables pct main subs with
    | none => none
    | some none => some s
    | some (some (r, pCountList)) => s.mixBy tables r main subs pCountList d

end MixState

end RZEmulator.Chihiro
