import Mathlib.Data.Rat.Defs
import RZEmulator.Lib.SingleFloat

/-!
# Drop groups

`GameContent::SelectItemIDFromDropGroup` and the loops that expand a group with it: `Monster::procDropItem` with `dropItemGroup`
and `dropItem`, and the item part of `GENERATE_ITEM` in `Unit::onItemUseEffect`. The random draws are a stream that is read from
some position on, and a loop that does not end within its fuel has no result. The levels of the dropped items are left out.
-/

namespace RZEmulator.Chihiro

open Lib
open SingleFloat (rounded)

def MAX_DROP_GROUP : Nat := 10

/-- The percentages are integers, which the loader puts into an array of floats. -/
structure DropGroup where
  uid : Int
  drop_item_id : Fin MAX_DROP_GROUP → Int
  drop_percentage : Fin MAX_DROP_GROUP → Int
  isFloat : ∀ i, IsFloat (drop_percentage i : ℚ)

structure DropTables where
  dropTemplateStore : List DropGroup
  hasItemBase : Int → Bool

/-- What `SelectItemIDFromDropGroup` returns and leaves in its references. -/
structure Selection where
  found : Bool
  nItemID : Int
  nItemCount : Int

namespace DropTables

variable (T : DropTables)

def getDropGroupInfo (drop_group_id : Int) : Option DropGroup := T.dropTemplateStore.find? fun dg => dg.uid == drop_group_id

/-- The loop over the entries: `cp` is an `int` to which a float is added. -/
def entryLoop (dg : DropGroup) (p : Int) : Int → List (Fin MAX_DROP_GROUP) → Option (Fin MAX_DROP_GROUP)
  | _, [] => none
  | cp, i :: is =>
    let cp := rounded (cp + dg.drop_percentage i)
    if p ≤ cp then
      if 0 < dg.drop_item_id i ∧ T.hasItemBase (dg.drop_item_id i) = false then entryLoop dg p cp is else some i
    else entryLoop dg p cp is

/-- The entry of a group that is selected by the draw. -/
def entryOf (dg : DropGroup) (p : Int) : Option (Fin MAX_DROP_GROUP) := T.entryLoop dg p 0 (List.finRange MAX_DROP_GROUP)

/-- `GameContent::SelectItemIDFromDropGroup`. -/
def selectItemIDFromDropGroup (nDropGroupID p : Int) : Selection :=
  match (T.getDropGroupInfo nDropGroupID).bind fun dg => (T.entryOf dg p).map dg.drop_item_id with
  | none => ⟨false, 0, 1⟩
  | some nItemID => ⟨true, nItemID, 1⟩

/-! ## The loops -/

variable (draws : Nat → Int)

/-- `while (nItemID < 0)`: the item with its count and the position in the draws. -/
def expand : Nat → Int → Int → Nat → Option (Int × Int × Nat)
  | 0, _, _, _ => none
  | fuel + 1, nItemID, nItemCount, k =>
    if nItemID < 0 then
      let s := T.selectItemIDFromDropGroup nItemID (draws k)
      expand fuel s.nItemID s.nItemCount (k + 1)
    else some (nItemID, nItemCount, k)

/-- `do .. while (nItemID < 0)`. -/
def expandOnce (fuel : Nat) (nItemID : Int) (k : Nat) : Option (Int × Int × Nat) :=
  let s := T.selectItemIDFromDropGroup nItemID (draws k)
  T.expand draws fuel s.nItemID s.nItemCount (k + 1)

/-- The insertion into `mapDropItem`. -/
def merge (nItemID nItemCount : Int) : List (Int × Int) → List (Int × Int)
  | [] => [(nItemID, nItemCount)]
  | x :: m =>
    if nItemID = x.1 then (x.1, x.2 + nItemCount) :: m
    else if nItemID < x.1 then (nItemID, nItemCount) :: x :: m
    else x :: merge nItemID nItemCount m

/-- The loop of `dropItemGroup` over the units of the entry. -/
def groupLoop (fuel : Nat) (nDropGroupID : Int) : Nat → Nat → List (Int × Int) → Option (List (Int × Int) × Nat)
  | 0, k, mapDropItem => some (mapDropItem, k)
  | n + 1, k, mapDropItem =>
    match T.expandOnce draws fuel nDropGroupID k with
    | none => none
    | some (nItemID, nItemCount, k) =>
      groupLoop fuel nDropGroupID n k (if 0 < nItemID then merge nItemID nItemCount mapDropItem else mapDropItem)

/-- `Monster::dropItem`: the item that comes to the world, if there is a player to drop it for. -/
def dropItem (hasPlayer : Bool) (code count : Int) : List (Int × Int) :=
  if count = 0 then []
  else if hasPlayer && T.hasItemBase code then [(code, count)] else []

/-- `Monster::dropItemGroup`. -/
def dropItemGroup (fuel : Nat) (hasPlayer : Bool) (nDropGroupID count : Int) (k : Nat) : Option (List (Int × Int) × Nat) :=
  (T.groupLoop draws fuel nDropGroupID count.toNat k []).map fun x => (x.1.flatMap fun drop => T.dropItem hasPlayer drop.1 drop.2, x.2)

/-- An entry of the drop table of a monster, with what `checkDrop` answers for it and the count that is drawn. -/
structure MonsterDrop where
  drop_item_id : Int
  drop_min_count : Int
  checkDrop : Bool
  item_count : Int

/-- An entry in the loop of `procDropItem`. -/
def procEntry (fuel : Nat) (hasPlayer : Bool) (e : MonsterDrop) (k : Nat) : Option (List (Int × Int) × Nat) :=
  if e.drop_item_id ≠ 0 ∧ e.checkDrop = true then
    if e.item_count < e.drop_min_count then some ([], k)
    else if 0 ≤ e.drop_item_id then some (T.dropItem hasPlayer e.drop_item_id e.item_count, k)
    else T.dropItemGroup draws fuel hasPlayer e.drop_item_id e.item_count k
  else some ([], k)

/-- `Monster::procDropItem`: what is dropped for each of the entries. -/
def procDropItem (fuel : Nat) (hasPlayer : Bool) : List MonsterDrop → Nat → Option (List (List (Int × Int)))
  | [], _ => some []
  | e :: es, k =>
    match T.procEntry draws fuel hasPlayer e k with
    | none => none
    | some (drops, k) => (procDropItem fuel hasPlayer es k).map (drops :: ·)

/-- The conversion of a float to an integer. -/
def truncated (x : ℚ) : Int := x.num.tdiv x.den

theorem truncated_intCast (n : Int) : truncated (n : ℚ) = n := by
  unfold truncated
  rw [Rat.num_intCast, Rat.den_intCast]
  exact Int.tdiv_one n

/-- The loop of `GENERATE_ITEM`, for the times that are left. -/
def generateLoop (fuel : Nat) (var1 var2 : ℚ) : Nat → Nat → Option (List (Int × Int))
  | 0, _ => some []
  | n + 1, k =>
    match T.expand draws fuel (truncated var1) (truncated var2) k with
    | none => none
    | some (nItemID, nItemCount, k) =>
      (generateLoop fuel var1 var2 n k).map fun items => if nItemID ≠ 0 then (nItemID, nItemCount) :: items else items

/-- `GENERATE_ITEM` where `var1` is not 0: the items that are allocated. -/
def generateItems (fuel : Nat) (var1 var2 : ℚ) (k : Nat) : Option (List (Int × Int)) :=
  T.generateLoop draws fuel var1 var2 (if 0 ≤ var1 then 1 else (truncated var2).toNat) k

end DropTables

end RZEmulator.Chihiro
