import Mathlib.Data.List.FinRange
import Mathlib.Logic.Function.Basic
import RZEmulator.Chihiro.World

/-!
# Soul stones

`WorldSession::onSoulStoneCraft` with `Player::EraseItem` and `Item::SetCurrentEndurance`. An item is an object that is in the
inventory or has been erased from it, by its handle. What makes two stones of a kind is compared as one value of a type `K`.
A lookup of an item base that is not there, an erased item that is erased again and a missing contact end the process and are
`none`.
-/

namespace RZEmulator.Chihiro

/-- What is read of an item base; its `kind` are the types and values that are compared. -/
structure StoneBase (K : Type) where
  socket : Int
  type : Int
  group : Int
  iclass : Int
  price : Int
  endurance : Int
  kind : K

structure CraftItem where
  code : Int
  count : Nat
  socket : Fin 4 → Int
  nCurrentEndurance : Int

/-- `TS_CS_SOULSTONE_CRAFT`. -/
structure SoulStoneRequest where
  craft_item_handle : Nat
  soulstone_handle : Fin 4 → Nat

/-- A player with the last contact `SoulStoneCraft`. -/
structure CraftState where
  gold : Int
  objects : Nat → CraftItem
  inventory : Nat → Bool
  contact : Option Nat

inductive CraftResult
  | NO_ANSWER
  | NOT_EXIST
  | ACCESS_DENIED
  | NOT_ACTABLE
  | ALREADY_EXIST
  | INVALID_ARGUMENT
  | NOT_ENOUGH_MONEY
  | SUCCESS
  deriving DecidableEq

def TYPE_SOULSTONE : Int := 7
def GROUP_SOULSTONE : Int := 93
def CLASS_SOULSTONE : Int := 401

/-- The sockets of an item with `nSocketCount` of them. -/
def socketsOf (nSocketCount : Int) : List (Fin 4) := (List.finRange 4).filter fun i => (i.val : Int) < nSocketCount

def maxReplicatableCount (nSocketCount : Int) : Nat := if nSocketCount = 4 then 2 else 1

namespace CraftState

variable {K : Type} [DecidableEq K]

/-! ## The checks -/

/-- The loop over the other sockets: whether too many stones of the kind are there. -/
def checkReplicas (itemBase : Int → Option (StoneBase K)) (socket : Fin 4 → Int) (kind : K) (nMax : Nat) (i : Fin 4) :
    Nat → List (Fin 4) → Option Bool
  | _, [] => some false
  | nReplicatedCount, k :: ks =>
    if socket k ≠ 0 ∧ k ≠ i then
      match itemBase (socket k) with
      | none => none
      | some ibs =>
        if ibs.kind = kind then
          if nReplicatedCount + 1 ≥ nMax then some true
          else checkReplicas itemBase socket kind nMax i (nReplicatedCount + 1) ks
        else checkReplicas itemBase socket kind nMax i nReplicatedCount ks
    else checkReplicas itemBase socket kind nMax i nReplicatedCount ks

/-- The checks for the socket `i`: what a stone that is given for it costs. -/
def checkStone (itemBase : Int → Option (StoneBase K)) (s : CraftState) (pct : SoulStoneRequest) (nSocketCount : Int) (i : Fin 4) :
    Option (Except CraftResult (Option Int)) :=
  let stone := s.objects (pct.soulstone_handle i)
  if pct.soulstone_handle i = 0 then some (.ok none)
  else if s.inventory (pct.soulstone_handle i) = false then some (.error .ACCESS_DENIED)
  else
    match itemBase stone.code with
    | none => none
    | some sb =>
      if sb.type ≠ TYPE_SOULSTONE ∨ sb.group ≠ GROUP_SOULSTONE ∨ sb.iclass ≠ CLASS_SOULSTONE then some (.error .NOT_ACTABLE)
      else
        match checkReplicas itemBase (s.objects pct.craft_item_handle).socket sb.kind (maxReplicatableCount nSocketCount) i 0
          (socketsOf nSocketCount) with
        | none => none
        | some true => some (.error .ALREADY_EXIST)
        | some false => some (.ok (some (sb.price.tdiv 10)))

/-- The loop of the checks, with `nCraftCost` and `bIsValid`. -/
def checkStones (itemBase : Int → Option (StoneBase K)) (s : CraftState) (pct : SoulStoneRequest) (nSocketCount : Int) :
    Int → Bool → List (Fin 4) → Option (Except CraftResult (Int × Bool))
  | nCraftCost, bIsValid, [] => some (.ok (nCraftCost, bIsValid))
  | nCraftCost, bIsValid, i :: is =>
    match checkStone itemBase s pct nSocketCount i with
    | none => none
    | some (.error r) => some (.error r)
    | some (.ok none) => checkStones itemBase s pct nSocketCount nCraftCost bIsValid is
    | some (.ok (some cost)) => checkStones itemBase s pct nSocketCount (nCraftCost + cost) true is

/-! ## The craft -/

/-- `ChangeGold` would succeed. -/
def goldChanges (s : CraftState) (n : Int) : Prop := n = s.gold ∨ n ≤ MAX_GOLD_FOR_INVENTORY ∧ 0 ≤ n

instance (s : CraftState) (n : Int) : Decidable (s.goldChanges n) := inferInstanceAs (Decidable (_ ∨ _))

/-- `pSoulStoneList` after the checks. -/
def given (pct : SoulStoneRequest) (nSocketCount : Int) (i : Fin 4) : Option Nat :=
  if (i.val : Int) < nSocketCount ∧ pct.soulstone_handle i ≠ 0 then some (pct.soulstone_handle i) else none

def updObject (s : CraftState) (h : Nat) (item : CraftItem) : CraftState :=
  { s with objects := Function.update s.objects h item }

/-- `EraseItem` of one unit. -/
def eraseItem (s : CraftState) (h : Nat) : Option CraftState :=
  if s.inventory h = false then none
  else if (s.objects h).count > 1 then
    some (s.updObject h { s.objects h with count := (s.objects h).count - 1 })
  else some { s with inventory := Function.update s.inventory h false }

/-- The stone `h` goes into the socket `i`, and one unit of it is erased. -/
def insertStone (s : CraftState) (craft : Nat) (i : Fin 4) (h : Nat) : Option CraftState :=
  (s.updObject craft
    { s.objects craft with socket := Function.update (s.objects craft).socket i (s.objects h).code }).eraseItem h

/-- The loop over the sockets, with `nEndurance`. -/
def insertStones (craft : Nat) (stones : Fin 4 → Option Nat) : Int → CraftState → List (Fin 4) → Option (CraftState × Int)
  | nEndurance, s, [] => some (s, nEndurance)
  | nEndurance, s, i :: is =>
    match stones i with
    | some h =>
      match s.insertStone craft i h with
      | none => none
      | some s' => insertStones craft stones (nEndurance + (s.objects h).nCurrentEndurance) s' is
    | none =>
      insertStones craft stones (if (s.objects craft).socket i ≠ 0 then nEndurance + (s.objects craft).nCurrentEndurance
        else nEndurance) s is

/-- The sum in `GetMaxEndurance`. -/
def socketEndurance (itemBase : Int → Option (StoneBase K)) (socket : Fin 4 → Int) : Int → List (Fin 4) → Option Int
  | total_endurance, [] => some total_endurance
  | total_endurance, i :: is =>
    if socket i ≠ 0 then
      match itemBase (socket i) with
      | none => none
      | some b => socketEndurance itemBase socket (total_endurance + b.endurance) is
    else socketEndurance itemBase socket total_endurance is

/-- `SetCurrentEndurance` of an item with sockets. -/
def setCurrentEndurance (itemBase : Int → Option (StoneBase K)) (base : StoneBase K) (s : CraftState) (craft : Nat) (n : Int) :
    Option CraftState :=
  match socketEndurance itemBase (s.objects craft).socket 0 (socketsOf base.socket) with
  | none => none
  | some total_endurance =>
    let maxendurance := if total_endurance ≠ 0 then total_endurance else base.endurance
    let n := if n > maxendurance then maxendurance else n
    some (s.updObject craft { s.objects craft with nCurrentEndurance := if n < 0 then 0 else n })

/-- What follows when the fee has been paid. -/
def craft (itemBase : Int → Option (StoneBase K)) (base : StoneBase K) (s : CraftState) (pct : SoulStoneRequest) : Option CraftState :=
  match insertStones pct.craft_item_handle (given pct base.socket) 0 s (List.finRange 4) with
  | none => none
  | some (s', nEndurance) =>
    match s'.setCurrentEndurance itemBase base pct.craft_item_handle nEndurance with
    | none => none
    | some s'' => some { s'' with contact := some 0 }

/-- `WorldSession::onSoulStoneCraft`. -/
def onSoulStoneCraft (itemBase : Int → Option (StoneBase K)) (s : CraftState) (pct : SoulStoneRequest) :
    Option (CraftResult × CraftState) :=
  match s.contact with
  | none => none
  | some 0 => some (.NO_ANSWER, s)
  | some (_ + 1) =>
    if s.inventory pct.craft_item_handle = false then some (.NOT_EXIST, s)
    else
      match itemBase (s.objects pct.craft_item_handle).code with
      | none => none
      | some base =>
        if base.socket < 1 ∨ base.socket > 4 then some (.ACCESS_DENIED, s)
        else
          match checkStones itemBase s pct base.socket 0 false (socketsOf base.socket) with
          | none => none
          | some (.error r) => some (r, s)
          | some (.ok (_, false)) => some (.INVALID_ARGUMENT, s)
          | some (.ok (nCraftCost, true)) =>
            if s.gold < nCraftCost ∨ ¬s.goldChanges (s.gold - nCraftCost) then some (.NOT_ENOUGH_MONEY, s)
            else ({ s with gold := s.gold - nCraftCost }.craft itemBase base pct).map fun s' => (.SUCCESS, s')

end CraftState

end RZEmulator.Chihiro
