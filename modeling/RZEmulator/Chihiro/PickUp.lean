import RZEmulator.Chihiro.ItemIndexRun
import RZEmulator.Chihiro.PickupOrder
import RZEmulator.Lib.Share

/-!
# Taking an item up

`WorldSession::onTakeItem` with what it does to the goods: `procAddItem` for a player by himself, `procPartyShare` for an
item and a share for each member nearby for gold. The item leaves the world before anybody has it, and from then on no
failure is undone. `TakenRight` is what should happen, and `Takeable` when it does.
-/

namespace RZEmulator.Chihiro

open Lib

namespace ItemShareMode

def ITEM_SHARE_MONOPOLY : Int := 0
def ITEM_SHARE_RANDOM : Int := 1

end ItemShareMode

/-- What a party has to do with its members' goods. The mode is read from the database and may be any number. -/
structure SharingParty (N : Type) where
  eShareMode : Int
  vMemberNameList : List N

/-- What a request reads besides the goods: the time, distances, the items' drop times and pick-up orders, and the
parties. -/
structure PickUpScene (N : Type) (w : World) where
  ct : Nat
  isTooFar : Handle → ItemPtr → Bool
  m_nDropTime : ItemPtr → Nat
  m_pPickupOrder : ItemPtr → ItemPickupOrder
  partyID : Handle → Int
  getPartyInfo : Int → Option (SharingParty N)
  /-- `Player::FindPlayer`, which looks among the players in the pool. -/
  findPlayer : N → Option Handle
  findPlayer_pool : ∀ name h, findPlayer name = some h → w.playerPool h = true
  getExactDist2d : Handle → Handle → ℚ
  /-- What `irand(0, n - 1)` draws. -/
  irand : Nat → Nat
  irand_lt : ∀ n, 0 < n → irand n < n

namespace World

/-- The handle that `procAddItem` answers: of the stack that has taken the item in, or of the item. -/
def addedHandle (w : World) (p : ItemPtr) : Option ItemPtr → Handle
  | some q => if (w.items p).inst.Code ≠ 0 then (w.items q).handle else (w.items p).handle
  | none => (w.items p).handle

/-- `World::procAddItem` with its answer. -/
def procAddItemHandle (w : World) (h : Handle) (p : ItemPtr) : Option (Handle × World) :=
  (if (w.items p).inst.Code ≠ 0 then some true
    else (add64 (w.players h).nGold (w.items p).inst.nCount).map fun sum =>
      decide (sum < MAX_GOLD_FOR_INVENTORY)).bind fun room =>
    if room then
      ((w.updItem p (·.setIdx 0)).pushItem h p (w.items p).inst.nCount).map fun (o, w) =>
        (w.addedHandle p o, w.freeJoined p o)
    else some ((w.items p).handle, w)

/-- Each member in turn gets his share through `ChangeGold`, whose answer nobody looks at. -/
def shareGold (w : World) (incGold : Int) : List Handle → Option World
  | [] => some w
  | np :: vList => (add64 incGold (w.players np).nGold).bind fun nNewGold =>
      (w.changeGold np nNewGold).2.shareGold incGold vList

end World

namespace PickUpScene

variable {N : Type} {w : World} (S : PickUpScene N w)

def droppedItem (p : ItemPtr) : DroppedItem where
  OwnerHandle := (w.items p).inst.OwnerHandle
  isQuestItem := (w.items p).isQuestItem
  Code := (w.items p).inst.Code
  nCount := (w.items p).inst.nCount
  m_nDropTime := S.m_nDropTime p
  m_pPickupOrder := S.m_pPickupOrder p

def taker (h : Handle) (p : ItemPtr) : Taker where
  handle := h
  partyID := S.partyID h
  gold := (w.players h).nGold
  tooFar := S.isTooFar h p
  takesQuestItem := (w.players h).isTakeableQuestItem (w.items p).inst.Code

/-- `GroupManager::GetNearMember`. -/
def getNearMember (h : Handle) (distance : ℚ) : List Handle :=
  match S.getPartyInfo (S.partyID h) with
  | none => []
  | some info => (info.vMemberNameList.filterMap S.findPlayer).filter fun k => S.getExactDist2d k h ≤ distance

/-- `GroupManager::GetShareMode`. -/
def getShareMode (nPartyID : Int) : Int := ((S.getPartyInfo nPartyID).map (·.eShareMode)).getD 0

/-- The member nearby who is drawn; `irand` asserts that there is one. -/
def drawn (h : Handle) : Option Handle := (S.getNearMember h 500)[S.irand (S.getNearMember h 500).length]?

/-- `World::procPartyShare`. -/
def procPartyShare (h : Handle) (p : ItemPtr) : Option World :=
  if S.getShareMode (S.partyID h) = ItemShareMode.ITEM_SHARE_MONOPOLY then w.procAddItem h p
  else if S.getShareMode (S.partyID h) = ItemShareMode.ITEM_SHARE_RANDOM then
    (S.drawn h).bind fun k => w.procAddItem k p
  else some w

/-- The rest of `onTakeItem`, after the item has been removed from the world. -/
def bringIn (h : Handle) (p : ItemPtr) : Option (TakeAnswer × World) :=
  if S.partyID h ≠ 0 then
    if (w.items p).inst.Code ≠ 0 then (S.procPartyShare h p).map fun w => (.taken, w)
    else
      (w.shareGold (equalShare (w.items p).inst.nCount (S.getNearMember h 400).length) (S.getNearMember h 400)).map
        fun w => (.taken, w.updItem p (·.pendFreeItem))
  else
    (w.procAddItemHandle h p).map fun (nih, w) =>
      if nih ≠ 0 then (.taken, w) else (.accessDenied, w.updItem p (·.pendFreeItem))

end PickUpScene

/-- `WorldSession::onTakeItem`. -/
def Floor.onTakeItem {N : Type} (s : Floor) (S : PickUpScene N s.world) (h item_handle : Handle) :
    Option (TakeAnswer × Floor) :=
  match (s.world.itemPool item_handle).filter (· ∈ s.ground) with
  | none => some (.notExist, s)
  | some p =>
    match (S.taker h p).onTakeItem S.ct (some (S.droppedItem p)) with
    | .taken => (S.bringIn h p).map fun (answer, w) => (answer, ⟨w, s.ground.filter (· ≠ p)⟩)
    | .tooMuchMoney =>
      (add64 (s.world.players h).nGold (s.world.items p).inst.nCount).map fun _ => (.tooMuchMoney, s)
    | answer => some (answer, s)

/-! ## What should happen -/

namespace World

/-- What a player holds of an item code in his inventory; the code of gold is `0`. -/
def holding (code : Int) (w : World) (h : Handle) : Int :=
  if code = 0 then (w.players h).nGold else units code w (bag h)

/-- The gold of everybody. -/
def purses (w : World) (h : Handle) : Int := (w.players h).nGold

/-- The players in `T` have got `n` of `code` together, and nothing else has come or gone. -/
structure Received (w w' : World) (T : Finset Handle) (code n : Int) : Prop where
  together : ∑ h ∈ T, holding code w' h = ∑ h ∈ T, holding code w h + n
  others : ∀ h ∉ T, holding code w' h = holding code w h
  codes : ∀ c ≠ code, ∀ h, holding c w' h = holding c w h
  stored : ∀ c h, units c w' (locker h) = units c w (locker h)

/-- `PushItem` takes the item in: it does not name the player as its owner, it has a template, and a stack that it joins
can count it. -/
structure Accepts (w : World) (k : Handle) (p : ItemPtr) : Prop where
  foreign : (w.items p).inst.nOwnerUID % 2 ^ 32 ≠ (w.players k).uid
  based : (w.items p).itemBase.isSome
  fits : ∀ e, w.joinTarget (bag k) p = some e → IsInt64 ((w.items e).inst.nCount + (w.items p).inst.nCount)

/-- The player comes by the item, or is refused what counts nothing. -/
def ItemComes (w : World) (k : Handle) (p : ItemPtr) : Prop :=
  w.Accepts k p ∨ (w.items p).inst.nOwnerUID % 2 ^ 32 = (w.players k).uid ∧ (w.items p).inst.nCount = 0

/-- The purse takes the pile in, and is not full then. -/
structure PurseTakes (w : World) (k : Handle) (p : ItemPtr) : Prop where
  foreign : (w.items p).inst.nOwnerUID % 2 ^ 32 ≠ (w.players k).uid
  nonneg : 0 ≤ (w.players k).nGold + (w.items p).inst.nCount
  room : (w.players k).nGold + (w.items p).inst.nCount < MAX_GOLD_FOR_INVENTORY

end World

namespace TakeAnswer

/-- The answers that tell the player of an error. -/
def isError : TakeAnswer → Bool
  | .notExist | .tooFar | .accessDenied | .tooMuchMoney => true
  | .silent | .taken => false

end TakeAnswer

namespace PickUpScene

variable {N : Type} {w : World} (S : PickUpScene N w)

/-- Who may get it: the player himself, and in a party a member nearby or, for gold, all of them together. -/
def MayGet (h : Handle) (p : ItemPtr) (T : Finset Handle) : Prop :=
  if S.partyID h = 0 then T = {h}
  else if (w.items p).inst.Code = 0 then T = (S.getNearMember h 400).toFinset
  else ∃ k, T = {k} ∧ (k = h ∨ k ∈ S.getNearMember h 500)

/-- When all of it comes to somebody. -/
def Comes (h : Handle) (p : ItemPtr) : Prop :=
  if S.partyID h = 0 then
    if (w.items p).inst.Code = 0 then (w.items p).inst.nCount = 0 ∨ w.PurseTakes h p else w.ItemComes h p
  else if (w.items p).inst.Code = 0 then
    (w.items p).inst.nCount = 0 ∨
      Divides MAX_GOLD_FOR_INVENTORY (w.items p).inst.nCount (S.getNearMember h 400) w.purses
  else if S.getShareMode (S.partyID h) = ItemShareMode.ITEM_SHARE_MONOPOLY then w.ItemComes h p
  else if S.getShareMode (S.partyID h) = ItemShareMode.ITEM_SHARE_RANDOM then
    S.getNearMember h 500 ≠ [] ∧ ∀ k ∈ S.drawn h, w.ItemComes k p
  else (w.items p).inst.nCount = 0

end PickUpScene

/-- The claim for one request: an error that changes nothing, or the item is gone from the world and has been received. -/
def Floor.TakenRight {N : Type} (s : Floor) (S : PickUpScene N s.world) (h item_handle : Handle) : Prop :=
  ∃ answer s', s.onTakeItem S h item_handle = some (answer, s') ∧
    (answer.isError = true ∧ s' = s ∨
      ∃ p ∈ s.ground, s.world.itemPool item_handle = some p ∧ s'.ground = s.ground.filter (· ≠ p) ∧
        ∃ T, S.MayGet h p T ∧
          World.Received s.world s'.world T (s.world.items p).inst.Code (s.world.items p).inst.nCount)

/-- An item that is named names no owner, and if it passes the checks, all of it comes to somebody; a sum of gold that is
refused is a number of 64 bits. -/
def Floor.Takeable {N : Type} (s : Floor) (S : PickUpScene N s.world) (h item_handle : Handle) : Prop :=
  ∀ p ∈ s.ground, s.world.itemPool item_handle = some p → (s.world.items p).inst.OwnerHandle = 0 ∧
    match (S.taker h p).onTakeItem S.ct (some (S.droppedItem p)) with
    | .taken => S.Comes h p
    | .tooMuchMoney => IsInt64 ((s.world.players h).nGold + (s.world.items p).inst.nCount)
    | _ => True

end RZEmulator.Chihiro
