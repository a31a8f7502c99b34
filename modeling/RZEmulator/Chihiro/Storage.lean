import RZEmulator.Chihiro.Claims

/-!
# The storage of a player

`WorldSession::onStorage` with the functions of `Player.cpp` it calls: gold and items go from the inventory
to the storage and back. The checks of the two `Move...` functions are definitions of their own, since what
they let through is what has to go well. The messages a request is answered with are not modelled.
-/

namespace RZEmulator.Chihiro

inductive StorageMode
  | itemInventoryToStorage
  | itemStorageToInventory
  | goldInventoryToStorage
  | goldStorageToInventory
  | storageClose
  /-- A mode that `onStorage` has no case for. -/
  | other
  deriving DecidableEq, Repr

/-- `TS_CS_STORAGE`; `count` is a signed 64-bit number. -/
structure StoragePacket where
  mode : StorageMode
  item_handle : Handle := 0
  count : Int := 0

namespace World

/-! ## Gold -/

def setStorageGold (w : World) (h : Handle) (gold : Int) : World :=
  w.updPlayer h fun p => { p with nStorageGold := gold }

/-- `Player::ChangeStorageGold`. -/
def changeStorageGold (w : World) (h : Handle) (gold : Int) : ResultCode × World :=
  if (w.players h).nStorageGold ≠ gold then
    if gold > MAX_GOLD_FOR_STORAGE then (.tooMuchMoney, w)
    else if gold < 0 then (.tooCheap, w)
    else (.success, w.setStorageGold h gold)
  else (.success, w)

/-- The request `GOLD_INVENTORY_TO_STORAGE`. -/
def storeGold (w : World) (me : Handle) (count : Int) : Option World :=
  if (w.players me).nGold < count then some w
  else (Lib.add64 (w.players me).nStorageGold count).bind fun sum =>
    if sum > MAX_GOLD_FOR_STORAGE then some w
    else (Lib.add64 (w.players me).nGold (-count)).bind fun rest =>
      match w.changeGold me rest with
      | (.success, w) => (Lib.add64 (w.players me).nStorageGold count).map fun sum =>
          (w.changeStorageGold me sum).2
      | (_, w) => some w

/-- The request `GOLD_STORAGE_TO_INVENTORY`. -/
def fetchGold (w : World) (me : Handle) (count : Int) : Option World :=
  if (w.players me).nStorageGold < count then some w
  else (Lib.add64 (w.players me).nGold count).bind fun sum =>
    if sum > MAX_GOLD_FOR_INVENTORY then some w
    else (Lib.add64 (w.players me).nStorageGold (-count)).bind fun rest =>
      match w.changeStorageGold me rest with
      | (.success, w) => (Lib.add64 (w.players me).nGold count).map fun sum => (w.changeGold me sum).2
      | (_, w) => some w

/-! ## Items -/

/-- `SetIdx(IssueNewIndex())`, with an index of the inventory `r`. -/
def setNewIdx (w : World) (r : InvRef) (p : ItemPtr) : World :=
  (w.updInv r fun i => { i with nIndex := i.nIndex + 1 }).updItem p (·.setIdx ((w.inv r).nIndex + 1))

/-- A whole item goes from `r` to `r'`, under a new index. -/
def moveWhole (w : World) (r r' : InvRef) (p : ItemPtr) (count : Int) : Option World :=
  (w.pop r p count).bind fun (_, w) => ((w.setNewIdx r' p).push r' p count).map (·.2)

/-- Units of a stack go from `r` to `r'`, under a new index if `reindex` says so. The object that carried
them is freed where they have joined a stack. -/
def movePart (w : World) (r r' : InvRef) (p : ItemPtr) (count : Int) (reindex : Bool) : Option World :=
  (w.pop r p count).bind fun (divided, w) => divided.bind fun x =>
    ((if reindex then w.setNewIdx r' x else w).push r' x count).map fun (q, w) =>
      if q ≠ x then w.updItem x (·.pendFreeItem) else w

/-- `Player::IsTakeable`; both of its branches compare the weight of the whole stack. -/
def isTakeable (w : World) (h : Handle) (handle : Handle) : Option Bool :=
  match w.itemPool handle with
  | none => some false
  | some p =>
    if (w.items p).isQuestItem ∧ ¬(w.players h).isTakeableQuestItem (w.items p).inst.Code ∧
        ¬(w.items p).isInStorage then some false
    else (w.items p).getWeight.map fun weight =>
      decide (weight + (w.players h).nWeight ≤ (w.players h).nMaxWeight)

/-- The checks of `MoveStorageToInventory`. `IsValid` is a pair of assertions. -/
def canFetch (w : World) (h : Handle) (p : ItemPtr) (count : Int) : Option Bool :=
  if ¬(w.players h).bIsUsingStorage then some false
  else if ¬(w.items p).isInStorage then some false
  else if ¬w.check (locker h) p then none
  else if (w.items p).nAccountID ≠ (w.players h).accountId then some false
  else if (w.items p).inst.nCount < count then some false
  else if ¬(w.items p).isJoinable ∧ (w.items p).inst.nCount ≠ count then some false
  else w.isTakeable h (w.items p).handle

/-- `Player::MoveStorageToInventory`. -/
def moveStorageToInventory (w : World) (h : Handle) (p : ItemPtr) (count : Int) : Option (Bool × World) :=
  (w.canFetch h p count).bind fun can =>
    if ¬can then some (false, w)
    else if ¬(w.items p).isJoinable then (w.moveWhole (locker h) (bag h) p count).map fun w => (true, w)
    else (w.movePart (locker h) (bag h) p count false).map fun w => (true, w)

/-- The checks of `MoveInventoryToStorage`. -/
def canStore (w : World) (h : Handle) (p : ItemPtr) (count : Int) : Option Bool :=
  (w.isErasable h p).bind fun erasable =>
    if ¬erasable then some false
    else (w.items p).itemBase.map fun base =>
      decide (base.flaglist .storage = 0 ∧ (w.items p).isTaming = false ∧
        (w.players h).bIsUsingStorage = true ∧ count ≤ (w.items p).inst.nCount ∧
        ((w.items p).isJoinable = true ∨ (w.items p).inst.nCount = count))

/-- `Player::MoveInventoryToStorage`. -/
def moveInventoryToStorage (w : World) (h : Handle) (p : ItemPtr) (count : Int) : Option (Bool × World) :=
  (w.canStore h p count).bind fun can =>
    if ¬can then some (false, w)
    else if ¬(w.items p).isJoinable then (w.moveWhole (bag h) (locker h) p count).map fun w => (true, w)
    else (w.movePart (bag h) (locker h) p count true).map fun w => (true, w)

/-- A summon card in the belt, as `onStorage` looks for it. `ITEM_FLAG_EVENT` is a bit of the item's own flags,
but is used as an index into those of the template. -/
def isBeltCard (w : World) (me : Handle) (p : ItemPtr) : Option Bool :=
  (w.items p).itemBase.map fun base => decide (base.flaglist .secroute ≠ 0 ∧ (w.items p).hasSummon = true ∧
    ∃ i, (w.players me).aBindSummonCard i = some p)

/-- The item an item request is about: the handle is that of an item which says that it is the player's. -/
def storageItem (w : World) (me : Handle) (packet : StoragePacket) : Option ItemPtr :=
  if packet.count ≤ 0 then none
  else (w.itemPool packet.item_handle).filter fun p => (w.items p).inst.OwnerHandle = me

/-- The request `ITEM_INVENTORY_TO_STORAGE`. -/
def storeItem (w : World) (me : Handle) (packet : StoragePacket) : Option World :=
  match w.storageItem me packet with
  | none => some w
  | some p =>
    if (w.items p).isInInventory then
      (w.isBeltCard me p).bind fun belt =>
        if belt then some w else (w.moveInventoryToStorage me p packet.count).map (·.2)
    else some w

/-- The request `ITEM_STORAGE_TO_INVENTORY`. -/
def fetchItem (w : World) (me : Handle) (packet : StoragePacket) : Option World :=
  match w.storageItem me packet with
  | none => some w
  | some p =>
    if (w.items p).isInStorage then (w.moveStorageToInventory me p packet.count).map (·.2) else some w

/-! ## The handler -/

/-- `onStorage` turns the request down before it looks at its mode. -/
def storageBusy (w : World) (me : Handle) : Bool :=
  !(w.players me).bIsUsingStorage || (w.players me).isCasting ||
    (w.players me).trade.hTradeTarget != 0 || !(w.players me).isActable

/-- `WorldSession::onStorage`, for the session of the player `me`. -/
def onStorage (w : World) (me : Handle) (packet : StoragePacket) : Option World :=
  if w.storageBusy me then some w
  else
    match packet.mode with
    | .itemInventoryToStorage => w.storeItem me packet
    | .itemStorageToInventory => w.fetchItem me packet
    | .goldInventoryToStorage => w.storeGold me packet.count
    | .goldStorageToInventory => w.fetchGold me packet.count
    | .storageClose => some (w.updPlayer me fun p => { p with bIsUsingStorage := false })
    | .other => some w

end World

end RZEmulator.Chihiro
