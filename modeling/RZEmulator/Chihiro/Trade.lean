import RZEmulator.Chihiro.Player

/-!
# Trades between two players

The trade functions of `Player.cpp`: the window of one side (`StartTrade` to `ConfirmTrade`), the checks
that both sides have to pass, and `ProcessTrade`, which moves the gold and then the items. The gold of a
failed gold phase is given back; the items of a failed item phase are not.
-/

namespace RZEmulator.Chihiro

namespace TradeInfo

/-- `m_vTradeItemList[handle] = count`. -/
def assign (t : TradeInfo) (handle : Handle) (count : Int) : TradeInfo :=
  { t with
    vTradeItemList :=
      if t.vTradeItemList.any fun e => e.1 = handle then
        t.vTradeItemList.map fun e => if e.1 = handle then (handle, count) else e
      else t.vTradeItemList ++ [(handle, count)] }

/-- `m_vTradeItemList.erase(handle)`. -/
def remove (t : TradeInfo) (handle : Handle) : TradeInfo :=
  { t with vTradeItemList := t.vTradeItemList.filter fun e => e.1 ≠ handle }

end TradeInfo

namespace World

/-! ## One side of a trade -/

def tradeOf (w : World) (h : Handle) : TradeInfo := (w.players h).trade

def setTrade (w : World) (h : Handle) (t : TradeInfo) : World :=
  w.updPlayer h fun p => { p with trade := t }

/-- `Player::ClearTradeInfo`. -/
def clearTradeInfo (w : World) (h : Handle) : World := w.setTrade h {}

/-- `Player::CancelTrade`. -/
def cancelTrade (w : World) (h : Handle) : World := w.clearTradeInfo h

/-- `Player::StartTrade`. -/
def startTrade (w : World) (h target : Handle) : World :=
  if ¬(w.tradeOf h).bTrading ∧ ¬(w.tradeOf h).bTradeFreezed then
    w.setTrade h { bTrading := true, hTradeTarget := target }
  else w

/-- `Player::FreezeTrade`. -/
def freezeTrade (w : World) (h : Handle) : World :=
  w.setTrade h { w.tradeOf h with bTradeFreezed := true }

/-- `Player::ConfirmTrade`. -/
def confirmTrade (w : World) (h : Handle) : World :=
  w.setTrade h { w.tradeOf h with bTradeAccepted := true }

/-- `Player::AddGoldToTradeWindow`. -/
def addGoldToTradeWindow (w : World) (h : Handle) (gold : Int) : World :=
  if ¬(w.tradeOf h).bTradeFreezed then w.setTrade h { w.tradeOf h with nTradeGold := gold } else w

/-- `Player::AddItemToTradeWindow`, with a 32-bit count. -/
def addItemToTradeWindow (w : World) (h : Handle) (p : ItemPtr) (count : Int) : World :=
  if ¬(w.tradeOf h).bTradeFreezed ∧ count ≤ (w.items p).inst.nCount then
    w.setTrade h ((w.tradeOf h).assign (w.items p).handle count)
  else w

/-- `Player::RemoveItemFromTradeWindow`, with a 32-bit count. -/
def removeItemFromTradeWindow (w : World) (h : Handle) (p : ItemPtr) (count : Int) : World :=
  if ¬(w.tradeOf h).bTradeFreezed ∧ 1 ≤ count ∧
      (w.tradeOf h).vTradeItemList.any fun e => e.1 = (w.items p).handle then
    w.setTrade h ((w.tradeOf h).remove (w.items p).handle)
  else w

/-- `Player::GetTradeTarget`. -/
def getTradeTarget (w : World) (h : Handle) : Option Handle :=
  if (w.tradeOf h).hTradeTarget = 0 then none else w.findPlayer (w.tradeOf h).hTradeTarget

/-! ## The checks -/

/-- The loop of `CheckTradeWeight` over the table, from the weight `weight` on; no weight stands for the
return on an item that is not in the pool. -/
def tradeWeight (w : World) : List (Handle × Int) → ℚ → Option (Option ℚ)
  | [], weight => some (some weight)
  | (handle, count) :: es, weight =>
    match w.itemPool handle with
    | none => some none
    | some p => (w.items p).itemBase.bind fun base => w.tradeWeight es (weight + base.weight * count)

/-- `Player::CheckTradeWeight`; an item without a template is dereferenced. -/
def checkTradeWeight (w : World) (h : Handle) : Option Bool :=
  if ¬(w.tradeOf h).bTrading then some false
  else
    match w.getTradeTarget h with
    | none => some false
    | some target => (w.tradeWeight (w.tradeOf h).vTradeItemList 0).map fun weight =>
        weight.any fun x => x ≤ (w.players target).nMaxWeight - (w.players target).nWeight

/-- `Player::CheckTradeItem`. -/
def checkTradeItem (w : World) (h : Handle) : Bool :=
  (w.tradeOf h).vTradeItemList.all fun e =>
    (w.itemPool e.1).any fun p => e.2 ≤ (w.items p).inst.nCount

/-! ## The exchange -/

/-- The transfer in `processTradeGold`: the giver pays, then the target is paid, and the giver gets its
gold back if one of the two fails. -/
def payTradeGold (w : World) (h target : Handle) (gold : Int) : Option (ResultCode × World) :=
  (Lib.add64 (w.players h).nGold (-gold)).bind fun rest =>
    match w.changeGold h rest with
    | (.success, w₁) =>
      (Lib.add64 (w₁.players target).nGold gold).map fun sum =>
        match w₁.changeGold target sum with
        | (.success, w₂) => (.success, w₂)
        | (_, w₂) => (.tooMuchMoney, (w₂.changeGold h (w.players h).nGold).2)
    | (_, w₁) => some (.tooMuchMoney, (w₁.changeGold h (w.players h).nGold).2)

/-- `Player::processTradeGold`. -/
def processTradeGold (w : World) (h : Handle) : Option (ResultCode × World) :=
  if ¬(w.tradeOf h).bTrading ∨ ¬(w.tradeOf h).bTradeFreezed then some (.notActable, w)
  else
    match w.getTradeTarget h with
    | none => some (.notExist, w)
    | some target =>
      if ¬(w.players h).inWorld then some (.notExist, w)
      else if (w.tradeOf h).nTradeGold = 0 then some (.success, w)
      else if (w.tradeOf h).nTradeGold < 0 then some (.accessDenied, w)
      else w.payTradeGold h target (w.tradeOf h).nTradeGold

/-- The loop of `processTradeItem`. -/
def giveItems (w : World) (h target : Handle) : List (Handle × Int) → Option (ResultCode × World)
  | [] => some (.success, w)
  | (handle, count) :: es => (w.giveItem h target handle count).bind fun (given, w) =>
      if given then w.giveItems h target es else some (.accessDenied, w)

/-- `Player::processTradeItem`. -/
def processTradeItem (w : World) (h : Handle) : Option (ResultCode × World) :=
  match w.getTradeTarget h with
  | none => some (.notExist, w)
  | some target =>
    if ¬(w.players h).inWorld then some (.notExist, w)
    else w.giveItems h target (w.tradeOf h).vTradeItemList

/-- The gold phase of `ProcessTrade` failed: both sides get their gold back, the target only if that
worked for the player. -/
def restoreGold (w : World) (h target : Handle) (gold targetGold : Int) : World :=
  match w.changeGold h gold with
  | (.success, w) => (w.changeGold target targetGold).2
  | (_, w) => w

/-- The gold phase of `ProcessTrade`: both sides pay, or nobody does. -/
def exchangeGold (w : World) (h target : Handle) : Option (Bool × World) :=
  (w.processTradeGold h).bind fun (result, w₁) =>
    if result ≠ .success then
      some (false, w₁.restoreGold h target (w.players h).nGold (w.players target).nGold)
    else (w₁.processTradeGold target).map fun (result, w₂) =>
      if result ≠ .success then
        (false, w₂.restoreGold h target (w.players h).nGold (w.players target).nGold)
      else (true, w₂)

/-- The item phase of `ProcessTrade`. -/
def exchangeItems (w : World) (h target : Handle) : Option (Bool × World) :=
  (w.processTradeItem h).bind fun (result, w) =>
    if result ≠ .success then some (false, w)
    else (w.processTradeItem target).map fun (result, w) =>
      if result ≠ .success then (false, w)
      else (true, (w.clearTradeInfo h).clearTradeInfo target)

/-- `Player::ProcessTrade`. -/
def processTrade (w : World) (h : Handle) : Option (Bool × World) :=
  if (w.tradeOf h).bTrading ∧ (w.tradeOf h).bTradeFreezed then
    match w.getTradeTarget h with
    | none => some (false, w)
    | some target => (w.exchangeGold h target).bind fun (paid, w) =>
        if paid then w.exchangeItems h target else some (false, w)
  else some (false, w)

end World

end RZEmulator.Chihiro
