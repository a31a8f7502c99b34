import RZEmulator.Chihiro.Trade
import RZEmulator.Lib.Run

/-!
# Trade messages

The handlers of `TS_TRADE` in `WorldSession.cpp`, for the session of the player `me`, and the system in
which any number of players send them in any order, move in between, and are changed by the other
handlers of the game server in whatever way those do. No other handler touches a trade: a player who
enters the world has not traded yet, and that of a player who stays is what it was, up to the order in
which the hash table of a window is visited.

The messages a handler sends are not modelled, so a request and its rejection do nothing.
-/

namespace RZEmulator.Chihiro

inductive TradeMode
  | requestTrade
  | acceptTrade
  | cancelTrade
  | rejectTrade
  | addItem
  | removeItem
  | addGold
  | freezeTrade
  | confirmTrade
  /-- A mode that `onTrade` has no case for. -/
  | other
  deriving DecidableEq, Repr

/-- `TS_TRADE`; `count` is the signed 64-bit count of the item information. -/
structure TradePacket where
  mode : TradeMode
  target_player : Handle
  handle : Handle := 0
  count : Int := 0

namespace World

/-! ## The handlers -/

/-- `WorldSession::isValidTradeTarget` on the player that the handle names. The distance is compared
squared. -/
def isValidTradeTarget (w : World) (me target : Handle) : Bool :=
  w.playerPool target && (w.players target).inWorld &&
    decide (0 ≤ w.mapRegionSize ∧
      ((w.players target).x - (w.players me).x) ^ 2 + ((w.players target).y - (w.players me).y) ^ 2 ≤
        w.mapRegionSize ^ 2)

def cancelBoth (w : World) (me target : Handle) : World := (w.cancelTrade me).cancelTrade target

def onAcceptTrade (w : World) (me target : Handle) : World :=
  if ¬w.isValidTradeTarget me target then w
  else if (w.tradeOf me).bTrading ∨ (w.tradeOf target).bTrading ∨ (w.players me).hTamingTarget ≠ 0 ∨
      (w.players target).hTamingTarget ≠ 0 then w
  else (w.startTrade me target).startTrade target me

def onCancelTrade (w : World) (me : Handle) : World :=
  if ¬(w.tradeOf me).bTrading then w
  else
    match w.getTradeTarget me with
    | none => w.cancelTrade me
    | some target => (w.cancelTrade target).cancelTrade me

def onAddItem (w : World) (me : Handle) (packet : TradePacket) : Option World :=
  if ¬w.isValidTradeTarget me packet.target_player then some w
  else if (w.tradeOf me).bTradeFreezed then some w
  else
    match w.findItemByHandle me packet.handle with
    | none => some w
    | some p =>
      if (w.items p).itemBase.isNone then some w
      else if packet.count ≤ 0 ∨ packet.count > (w.items p).inst.nCount then some w
      else (w.isTradable me p).map fun tradable =>
        if tradable then w.addItemToTradeWindow me p (Lib.narrow32 packet.count) else w

def onRemoveItem (w : World) (me : Handle) (packet : TradePacket) : World :=
  if ¬w.isValidTradeTarget me packet.target_player then w.cancelTrade me
  else if (w.tradeOf me).bTradeFreezed then w
  else
    match w.findItemByHandle me packet.handle with
    | none => w
    | some p =>
      if (w.items p).itemBase.isNone then w
      else w.removeItemFromTradeWindow me p (Lib.narrow32 packet.count)

def onAddGold (w : World) (me : Handle) (packet : TradePacket) : World :=
  if ¬(w.tradeOf me).bTradeFreezed then
    if ¬w.isValidTradeTarget me packet.target_player then w
    else if packet.count ≤ 0 then w
    else w.addGoldToTradeWindow me packet.count
  else w.cancelTrade me

def onFreezeTrade (w : World) (me : Handle) : World :=
  match w.getTradeTarget me with
  | none => w.cancelTrade me
  | some _ => w.freezeTrade me

/-- The first check of `onConfirmTrade`. -/
def tradeReady (w : World) (me target : Handle) : Bool :=
  (w.tradeOf me).bTrading && (w.tradeOf target).bTrading && (w.tradeOf me).bTradeFreezed &&
    (w.tradeOf target).bTradeFreezed && w.getTradeTarget target == some me

/-- Both sides can carry what they are to get. -/
def tradeIsLight (w : World) (me target : Handle) : Option Bool :=
  (w.checkTradeWeight me).bind fun light => if light then w.checkTradeWeight target else some false

/-- The checks of `onConfirmTrade` once both sides have accepted: may `ProcessTrade` be called? -/
def tradePasses (w : World) (me target : Handle) : Option Bool :=
  (w.tradeIsLight me target).bind fun light =>
    if ¬light ∨ ¬w.checkTradeItem me ∨ ¬w.checkTradeItem target then some false
    else (Lib.add64 (w.players me).nGold (w.tradeOf target).nTradeGold).bind fun tradeGold =>
      (Lib.add64 (w.players target).nGold (w.tradeOf me).nTradeGold).map fun tradeTargetGold =>
        decide (¬(tradeGold > MAX_GOLD_FOR_INVENTORY ∨ tradeTargetGold > MAX_GOLD_FOR_INVENTORY) ∧
          w.tradeReady me target ∧ w.getTradeTarget me = some target)

/-- `onConfirmTrade` after both sides have accepted. However it ends, the trade of both is cancelled. -/
def settleTrade (w : World) (me target : Handle) : Option World :=
  (w.tradePasses me target).bind fun passes =>
    if passes then (w.processTrade me).map fun r => r.2.cancelBoth me target
    else some (w.cancelBoth me target)

def onConfirmTrade (w : World) (me target : Handle) : Option World :=
  if ¬w.isValidTradeTarget me target then some w
  else if ¬w.tradeReady me target then some (w.cancelBoth me target)
  else if (w.tradeOf me).bTradeAccepted then some w
  else if ¬((w.confirmTrade me).tradeOf target).bTradeAccepted then some (w.confirmTrade me)
  else (w.confirmTrade me).settleTrade me target

/-- A trade message that names its sender cancels the trade of the sender and of the player whom the
sender has as a battle target; that one may not be a player any more, which is a null dereference. -/
def onSelfTrade (w : World) (me : Handle) : Option World :=
  if (w.players me).hBattleTarget ≠ 0 then
    (w.findPlayer (w.players me).hBattleTarget).map fun target =>
      (w.cancelTrade target).cancelTrade me
  else some (w.cancelTrade me)

/-- `WorldSession::onTrade`. -/
def onTrade (w : World) (me : Handle) (packet : TradePacket) : Option World :=
  if (w.players me).bIsUsingStorage then some w
  else if (w.players me).bIsMoving ∧ (w.players me).inWorld then some (w.cancelTrade me)
  else if packet.target_player = me then w.onSelfTrade me
  else
    match packet.mode with
    | .requestTrade => some w
    | .acceptTrade => some (w.onAcceptTrade me packet.target_player)
    | .cancelTrade => some (w.onCancelTrade me)
    | .rejectTrade => some w
    | .addItem => w.onAddItem me packet
    | .removeItem => some (w.onRemoveItem me packet)
    | .addGold => some (w.onAddGold me packet)
    | .freezeTrade => some (w.onFreezeTrade me)
    | .confirmTrade => w.onConfirmTrade me packet.target_player
    | .other => some w

/-! ## The system -/

/-- `onTrade` sets the sender's `m_bTradeAccepted`: a first confirmation, in a trade that is ready. -/
def accepts (w : World) (me : Handle) (packet : TradePacket) : Bool :=
  !(w.players me).bIsUsingStorage && !((w.players me).bIsMoving && (w.players me).inWorld) &&
    packet.target_player != me && packet.mode == .confirmTrade &&
    w.isValidTradeTarget me packet.target_player && w.tradeReady me packet.target_player &&
    !(w.tradeOf me).bTradeAccepted

/-- The world in which a confirmation makes `onConfirmTrade` call `ProcessTrade`, if it does. -/
def processCall (w : World) (me : Handle) (packet : TradePacket) : Option World :=
  if w.accepts me packet ∧ (w.tradeOf packet.target_player).bTradeAccepted ∧
      (w.confirmTrade me).tradePasses me packet.target_player = some true then
    some (w.confirmTrade me)
  else none

end World

/-- Two sides of a trade that differ in the order of their tables only. -/
structure TradeInfo.Same (t t' : TradeInfo) : Prop where
  bTrading : t'.bTrading = t.bTrading
  bTradeFreezed : t'.bTradeFreezed = t.bTradeFreezed
  bTradeAccepted : t'.bTradeAccepted = t.bTradeAccepted
  hTradeTarget : t'.hTradeTarget = t.hTradeTarget
  nTradeGold : t'.nTradeGold = t.nTradeGold
  vTradeItemList : t'.vTradeItemList.Perm t.vTradeItemList

/-- What the handlers that have nothing to do with trades may do to trades. No handle is given out
twice, and `0` never is. -/
structure World.KeepsTrades (w w' : World) : Prop where
  null : w'.playerPool 0 = false
  trades : ∀ h, w'.playerPool h = true →
    (w.playerPool h = true ∧ (w.tradeOf h).Same (w'.tradeOf h)) ∨
    (w.playerPool h = false ∧ w'.tradeOf h = {} ∧
      ∀ k, w.playerPool k = true → (w.tradeOf k).hTradeTarget ≠ h)

inductive TradeEvent
  | trade (me : Handle) (packet : TradePacket)
  /-- The player starts or stops moving. -/
  | move (me : Handle) (bIsMoving : Bool) (x y : ℚ)
  /-- Another handler makes the world `w`. -/
  | other (w : World)

def World.tradeStep (w : World) : TradeEvent → Option World
  | .trade me packet => if w.playerPool me then w.onTrade me packet else none
  | .move me bIsMoving x y =>
    if w.playerPool me then
      some (w.updPlayer me fun p => { p with bIsMoving := bIsMoving, x := x, y := y })
    else none
  | .other _ => none

/-- Players trade in worlds that are `Ok`; the other handlers keep them so. -/
def tradeSystem (Ok : World → Prop) : Lib.System World TradeEvent where
  Init w := Ok w ∧ w.playerPool 0 = false ∧ ∀ h, w.playerPool h = true → w.tradeOf h = {}
  Step w e w' :=
    match e with
    | .other w₁ => w' = w₁ ∧ Ok w₁ ∧ w.KeepsTrades w₁
    | e => w.tradeStep e = some w'

theorem World.step_of_tradeStep {Ok : World → Prop} {w w' : World} {e : TradeEvent}
    (hstep : w.tradeStep e = some w') : (tradeSystem Ok).Step w e w' := by
  cases e with
  | trade me packet => exact hstep
  | move me bIsMoving x y => exact hstep
  | other w₁ => cases hstep

end RZEmulator.Chihiro
