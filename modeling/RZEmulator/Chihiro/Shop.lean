import RZEmulator.Chihiro.PickUpGoods
import RZEmulator.Chihiro.RuleTables
import RZEmulator.Chihiro.StorageRun
import RZEmulator.Lib.SingleFloat

/-!
# The shop of an NPC

`onBuyItem` and `onSellItem` with the market that the player was shown last. A purchase goes through all rows of the
market: every row of the code sells once more. The price of a row is a `float`, the product with the count is
rounded, and the charge is compared with the price once more after an integer division; `charge_spec` says what that
comparison lets through.

`Dealt` is the effect of a request on everybody's gold and goods. The null pointers that the handlers test are left
out, and so are the columns of a market and an item that neither request reads.
-/

namespace RZEmulator.Chihiro

open Lib

def GenerateCode.BY_MARKET : Int := 1

/-- A row of a market. The loader rounds the price down, so that it is a whole number, and a `float`. -/
structure MarketInfo where
  name : String
  code : Int
  price_ratio : Int
  isFloat : IsFloat (price_ratio : ℚ)

/-- The columns of `ItemTemplate` that only a sale reads. -/
structure PriceTag where
  price : Int
  rank : Int

structure TS_CS_BUY_ITEM where
  item_code : Int
  buy_count : Fin (2 ^ 16)

/-- The count has 16 bits in the version of the server. -/
structure TS_CS_SELL_ITEM where
  handle : Handle
  sell_count : Fin (2 ^ 16)

/-- `TS_SC_NPC_TRADE_INFO`. -/
structure NpcTrade where
  is_sell : Bool
  code : Int
  count : Int
  price : Int
  deriving DecidableEq

/-- The codes that `SendResult` is called with. -/
inductive ShopResult
  | unknown
  | notExist
  | notEnoughMoney
  | tooHeavy
  | tooMuchMoney
  | tooCheap
  | notActable
  | success
  deriving DecidableEq

/-- What the player is sent. -/
inductive ShopMessage
  | result (code : ShopResult) (value : Int)
  | trade (info : NpcTrade)
  deriving DecidableEq

namespace ShopMessage

def trade? : ShopMessage → Option NpcTrade
  | .result _ _ => none
  | .trade info => some info

end ShopMessage

/-- The body of the loop of `onBuyItem` goes on to the next row, or returns. -/
inductive BuyTurn
  | next (w : World) (buy_count : Int) (sent : List ShopMessage)
  | stop (w : World) (sent : List ShopMessage)

/-- `nTotalPrice`. A float that no `int32_t` holds has no conversion. -/
def totalPrice (buy_count price_ratio : Int) : Option Int :=
  if IsInt32 (SingleFloat.rounded (buy_count * price_ratio)) then
    some (SingleFloat.rounded (buy_count * price_ratio))
  else none

namespace World

/-! ## Buying -/

/-- A new item for a player. -/
def pushNew (w : World) (me : Handle) (code cnt count : Int) : Option World :=
  ((w.allocItem 0 code cnt GenerateCode.BY_MARKET).2.pushItem me w.nextItem count).map fun (pNewItem, w') =>
    w'.freeJoined w.nextItem pNewItem

/-- The loop for goods that come one by one. -/
def pushSingles (w : World) (me : Handle) (code count : Int) : Nat → Option World
  | 0 => some w
  | i + 1 => (w.pushNew me code 1 count).bind fun w => w.pushSingles me code count i

def pushGoods (w : World) (me : Handle) (bJoinable : Bool) (code buy_count : Int) : Option World :=
  if bJoinable then w.pushNew me code buy_count buy_count
  else w.pushSingles me code buy_count buy_count.toNat

/-- What is left of the body once the template is known. -/
def buyRow (w : World) (me : Handle) (mt : MarketInfo) (ibs : ItemTemplate) (bJoinable : Bool) (buy_count : Int) :
    Option BuyTurn :=
  (totalPrice buy_count mt.price_ratio).bind fun nTotalPrice =>
    if SingleFloat.rounded (nTotalPrice.tdiv buy_count) ≠ mt.price_ratio ∨ (w.players me).nGold < nTotalPrice ∨
        nTotalPrice < 0 then
      some (.stop w [.result .notEnoughMoney 0])
    else if (w.players me).nMaxWeight - (w.players me).nWeight < ibs.weight * buy_count then
      some (.stop w [.result .tooHeavy mt.code])
    else
      match w.changeGold me ((w.players me).nGold - nTotalPrice) with
      | (.success, w) => (w.pushGoods me bJoinable mt.code buy_count).map fun w =>
          .next w buy_count [.result .success mt.code, .trade ⟨false, mt.code, buy_count, nTotalPrice⟩]
      | (.tooMuchMoney, w) => some (.stop w [.result .tooMuchMoney 0])
      | (_, w) => some (.stop w [.result .tooCheap 0])

/-- The body of the loop. A row of another code and a code without a template are passed over. -/
def buyTurn (w : World) (me : Handle) (item_code : Int) (mt : MarketInfo) (buy_count : Int) : Option BuyTurn :=
  if mt.code = item_code then
    match w.itemBase item_code with
    | none => some (.next w buy_count [])
    | some ibs =>
      if ibs.flaglist .duplicate = 1 then w.buyRow me mt ibs true buy_count
      else w.buyRow me mt ibs false 1
  else some (.next w buy_count [])

def buyLoop (me : Handle) (item_code : Int) : List MarketInfo → World → Int → Option (World × List ShopMessage)
  | [], w, _ => some (w, [])
  | mt :: market, w, buy_count => (w.buyTurn me item_code mt buy_count).bind fun
    | .stop w sent => some (w, sent)
    | .next w buy_count sent => (buyLoop me item_code market w buy_count).map fun (w, more) => (w, sent ++ more)

/-- `WorldSession::onBuyItem`, with what `GetMarketInfo` finds for the last market. Without one the null pointer is
dereferenced. -/
def onBuyItem (w : World) (market : Option (List MarketInfo)) (me : Handle) (packet : TS_CS_BUY_ITEM) :
    Option (World × List ShopMessage) :=
  if packet.buy_count = 0 then some (w, [.result .unknown 0])
  else market.bind fun market =>
    if market.isEmpty then some (w, [.result .unknown 0])
    else buyLoop me packet.item_code market w packet.buy_count

/-! ## Selling -/

/-- `Player::IsSellable`. -/
def isSellable (w : World) (me : Handle) (p : ItemPtr) : Option Bool :=
  (w.isErasable me p).map fun erasable => erasable && !(w.items p).isTaming

/-- `nPrice` -/
def sellPrice (tags : Int → PriceTag) (i : Item) : Option Int :=
  getItemSellPrice (tags i.inst.Code).price (tags i.inst.Code).rank i.inst.nLevel
    (decide (602700 ≤ i.inst.Code ∧ i.inst.Code ≤ 602799))

/-- The sale, once the price is known. Its receipt has the count where the code should be, and no count. -/
def sellItem (w : World) (me : Handle) (p : ItemPtr) (sell_count nPrice : Int) : Option (World × List ShopMessage) := do
  let nResultCount ← add64 (w.items p).inst.nCount (-sell_count)
  let sellable ← w.isSellable me p
  if sellable = false ∨ nResultCount < 0 then
    return (w, [.result .notExist (w.items p).inst.Code])
  let gain ← if IsInt64 (sell_count * nPrice) then some (sell_count * nPrice) else none
  let gold ← add64 (w.players me).nGold gain
  if gold > MAX_GOLD_FOR_INVENTORY then
    return (w, [.result .tooMuchMoney (w.items p).inst.Code])
  else if gold < 0 then
    return (w, [.result .notActable (w.items p).inst.Code])
  else
    let w' ← w.erase (bag me) p sell_count
    let gold ← add64 (w'.players me).nGold gain
    match w'.changeGold me gold with
    | (.success, w') =>
      return (w', [.result .success (w.items p).handle, .trade ⟨true, sell_count, 0, gain⟩])
    | (_, w') => return (w', [.result .tooMuchMoney (w.items p).inst.Code])

/-- `WorldSession::onSellItem` -/
def onSellItem (w : World) (tags : Int → PriceTag) (me : Handle) (packet : TS_CS_SELL_ITEM) :
    Option (World × List ShopMessage) :=
  match w.findItemByHandle me packet.handle with
  | none => some (w, [.result .notExist 0])
  | some p =>
    if (w.items p).itemBase.isNone ∨ (w.items p).inst.OwnerHandle ≠ me ∨ (w.items p).isInInventory = false then
      some (w, [.result .notExist 0])
    else if packet.sell_count = 0 then some (w, [.result .unknown 0])
    else (sellPrice tags (w.items p)).bind fun nPrice => w.sellItem me p packet.sell_count nPrice

/-! ## What a request does -/

/-- The player `me` has `gold` more and `n` units more of the code; nobody has anything else. -/
structure Dealt (w w' : World) (me : Handle) (code n gold : Int) : Prop where
  ok : GoodsOk w'
  playerPool : w'.playerPool = w.playerPool
  itemBase : w'.itemBase = w.itemBase
  gold : ∀ h, (w'.players h).nGold = (w.players h).nGold + if h = me then gold else 0
  units : ∀ c r, units c w' r = units c w r + if r = bag me ∧ c = code then n else 0

variable {w w' w₁ : World} {me : Handle} {p q x : ItemPtr} {code n m gold g : Int} {sent : List ShopMessage}

namespace Dealt

theorem refl (hok : GoodsOk w) (me : Handle) (code : Int) : Dealt w w me code 0 0 :=
  ⟨hok, rfl, rfl, fun h => by rw [ite_self, add_zero], fun c r => by rw [ite_self, add_zero]⟩

theorem trans (h₁ : Dealt w w₁ me code n gold) (h₂ : Dealt w₁ w' me code m g) : Dealt w w' me code (n + m) (gold + g) where
  ok := h₂.ok
  playerPool := h₂.playerPool.trans h₁.playerPool
  itemBase := h₂.itemBase.trans h₁.itemBase
  gold h := by
    rw [h₂.gold, h₁.gold]
    split_ifs <;> omega
  units c r := by
    rw [h₂.units, h₁.units]
    split_ifs <;> omega

end Dealt

/-- A player comes to a legal amount of gold. -/
theorem dealt_setGold (hok : GoodsOk w) (hme : w.playerPool me = true) (hlow : 0 ≤ g) (hhigh : g ≤ MAX_GOLD_FOR_INVENTORY)
    (code : Int) : Dealt w (w.setGold me g) me code 0 (g - (w.players me).nGold) := by
  have hgoods := hok.setGolds me ⟨hlow, hhigh⟩ (hok.storageGold me hme)
  rw [← setGold_nStorageGold w me g me, setStorageGold_self] at hgoods
  refine ⟨hgoods, rfl, rfl, fun h => ?_, fun c r => ?_⟩
  · rw [setGold_nGold]
    split_ifs with hh
    · rw [hh]
      omega
    · omega
  · rw [(setGold_sameGoods w me g).units, ite_self, add_zero]

/-! ## A new item -/

theorem rewarded_allocItem_market (hok : GoodsOk w) (hcode : code ≠ 0) (hn : IsInt64 n) :
    Rewarded w (w.allocItem 0 code n GenerateCode.BY_MARKET).2 code n := by
  have hnew := allocItem_items_new w code n GenerateCode.BY_MARKET
  have hlot : ((w.allocItem 0 code n GenerateCode.BY_MARKET).2.items w.nextItem).lot = ⟨w.itemBase code, code, n⟩ := by
    rw [hnew, Item.lot_alloc]
  have hheap : ∀ r, w.nextItem ∉ (w.inv r).vList := fun r hx => Nat.lt_irrefl _ ((hok.stocked r).heap _ hx)
  have hcoded : ((w.allocItem 0 code n GenerateCode.BY_MARKET).2.items w.nextItem).inst.Code = code :=
    congrArg Item.Lot.Code hlot
  have hbase : ((w.allocItem 0 code n GenerateCode.BY_MARKET).2.items w.nextItem).itemBase = w.itemBase code :=
    congrArg Item.Lot.itemBase hlot
  have hcount : ((w.allocItem 0 code n GenerateCode.BY_MARKET).2.items w.nextItem).inst.nCount = n :=
    congrArg Item.Lot.nCount hlot
  refine ⟨hok.allocItem code n _, allocItem_later w code n _, ⟨hheap, Nat.lt_succ_self _, ?_, ?_, ?_, ?_⟩, ?_, hlot,
    fun r => rfl, fun r a ha => ?_, ?_⟩
  · rw [hnew]
    refine if_pos ?_
    cases w.itemBase code <;> rfl
  · rw [hbase, hcoded]
    rfl
  · exact hcoded.trans_ne hcode
  · rw [hcount]
    exact hn
  · rw [hnew]
    cases w.itemBase code <;> rfl
  · exact allocItem_items_of_ne _ _ _ _ _ fun heq => hheap r (heq ▸ ha)
  · rw [hnew]
    cases w.itemBase code <;> rfl

/-- The new item `x` has come to the player's inventory as the stack `q`, or has joined it; its object is let go then. -/
structure MadeNew (w w' : World) (me : Handle) (code n : Int) (w₁ w₂ : World) (q : ItemPtr) : Prop where
  made : w₁ = (w.allocItem 0 code n GenerateCode.BY_MARKET).2
  rewarded : Rewarded w w₁ code n
  push : (w₁.assignIdx me w.nextItem).push (bag me) w.nextItem n = some (q, w₂)
  put : PutInto (w₁.assignIdx me w.nextItem) w₂ (bag me) w.nextItem q n
  freed : w' = w₂.freeJoined w.nextItem (some q)

theorem pushNew_made (hok : GoodsOk w) (hme : w.playerPool me = true) (hcode : code ≠ 0) (hn : IsInt64 n)
    (hrun : w.pushNew me code n n = some w') : ∃ w₁ w₂ q, MadeNew w w' me code n w₁ w₂ q := by
  have hr := rewarded_allocItem_market hok hcode hn
  unfold pushNew at hrun
  rw [hr.pushItem_eq hok hme] at hrun
  rw [Option.map_map] at hrun
  obtain ⟨⟨q, w₂⟩, hpush, rfl⟩ := Option.map_eq_some_iff.mp hrun
  refine ⟨_, w₂, q, rfl, hr, hpush, ?_, rfl⟩
  have ht := Touched.assignIdx (w.allocItem 0 code n GenerateCode.BY_MARKET).2 me w.nextItem
  have hcount : (((w.allocItem 0 code n GenerateCode.BY_MARKET).2.assignIdx me w.nextItem).items w.nextItem).inst.nCount = n :=
    congrArg Item.Lot.nCount (hr.lot_assignIdx me)
  have hput := push_putInto (hr.goods_assignIdx me).toWorldOk (ht.loose hr.loose) (by rw [hcount]; exact hpush)
  rw [hcount] at hput
  exact hput

theorem GoodsOk.freeJoined (hok : GoodsOk w) (hx : q ≠ x → (∀ r, x ∉ (w.inv r).vList) ∧ (w.items x).isFree = true) :
    GoodsOk (w.freeJoined x (some q)) := by
  unfold World.freeJoined
  dsimp only
  split_ifs with hne
  · obtain ⟨hloose, hfree⟩ := hx fun heq => hne (by rw [heq])
    exact hok.touched hloose hfree (.updItem _ _ (fun _ => rfl) fun _ => rfl)
  · exact hok

/-- **A new item** is its units, and nothing else. -/
theorem pushNew_dealt (hok : GoodsOk w) (hme : w.playerPool me = true) (hcode : code ≠ 0) (hn : IsInt64 n)
    (hrun : w.pushNew me code n n = some w') : Dealt w w' me code n 0 := by
  obtain ⟨w₁, w₂, q, hmade⟩ := pushNew_made hok hme hcode hn hrun
  obtain ⟨-, hr, -, hput, rfl⟩ := hmade
  have ht := Touched.assignIdx w₁ me w.nextItem
  have hfree : ((w₁.assignIdx me w.nextItem).items w.nextItem).isFree = true := ht.isFree.trans hr.free
  have hloose := ht.loose hr.loose
  have hgoods := (hr.goods_assignIdx me).putInto hfree hput
  have hsame : SameHoldings w₂ (w₂.freeJoined w.nextItem (some q)) := .freeJoined w₂ _ _
  have hlater := (hr.later.trans ht.later).trans hput.later
  have hcoded : ((w₁.assignIdx me w.nextItem).items w.nextItem).inst.Code = code :=
    congrArg Item.Lot.Code (hr.lot_assignIdx me)
  have hbefore : ∀ c r, units c w₁ r = units c w r := fun c r =>
    total_congr _ (hr.vList r) fun a ha => by rw [hr.items r a ha]
  have hfreed : (w₂.freeJoined w.nextItem (some q)).playerPool = w₂.playerPool ∧
      (w₂.freeJoined w.nextItem (some q)).itemBase = w₂.itemBase := by
    unfold World.freeJoined
    dsimp only
    split_ifs <;> exact ⟨rfl, rfl⟩
  refine ⟨hgoods.freeJoined fun hne => ⟨fun r hmem => ?_, ?_⟩, hfreed.1.trans hlater.playerPool,
    hfreed.2.trans hlater.itemBase, fun h => ?_, fun c r => ?_⟩
  · rcases (hput.mem r _).mp hmem with hmem | ⟨-, -, heq⟩
    · exact hloose.loose r hmem
    · exact hne heq
  · rw [(hput.joined hne).2.2]
    exact hfree
  · rw [hsame.nGold, hlater.nGold, ite_self, add_zero]
  · rw [hsame.units, hput.units, ht.units, hcoded, hbefore]
    congr 1
    exact if_congr (and_congr_right fun _ => eq_comm) rfl rfl

/-! ## A purchase -/

/-- **The charge.** The comparison after the division lets no charge through that is below the price of the units, however
the product has been rounded, and none that is above it by a piece of gold for every unit. -/
theorem charge_spec {c r total : Int} (hc : 0 < c) (hcheck : SingleFloat.rounded (total.tdiv c) = r) (hnonneg : 0 ≤ total)
    (hlt : r < 2 ^ 24) : c * r ≤ total ∧ total < c * (r + 1) := by
  have hdiv : total.tdiv c = total / c := Int.tdiv_eq_ediv_of_nonneg hnonneg
  have hquot : 0 ≤ total / c := Int.ediv_nonneg hnonneg hc.le
  have hsmall : total / c < 2 ^ 24 := by
    by_contra hge
    have hfloat : IsFloat (((2 ^ 24 : Int) : Int) : ℚ) := ⟨1, 24, by decide, .inr (by norm_num)⟩
    have hle := SingleFloat.le_rounded hfloat (by decide) (not_lt.mp hge)
    rw [← hdiv, hcheck] at hle
    omega
  have hexact : IsFloat ((total / c : Int) : ℚ) := ⟨total / c, 0, by omega, .inl (by rw [pow_zero, mul_one])⟩
  rw [hdiv, SingleFloat.rounded_of_isFloat hexact] at hcheck
  have hsum := Int.mul_ediv_add_emod total c
  have hlow := Int.emod_nonneg total hc.ne'
  have hhigh := Int.emod_lt_of_pos total hc
  rw [hcheck] at hsum
  rw [mul_add, mul_one]
  omega

/-- The trades that the player is told of. -/
def trades (sent : List ShopMessage) : List NpcTrade := sent.filterMap ShopMessage.trade?

def unitsOfTrades (l : List NpcTrade) : Int := (l.map (·.count)).sum

def goldOfTrades (l : List NpcTrade) : Int := (l.map (·.price)).sum

/-- A purchase by a row of the market, of as many units as were asked for or of one. -/
structure Fair (market : List MarketInfo) (item_code buy_count : Int) (t : NpcTrade) : Prop where
  bought : t.is_sell = false
  code : t.code = item_code
  count : 1 ≤ t.count ∧ t.count ≤ buy_count
  nonneg : 0 ≤ t.price
  row : ∃ mt ∈ market, mt.code = item_code ∧ t.price = SingleFloat.rounded (t.count * mt.price_ratio) ∧
    (mt.price_ratio < 2 ^ 24 → t.count * mt.price_ratio ≤ t.price ∧ t.price < t.count * (mt.price_ratio + 1))

theorem Fair.mono {market market' : List MarketInfo} {item_code b b' : Int} {t : NpcTrade} (ht : Fair market item_code b t)
    (hmarket : market ⊆ market') (hb : b ≤ b') : Fair market' item_code b' t := by
  obtain ⟨mt, hmem, hrow⟩ := ht.row
  exact ⟨ht.bought, ht.code, ⟨ht.count.1, ht.count.2.trans hb⟩, ht.nonneg, mt, hmarket hmem, hrow⟩

variable {mt : MarketInfo} {ibs : ItemTemplate} {bJoinable : Bool} {b b' item_code : Int} {turn : BuyTurn}
  {market : List MarketInfo}

theorem pushGoods_dealt (hok : GoodsOk w) (hme : w.playerPool me = true) (hcode : code ≠ 0) (hb : IsInt64 b)
    (hone : bJoinable = false → b = 1) (hrun : w.pushGoods me bJoinable code b = some w') : Dealt w w' me code b 0 := by
  unfold pushGoods at hrun
  cases bJoinable with
  | true => exact pushNew_dealt hok hme hcode hb hrun
  | false =>
    obtain rfl := hone rfl
    obtain ⟨w₁, hpush, hrest⟩ := Option.bind_eq_some_iff.mp hrun
    obtain rfl := Option.some.inj hrest
    exact pushNew_dealt hok hme hcode (by decide) hpush

/-- The units of the row have been paid with `total`, and `w'` is the world with them. -/
structure PaidRow (w w' : World) (me : Handle) (mt : MarketInfo) (bJoinable : Bool) (b total : Int) : Prop where
  price : total = SingleFloat.rounded (b * mt.price_ratio)
  check : SingleFloat.rounded (total.tdiv b) = mt.price_ratio
  nonneg : 0 ≤ total
  enough : total ≤ (w.players me).nGold
  goods : (w.setGold me ((w.players me).nGold - total)).pushGoods me bJoinable mt.code b = some w'

/-- A turn stops without a trade, or goes on after one. -/
theorem buyRow_cases (hok : GoodsOk w) (hme : w.playerPool me = true) (hrun : w.buyRow me mt ibs bJoinable b = some turn) :
    (∃ sent, turn = .stop w sent ∧ trades sent = []) ∨
      ∃ w' sent total, turn = .next w' b sent ∧ trades sent = [⟨false, mt.code, b, total⟩] ∧
        PaidRow w w' me mt bJoinable b total := by
  obtain ⟨total, htotal, hrun⟩ := Option.bind_eq_some_iff.mp hrun
  unfold totalPrice at htotal
  split_ifs at htotal with hfit
  have htotal := Option.some.inj htotal
  split_ifs at hrun with hpoor hheavy
  · obtain rfl := Option.some.inj hrun
    exact .inl ⟨_, rfl, rfl⟩
  · obtain rfl := Option.some.inj hrun
    exact .inl ⟨_, rfl, rfl⟩
  · simp only [not_or, not_not, not_lt] at hpoor
    obtain ⟨hcheck, hgold, hnonneg⟩ := hpoor
    have hlegal := hok.gold me hme
    rw [changeGold_cases w me _ hlegal, if_neg (by omega), if_neg (by omega)] at hrun
    obtain ⟨w', hpush, rfl⟩ := Option.map_eq_some_iff.mp hrun
    exact .inr ⟨w', _, total, rfl, rfl, htotal.symm, hcheck, hnonneg, hgold, hpush⟩

theorem PaidRow.dealt {total : Int} (hpaid : PaidRow w w' me mt bJoinable b total) (hok : GoodsOk w)
    (hme : w.playerPool me = true) (hcode : mt.code ≠ 0) (hb : 1 ≤ b ∧ b < 2 ^ 16) (hone : bJoinable = false → b = 1) :
    Dealt w w' me mt.code b (-total) := by
  have hlegal := hok.gold me hme
  have henough := hpaid.enough
  have hnonneg := hpaid.nonneg
  have hset := dealt_setGold hok hme (g := (w.players me).nGold - total) (by omega) (by omega) mt.code
  have hgot := pushGoods_dealt hset.ok (hset.playerPool ▸ hme) hcode (by unfold IsInt64; omega) hone hpaid.goods
  have hdealt := hset.trans hgot
  rw [zero_add, add_zero, sub_sub_cancel_left] at hdealt
  exact hdealt

theorem PaidRow.fair {total : Int} (hpaid : PaidRow w w' me mt bJoinable b total) (hb : 1 ≤ b) :
    Fair [mt] mt.code b ⟨false, mt.code, b, total⟩ :=
  ⟨rfl, rfl, ⟨hb, le_refl b⟩, hpaid.nonneg, mt, List.mem_singleton_self mt, rfl, hpaid.price,
    fun hlt => charge_spec (zero_lt_one.trans_le hb) hpaid.check hpaid.nonneg hlt⟩

theorem trades_append (sent more : List ShopMessage) : trades (sent ++ more) = trades sent ++ trades more :=
  List.filterMap_append

/-- What the first turns of the loop have come to. -/
structure Bought (w w' : World) (me : Handle) (market : List MarketInfo) (item_code b : Int) (sent : List ShopMessage) : Prop where
  dealt : Dealt w w' me item_code (unitsOfTrades (trades sent)) (-goldOfTrades (trades sent))
  fair : ∀ t ∈ trades sent, Fair market item_code b t
  rows : (trades sent).length ≤ market.countP fun mt => mt.code = item_code

theorem bought_nothing (hok : GoodsOk w) (me : Handle) (market : List MarketInfo) (item_code b : Int)
    (hsent : trades sent = []) : Bought w w me market item_code b sent := by
  refine ⟨?_, ?_, ?_⟩
  · rw [hsent]
    exact .refl hok me item_code
  · rw [hsent]
    exact fun t ht => absurd ht List.not_mem_nil
  · rw [hsent]
    exact Nat.zero_le _

/-- A row is passed over, or it sells as many units as are asked for, or one. -/
theorem buyTurn_cases (hrun : w.buyTurn me item_code mt b = some turn) :
    turn = .next w b [] ∨ ∃ ibs bJoinable c, mt.code = item_code ∧ w.itemBase item_code = some ibs ∧
      (bJoinable = true ∧ c = b ∨ bJoinable = false ∧ c = 1) ∧ w.buyRow me mt ibs bJoinable c = some turn := by
  unfold buyTurn at hrun
  split_ifs at hrun with hcode
  · cases hbase : w.itemBase item_code with
    | none =>
      rw [hbase] at hrun
      exact .inl (Option.some.inj hrun).symm
    | some ibs =>
      rw [hbase] at hrun
      dsimp only at hrun
      split_ifs at hrun
      · exact .inr ⟨ibs, true, b, hcode, rfl, .inl ⟨rfl, rfl⟩, hrun⟩
      · exact .inr ⟨ibs, false, 1, hcode, rfl, .inr ⟨rfl, rfl⟩, hrun⟩
  · exact .inl (Option.some.inj hrun).symm

theorem ne_zero_of_itemBase (hgold : w.itemBase 0 = none) (hbase : w.itemBase code = some ibs) : code ≠ 0 := by
  rintro rfl
  rw [hgold] at hbase
  cases hbase

theorem buyTurn_spec (hok : GoodsOk w) (hme : w.playerPool me = true) (hgold : w.itemBase 0 = none) (hb : 1 ≤ b)
    (hbmax : b < 2 ^ 16) (hrun : w.buyTurn me item_code mt b = some turn) :
    (∃ sent, turn = .stop w sent ∧ trades sent = []) ∨
      ∃ w' b' sent, turn = .next w' b' sent ∧ 1 ≤ b' ∧ b' ≤ b ∧ Bought w w' me [mt] item_code b sent := by
  rcases buyTurn_cases hrun with rfl | ⟨ibs, bJoinable, c, rfl, hbase, hcount, hrow⟩
  · exact .inr ⟨w, b, [], rfl, hb, le_refl b, bought_nothing hok me [mt] item_code b rfl⟩
  have hone : bJoinable = false → c = 1 := by
    rcases hcount with ⟨rfl, -⟩ | ⟨-, rfl⟩
    · exact fun h => Bool.noConfusion h
    · exact fun _ => rfl
  have hc : 1 ≤ c ∧ c ≤ b := by omega
  refine (buyRow_cases hok hme hrow).imp_right ?_
  rintro ⟨w', sent, total, rfl, hsent, hpaid⟩
  have hfair := (hpaid.fair hc.1).mono (List.Subset.refl _) hc.2
  refine ⟨w', c, sent, rfl, hc.1, hc.2, ?_, ?_, ?_⟩
  · rw [hsent, unitsOfTrades, goldOfTrades, List.map_singleton, List.sum_singleton, List.map_singleton, List.sum_singleton]
    exact hpaid.dealt hok hme (ne_zero_of_itemBase hgold hbase) (by omega) hone
  · rw [hsent]
    intro u hu
    rw [List.mem_singleton.mp hu]
    exact hfair
  · rw [hsent]
    simp

/-- **The loop over the market.** -/
theorem buyLoop_spec (hok : GoodsOk w) (hme : w.playerPool me = true) (hgold : w.itemBase 0 = none) (hb : 1 ≤ b)
    (hbmax : b < 2 ^ 16) (hrun : buyLoop me item_code market w b = some (w', sent)) :
    Bought w w' me market item_code b sent := by
  induction market generalizing w b sent with
  | nil =>
    obtain ⟨rfl, rfl⟩ := Prod.mk.inj (Option.some.inj hrun)
    exact bought_nothing hok me [] item_code b rfl
  | cons mt market ih =>
    obtain ⟨turn, hturn, hrun⟩ := Option.bind_eq_some_iff.mp hrun
    rcases buyTurn_spec hok hme hgold hb hbmax hturn with ⟨sent₁, rfl, hsent⟩ | ⟨w₁, b₁, sent₁, rfl, hlow, hle, hfirst⟩
    · obtain ⟨rfl, rfl⟩ := Prod.mk.inj (Option.some.inj hrun)
      exact bought_nothing hok me _ item_code b hsent
    · obtain ⟨⟨w₂, more⟩, hrest, heq⟩ := Option.map_eq_some_iff.mp hrun
      obtain ⟨rfl, rfl⟩ := Prod.mk.inj heq
      have hrest := ih hfirst.dealt.ok (hfirst.dealt.playerPool ▸ hme) (hfirst.dealt.itemBase ▸ hgold) hlow (by omega) hrest
      refine ⟨?_, fun t ht => ?_, ?_⟩
      · have htrans := hfirst.dealt.trans hrest.dealt
        rw [← neg_add] at htrans
        rw [trades_append, unitsOfTrades, goldOfTrades, List.map_append, List.sum_append, List.map_append, List.sum_append]
        exact htrans
      · rw [trades_append, List.mem_append] at ht
        rcases ht with ht | ht
        · exact (hfirst.fair t ht).mono (List.cons_subset_cons mt (List.nil_subset market)) (le_refl b)
        · exact (hrest.fair t ht).mono (List.subset_cons_self mt market) hle
      · have h₁ := hfirst.rows
        have h₂ := hrest.rows
        rw [List.countP_singleton] at h₁
        rw [trades_append, List.length_append, List.countP_cons]
        omega

/-! ## A sale -/

variable {tags : Int → PriceTag} {c gain nPrice : Int}

/-- `c` units of the stack `p` have gone, and their price has come. -/
structure Sold (w w' : World) (me : Handle) (p : ItemPtr) (c gain : Int) : Prop where
  mem : p ∈ (w.inv (bag me)).vList
  enough : c ≤ (w.items p).inst.nCount
  legal : 0 ≤ (w.players me).nGold + gain ∧ (w.players me).nGold + gain ≤ MAX_GOLD_FOR_INVENTORY
  erased : ∃ w₁, ErasedFrom w w₁ (bag me) p c ∧ w' = w₁.setGold me ((w.players me).nGold + gain)

theorem Sold.dealt (hok : GoodsOk w) (hme : w.playerPool me = true) (hsold : Sold w w' me p c gain) :
    Dealt w w' me (w.items p).inst.Code (-c) gain := by
  obtain ⟨w₁, hgone, rfl⟩ := hsold.erased
  have hok₁ := hok.erasedFrom (r := bag me) hme hgone
  have hpaid := dealt_setGold hok₁ (hgone.later.playerPool ▸ hme) hsold.legal.1 hsold.legal.2 (w.items p).inst.Code
  refine ⟨hpaid.ok, hpaid.playerPool.trans hgone.later.playerPool, hpaid.itemBase.trans hgone.later.itemBase,
    fun h => ?_, fun code r => ?_⟩
  · rw [hpaid.gold, hgone.later.nGold, hgone.later.nGold, add_sub_cancel_left]
  · rw [hpaid.units, hgone.units, ite_self, add_zero, min_eq_left hsold.enough,
      if_congr (and_congr_right fun _ => eq_comm) rfl rfl]
    split_ifs
    · exact sub_eq_add_neg _ _
    · rw [sub_zero, add_zero]

/-- Nothing is sold, or what the receipt counts for the price of the item. -/
theorem sellItem_spec (hok : GoodsOk w) (hme : w.playerPool me = true) (hp : p ∈ (w.inv (bag me)).vList)
    (hrun : w.sellItem me p c nPrice = some (w', sent)) :
    (w' = w ∧ trades sent = []) ∨
      (trades sent = [⟨true, c, 0, c * nPrice⟩] ∧ w.isSellable me p = some true ∧ Sold w w' me p c (c * nPrice)) := by
  unfold sellItem at hrun
  simp only [Option.bind_eq_bind, Option.pure_def, Option.bind_eq_some_iff] at hrun
  obtain ⟨rest, hrest, sellable, hsellable, hrun⟩ := hrun
  obtain ⟨-, rfl⟩ := add64_eq_some.mp hrest
  by_cases hrefused : sellable = false ∨ (w.items p).inst.nCount + -c < 0
  · rw [if_pos hrefused] at hrun
    obtain ⟨rfl, rfl⟩ := Prod.mk.inj (Option.some.inj hrun)
    exact .inl ⟨rfl, rfl⟩
  rw [if_neg hrefused] at hrun
  rw [not_or, Bool.not_eq_false] at hrefused
  obtain ⟨rfl, henough⟩ := hrefused
  split_ifs at hrun with hfit
  swap
  · cases hrun
  rw [Option.bind_some] at hrun
  obtain ⟨gold, hgold, hrun⟩ := Option.bind_eq_some_iff.mp hrun
  obtain ⟨-, rfl⟩ := add64_eq_some.mp hgold
  split_ifs at hrun with hmax hneg
  · obtain ⟨rfl, rfl⟩ := Prod.mk.inj (Option.some.inj hrun)
    exact .inl ⟨rfl, rfl⟩
  · obtain ⟨rfl, rfl⟩ := Prod.mk.inj (Option.some.inj hrun)
    exact .inl ⟨rfl, rfl⟩
  · obtain ⟨w₁, herase, hrun⟩ := Option.bind_eq_some_iff.mp hrun
    have hgone := erase_erasedFrom hok.toWorldOk hp herase
    -- the amount is computed once more, from the same gold
    rw [hgone.later.nGold, hgold, Option.bind_some, changeGold_cases w₁ me _ (by
      unfold LegalGold
      rw [hgone.later.nGold]
      exact hok.gold me hme), if_neg hmax, if_neg hneg] at hrun
    obtain ⟨rfl, rfl⟩ := Prod.mk.inj (Option.some.inj hrun)
    exact .inr ⟨rfl, hsellable, hp, by omega, ⟨not_lt.mp hneg, not_lt.mp hmax⟩, w₁, hgone, rfl⟩

/-- **A sale** leaves everything as it is, or takes units of one stack of the player's for the price of its item. -/
theorem onSellItem_spec {packet : TS_CS_SELL_ITEM} (hok : GoodsOk w) (hme : w.playerPool me = true)
    (hrun : w.onSellItem tags me packet = some (w', sent)) :
    (w' = w ∧ trades sent = []) ∨
      ∃ p nPrice, (w.items p).handle = packet.handle ∧ w.isSellable me p = some true ∧
        sellPrice tags (w.items p) = some nPrice ∧ 1 ≤ packet.sell_count.val ∧
        trades sent = [⟨true, packet.sell_count, 0, packet.sell_count * nPrice⟩] ∧
        Sold w w' me p packet.sell_count (packet.sell_count * nPrice) := by
  unfold onSellItem at hrun
  cases hfind : w.findItemByHandle me packet.handle with
  | none =>
    rw [hfind] at hrun
    obtain ⟨rfl, rfl⟩ := Prod.mk.inj (Option.some.inj hrun)
    exact .inl ⟨rfl, rfl⟩
  | some p =>
    obtain ⟨hmem, hhandle⟩ := hok.findByHandle_iff.mp hfind
    rw [hfind] at hrun
    dsimp only at hrun
    split_ifs at hrun with hforeign hzero
    · obtain ⟨rfl, rfl⟩ := Prod.mk.inj (Option.some.inj hrun)
      exact .inl ⟨rfl, rfl⟩
    · obtain ⟨rfl, rfl⟩ := Prod.mk.inj (Option.some.inj hrun)
      exact .inl ⟨rfl, rfl⟩
    · obtain ⟨nPrice, hprice, hsell⟩ := Option.bind_eq_some_iff.mp hrun
      refine (sellItem_spec hok hme hmem hsell).imp_right ?_
      rintro ⟨hsent, hsellable, hsold⟩
      exact ⟨p, nPrice, hhandle, hsellable, hprice, Nat.one_le_iff_ne_zero.mpr fun h => hzero (Fin.ext h), hsent, hsold⟩

/-- **A purchase.** -/
theorem onBuyItem_spec {shown : Option (List MarketInfo)} {packet : TS_CS_BUY_ITEM} (hok : GoodsOk w)
    (hme : w.playerPool me = true) (hgold : w.itemBase 0 = none) (hrun : w.onBuyItem shown me packet = some (w', sent)) :
    Bought w w' me (shown.getD []) packet.item_code packet.buy_count sent ∧ (trades sent = [] ∨ 1 ≤ packet.buy_count.val) := by
  unfold onBuyItem at hrun
  by_cases hzero : packet.buy_count = 0
  · rw [if_pos hzero] at hrun
    obtain ⟨rfl, rfl⟩ := Prod.mk.inj (Option.some.inj hrun)
    exact ⟨bought_nothing hok me _ _ _ rfl, .inl rfl⟩
  rw [if_neg hzero] at hrun
  have hpos : 1 ≤ packet.buy_count.val := Nat.one_le_iff_ne_zero.mpr fun h => hzero (Fin.ext h)
  obtain ⟨market, rfl, hloop⟩ := Option.bind_eq_some_iff.mp hrun
  refine ⟨?_, .inr hpos⟩
  split_ifs at hloop
  · obtain ⟨rfl, rfl⟩ := Prod.mk.inj (Option.some.inj hloop)
    exact bought_nothing hok me _ _ _ rfl
  · exact buyLoop_spec hok hme hgold (Int.ofNat_le.mpr hpos) (Int.ofNat_lt.mpr packet.buy_count.isLt) hloop

end World

end RZEmulator.Chihiro
