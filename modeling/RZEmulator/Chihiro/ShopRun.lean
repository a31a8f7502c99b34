import RZEmulator.Chihiro.Market
import RZEmulator.Lib.Ledger

/-!
# Runs of the shops

Scripts show markets to the players, the players buy and sell, and the other handlers make any other well-formed
world of the present one. `books_of_run` is about every run: the receipts account for every piece of gold and every
unit, and every purchase is made at a row of the market that the player was shown last.
-/

namespace RZEmulator.Chihiro

open Lib

/-- What the database holds for the shops. -/
structure ShopData where
  rows : List MarketInfo
  tags : Int → PriceTag

/-- The world, and the entry `market` of every player's `m_hsContact`. -/
structure ShopState where
  world : World
  contact : Handle → String

inductive ShopEvent
  | showMarket (me : Handle) (szMarket : String)
  | buy (me : Handle) (packet : TS_CS_BUY_ITEM)
  | sell (me : Handle) (packet : TS_CS_SELL_ITEM)
  /-- Another handler makes the world `w`. -/
  | other (w : World)

namespace ShopState

/-- `SCRIPT_ShowMarket` and `SendMarketInfo`. -/
def showMarket (data : ShopData) (s : ShopState) (me : Handle) (szMarket : String) : ShopState :=
  match getMarketInfo data.rows szMarket with
  | some (first :: _) => { s with contact := Function.update s.contact me first.name }
  | _ => s

/-- One event, with what the player is sent. -/
def step (data : ShopData) (s : ShopState) : ShopEvent → Option (ShopState × List ShopMessage)
  | .showMarket me szMarket => some (s.showMarket data me szMarket, [])
  | .buy me packet =>
    if s.world.playerPool me then
      (s.world.onBuyItem (getMarketInfo data.rows (s.contact me)) me packet).map fun (w, sent) =>
        ({ s with world := w }, sent)
    else none
  | .sell me packet =>
    if s.world.playerPool me then
      (s.world.onSellItem data.tags me packet).map fun (w, sent) => ({ s with world := w }, sent)
    else none
  | .other w => some ({ s with world := w }, [])

end ShopState

/-- The worlds that the other handlers make. -/
structure ShopWorld (w : World) : Prop where
  goods : World.GoodsOk w
  gold : w.itemBase 0 = none

/-- At the start no player has been shown a market. -/
def shopSystem (data : ShopData) (w : World) : System ShopState ShopEvent where
  Init s := s = ⟨w, fun _ => ""⟩
  Step s e s' := (s.step data e).map Prod.fst = some s' ∧ ∀ w, e = .other w → ShopWorld w

/-! ## The books -/

namespace Shop

open World

variable (data : ShopData)

/-- The receipts that the player of a transition is sent. -/
def receipts (t : Transition ShopState ShopEvent) : List NpcTrade :=
  trades (((t.before.step data t.event).map Prod.snd).getD [])

/-- The rows that the player was sent last. -/
def shownTo (me : Handle) : History ShopState ShopEvent → List MarketInfo
  | [] => []
  | t :: h =>
    match t.event with
    | .showMarket k szMarket =>
      if k = me ∧ rowsNamed data.rows szMarket ≠ [] then rowsNamed data.rows szMarket else shownTo me h
    | _ => shownTo me h

/-- What a receipt says of the player's gold. -/
def goldOf (r : NpcTrade) : Int := if r.is_sell then r.price else -r.price

/-- What a receipt says of the player's goods; that of a sale has its count where the code should be. -/
def unitsOf (r : NpcTrade) : Int := if r.is_sell then -r.code else r.count

/-- The player whose request it is. -/
def customer (t : Transition ShopState ShopEvent) : Option Handle :=
  match t.event with
  | .buy me _ => some me
  | .sell me _ => some me
  | _ => none

/-- The code of the goods that a request is about. -/
def wares (t : Transition ShopState ShopEvent) : Option Int :=
  match t.event with
  | .buy _ packet => some packet.item_code
  | .sell me packet => (t.before.world.findItemByHandle me packet.handle).map fun p => (t.before.world.items p).inst.Code
  | _ => none

/-- What a transition books to the player's gold: what another handler changes, or what the receipts say. -/
def goldBooked (k : Handle) (t : Transition ShopState ShopEvent) : Int :=
  match t.event with
  | .other w => (w.players k).nGold - (t.before.world.players k).nGold
  | _ => if customer t = some k then ((receipts data t).map goldOf).sum else 0

/-- The same for the units of a code in the player's bag. -/
def unitsBooked (code : Int) (k : Handle) (t : Transition ShopState ShopEvent) : Int :=
  match t.event with
  | .other w => units code w (bag k) - units code t.before.world (bag k)
  | _ => if customer t = some k ∧ wares t = some code then ((receipts data t).map unitsOf).sum else 0

/-- Every purchase is made at rows of the market that the player was shown last, at most once for every row. -/
def Purchase (t : Transition ShopState ShopEvent) (h : History ShopState ShopEvent) : Prop :=
  ∀ me packet, t.event = .buy me packet →
    (receipts data t).length ≤ (shownTo data me h).countP (fun mt => mt.code = packet.item_code) ∧
      ∀ r ∈ receipts data t, Fair (shownTo data me h) packet.item_code packet.buy_count r

/-- A sale pays the price of the item for every unit, and there are as many units. -/
def Sale (t : Transition ShopState ShopEvent) : Prop :=
  ∀ me packet, t.event = .sell me packet → receipts data t ≠ [] →
    ∃ p nPrice, p ∈ (t.before.world.inv (bag me)).vList ∧ (t.before.world.items p).handle = packet.handle ∧
      packet.sell_count ≤ (t.before.world.items p).inst.nCount ∧
      sellPrice data.tags (t.before.world.items p) = some nPrice ∧
      receipts data t = [⟨true, packet.sell_count, 0, packet.sell_count * nPrice⟩]

/-- What is in the books after a run from `w`. -/
structure Books (w : World) (h : History ShopState ShopEvent) (s : ShopState) : Prop where
  goods : GoodsOk s.world
  gold : ∀ k, (s.world.players k).nGold = (w.players k).nGold + (h.map (goldBooked data k)).sum
  units : ∀ code k, units code s.world (bag k) = units code w (bag k) + (h.map (unitsBooked data code k)).sum
  purchases : ∀ t h', t :: h' <:+ h → Purchase data t h'
  sales : ∀ t ∈ h, Sale data t

variable {data} {w w' : World} {s s' : ShopState} {me k : Handle} {h : History ShopState ShopEvent} {code n g : Int}
  {le : String → String → Prop} {buying : TS_CS_BUY_ITEM} {selling : TS_CS_SELL_ITEM} {e : ShopEvent}

/-! ## One event -/

theorem step_buy (hstep : (shopSystem data w).Step s (.buy me buying) s') : s.world.playerPool me = true ∧
    ∃ w' sent, s.world.onBuyItem (getMarketInfo data.rows (s.contact me)) me buying = some (w', sent) ∧
      s' = { s with world := w' } ∧ receipts data ⟨s, .buy me buying, s'⟩ = trades sent := by
  obtain ⟨hstep, -⟩ := hstep
  obtain ⟨⟨s₁, sent⟩, hrun, rfl⟩ := Option.map_eq_some_iff.mp hstep
  have hsent : receipts data ⟨s, .buy me buying, s₁⟩ = trades sent := by
    rw [receipts, hrun]
    rfl
  unfold ShopState.step at hrun
  dsimp only at hrun
  split_ifs at hrun with hme
  obtain ⟨⟨w', sent'⟩, hbuy, heq⟩ := Option.map_eq_some_iff.mp hrun
  obtain ⟨rfl, rfl⟩ := Prod.mk.inj heq
  exact ⟨hme, w', sent', hbuy, rfl, hsent⟩

theorem step_sell (hstep : (shopSystem data w).Step s (.sell me selling) s') : s.world.playerPool me = true ∧
    ∃ w' sent, s.world.onSellItem data.tags me selling = some (w', sent) ∧ s' = { s with world := w' } ∧
      receipts data ⟨s, .sell me selling, s'⟩ = trades sent := by
  obtain ⟨hstep, -⟩ := hstep
  obtain ⟨⟨s₁, sent⟩, hrun, rfl⟩ := Option.map_eq_some_iff.mp hstep
  have hsent : receipts data ⟨s, .sell me selling, s₁⟩ = trades sent := by
    rw [receipts, hrun]
    rfl
  unfold ShopState.step at hrun
  dsimp only at hrun
  split_ifs at hrun with hme
  obtain ⟨⟨w', sent'⟩, hsell, heq⟩ := Option.map_eq_some_iff.mp hrun
  obtain ⟨rfl, rfl⟩ := Prod.mk.inj heq
  exact ⟨hme, w', sent', hsell, rfl, hsent⟩

/-- What one event books. -/
structure Booked (data : ShopData) (s : ShopState) (e : ShopEvent) (s' : ShopState) : Prop where
  world : ShopWorld s'.world
  gold : ∀ k, (s'.world.players k).nGold = (s.world.players k).nGold + goldBooked data k ⟨s, e, s'⟩
  units : ∀ code k, units code s'.world (bag k) = units code s.world (bag k) + unitsBooked data code k ⟨s, e, s'⟩

/-- A request of a player books what the receipts say, if that is what has been dealt. -/
theorem booked_of_dealt (hno : ∀ w, e ≠ .other w) (hwho : customer ⟨s, e, s'⟩ = some me)
    (hwares : wares ⟨s, e, s'⟩ = some code ∨ n = 0) (hgold : ((receipts data ⟨s, e, s'⟩).map goldOf).sum = g)
    (hunits : ((receipts data ⟨s, e, s'⟩).map unitsOf).sum = n) (hbase : s.world.itemBase 0 = none)
    (hdealt : Dealt s.world s'.world me code n g) : Booked data s e s' := by
  have hg : ∀ k, goldBooked data k ⟨s, e, s'⟩ = if k = me then g else 0 := fun k => by
    have heq : goldBooked data k ⟨s, e, s'⟩ = if customer ⟨s, e, s'⟩ = some k then g else 0 := by
      rw [← hgold]
      cases e with
      | other w => exact absurd rfl (hno w)
      | showMarket => rfl
      | buy => rfl
      | sell => rfl
    rw [heq, hwho]
    exact if_congr ⟨fun h => (Option.some.inj h).symm, fun h => by rw [h]⟩ rfl rfl
  have hu : ∀ c k, unitsBooked data c k ⟨s, e, s'⟩ = if bag k = bag me ∧ c = code then n else 0 := fun c k => by
    have heq : unitsBooked data c k ⟨s, e, s'⟩ =
        if customer ⟨s, e, s'⟩ = some k ∧ wares ⟨s, e, s'⟩ = some c then n else 0 := by
      rw [← hunits]
      cases e with
      | other w => exact absurd rfl (hno w)
      | showMarket => rfl
      | buy => rfl
      | sell => rfl
    rw [heq, hwho]
    rcases hwares with hwares | rfl
    · rw [hwares]
      refine if_congr ⟨fun ⟨hk, hc⟩ => ⟨?_, (Option.some.inj hc).symm⟩, fun ⟨hk, hc⟩ => ⟨?_, by rw [hc]⟩⟩ rfl
        rfl
      · rw [Option.some.inj hk]
      · have howner : k = me := congrArg InvRef.owner hk
        rw [howner]
    · rw [ite_self, ite_self]
  refine ⟨⟨hdealt.ok, hdealt.itemBase ▸ hbase⟩, fun k => ?_, fun c k => ?_⟩
  · rw [hdealt.gold, hg]
  · rw [hdealt.units, hu]

/-- The receipts of purchases are counted by count and price. -/
theorem sums_of_fair {market : List MarketInfo} {item_code b : Int} {l : List NpcTrade}
    (hfair : ∀ r ∈ l, Fair market item_code b r) :
    (l.map goldOf).sum = -goldOfTrades l ∧ (l.map unitsOf).sum = unitsOfTrades l := by
  have hgold : l.map goldOf = l.map fun r => -r.price := List.map_congr_left fun r hr => by
    rw [goldOf, (hfair r hr).bought, if_neg Bool.false_ne_true]
  have hunits : l.map unitsOf = l.map fun r => r.count := List.map_congr_left fun r hr => by
    rw [unitsOf, (hfair r hr).bought, if_neg Bool.false_ne_true]
  refine ⟨?_, by rw [hunits, unitsOfTrades]⟩
  rw [hgold, goldOfTrades, List.sum_neg, List.map_map]
  rfl

theorem showMarket_world (data : ShopData) (s : ShopState) (me : Handle) (szMarket : String) :
    (s.showMarket data me szMarket).world = s.world := by
  unfold ShopState.showMarket
  split <;> rfl

/-- The step lemma of the books. -/
theorem booked_of_step (hw : ShopWorld s.world) (hstep : (shopSystem data w).Step s e s') : Booked data s e s' := by
  cases e with
  | showMarket me szMarket =>
    obtain ⟨⟨s₁, sent⟩, hrun, rfl⟩ := Option.map_eq_some_iff.mp hstep.1
    obtain ⟨rfl, rfl⟩ := Prod.mk.inj (Option.some.inj hrun)
    have hsame := showMarket_world data s me szMarket
    refine ⟨hsame ▸ hw, fun k => ?_, fun code k => ?_⟩
    · rw [hsame, goldBooked, customer, if_neg (fun h => (by cases h)), add_zero]
    · rw [hsame, unitsBooked, customer, if_neg (fun h => (by cases h.1)), add_zero]
  | other w₁ =>
    have hworld := hstep.2 w₁ rfl
    obtain ⟨⟨s₁, sent⟩, hrun, rfl⟩ := Option.map_eq_some_iff.mp hstep.1
    obtain ⟨rfl, rfl⟩ := Prod.mk.inj (Option.some.inj hrun)
    exact ⟨hworld, fun k => (add_sub_cancel _ _).symm, fun code k => (add_sub_cancel _ _).symm⟩
  | buy me buying =>
    obtain ⟨hme, w', sent, hrun, rfl, hsent⟩ := step_buy hstep
    obtain ⟨hbought, -⟩ := onBuyItem_spec hw.goods hme hw.gold hrun
    obtain ⟨hgold, hunits⟩ := sums_of_fair hbought.fair
    exact booked_of_dealt (fun _ h => (by cases h)) rfl (.inl rfl) (by rw [hsent, hgold]) (by rw [hsent, hunits]) hw.gold
      hbought.dealt
  | sell me selling =>
    obtain ⟨hme, w', sent, hrun, rfl, hsent⟩ := step_sell hstep
    rcases onSellItem_spec hw.goods hme hrun with ⟨rfl, hnone⟩ | ⟨p, nPrice, hhandle, -, -, -, hone, hsold⟩
    · exact booked_of_dealt (fun _ h => (by cases h)) rfl (.inr rfl) (by rw [hsent, hnone]; rfl) (by rw [hsent, hnone]; rfl)
        hw.gold (.refl hw.goods me 0)
    · have hfind : s.world.findItemByHandle me selling.handle = some p :=
        hw.goods.findByHandle_iff.mpr ⟨hsold.mem, hhandle⟩
      have hwares : wares ⟨s, .sell me selling, { s with world := w' }⟩ = some (s.world.items p).inst.Code := by
        unfold wares
        dsimp only
        rw [hfind, Option.map_some]
      exact booked_of_dealt (fun _ h => (by cases h)) rfl (.inl hwares) (by rw [hsent, hone]; exact add_zero _)
        (by rw [hsent, hone]; exact add_zero _) hw.gold (hsold.dealt hw.goods hme)

/-! ## Runs -/

theorem shopWorld_of_run (hw : ShopWorld w) (hrun : (shopSystem data w).Run h s) : ShopWorld s.world := by
  refine hrun.invariant (I := fun _ s => ShopWorld s.world) (fun s hs => ?_) fun _ s e t _ hs _ hstep => ?_
  · rw [show s = ⟨w, fun _ => ""⟩ from hs]
    exact hw
  · exact (booked_of_step hs hstep).world

theorem showMarket_contact (hsorted : SortedRows le data.rows) (s : ShopState) (me : Handle) (szMarket : String) :
    (s.showMarket data me szMarket).contact =
      if rowsNamed data.rows szMarket = [] then s.contact else Function.update s.contact me szMarket := by
  unfold ShopState.showMarket
  cases hfound : getMarketInfo data.rows szMarket with
  | none =>
    rw [getMarketInfo_eq hsorted] at hfound
    split_ifs at hfound with hnil
    exact (if_pos hnil).symm
  | some market =>
    have heq := hfound
    rw [getMarketInfo_eq hsorted] at heq
    split_ifs at heq with hnil
    obtain rfl := Option.some.inj heq
    cases hrows : rowsNamed data.rows szMarket with
    | nil => exact absurd hrows hnil
    | cons first rest =>
      rw [hrows] at hfound
      rw [if_neg (List.cons_ne_nil _ _)]
      dsimp only
      rw [getMarketInfo_name hsorted hfound]

/-- **The market of a purchase** is the one that the player was shown last. -/
theorem market_of_run (hsorted : SortedRows le data.rows) (hrun : (shopSystem data w).Run h s) :
    ∀ me, (getMarketInfo data.rows (s.contact me)).getD [] = shownTo data me h := by
  refine hrun.invariant (I := fun h s => ∀ me, (getMarketInfo data.rows (s.contact me)).getD [] = shownTo data me h)
    (fun s hs me => ?_) fun h s e t _ ih _ hstep me => ?_
  · have hnone : rowsNamed data.rows "" = [] := List.filter_eq_nil_iff.mpr fun a ha heq =>
      hsorted.named a ha (of_decide_eq_true heq)
    rw [show s = ⟨w, fun _ => ""⟩ from hs, getMarketInfo_eq hsorted, if_pos hnone]
    rfl
  · cases e with
    | showMarket k szMarket =>
      obtain ⟨⟨s₁, sent⟩, hrun, rfl⟩ := Option.map_eq_some_iff.mp hstep.1
      obtain ⟨rfl, rfl⟩ := Prod.mk.inj (Option.some.inj hrun)
      rw [showMarket_contact hsorted, shownTo]
      dsimp only
      by_cases hnil : rowsNamed data.rows szMarket = []
      · rw [if_pos hnil, if_neg (fun h => h.2 hnil), ih]
      · rw [if_neg hnil]
        by_cases hk : k = me
        · rw [if_pos ⟨hk, hnil⟩, hk, Function.update_self, getMarketInfo_eq hsorted, if_neg hnil, Option.getD_some]
        · rw [if_neg (fun h => hk h.1), Function.update_of_ne (Ne.symm hk), ih]
    | buy k packet =>
      obtain ⟨-, w', sent, -, rfl, -⟩ := step_buy hstep
      exact ih me
    | sell k packet =>
      obtain ⟨-, w', sent, -, rfl, -⟩ := step_sell hstep
      exact ih me
    | other w₁ =>
      obtain ⟨⟨s₁, sent⟩, hrun, rfl⟩ := Option.map_eq_some_iff.mp hstep.1
      obtain ⟨rfl, rfl⟩ := Prod.mk.inj (Option.some.inj hrun)
      exact ih me

theorem purchase_of_step (hsorted : SortedRows le data.rows) (hw : ShopWorld w) (hrun : (shopSystem data w).Run h s)
    (hstep : (shopSystem data w).Step s e s') : Purchase data ⟨s, e, s'⟩ h := by
  rintro me packet rfl
  have hs := shopWorld_of_run hw hrun
  obtain ⟨hme, w', sent, hbuy, rfl, hsent⟩ := step_buy hstep
  obtain ⟨hbought, -⟩ := onBuyItem_spec hs.goods hme hs.gold hbuy
  rw [market_of_run hsorted hrun] at hbought
  rw [hsent]
  exact ⟨hbought.rows, hbought.fair⟩

theorem sale_of_step (hw : ShopWorld s.world) (hstep : (shopSystem data w).Step s e s') : Sale data ⟨s, e, s'⟩ := by
  rintro me packet rfl hne
  obtain ⟨hme, w', sent, hsell, rfl, hsent⟩ := step_sell hstep
  rw [hsent] at hne ⊢
  rcases onSellItem_spec hw.goods hme hsell with ⟨rfl, hnone⟩ | ⟨p, nPrice, hhandle, -, hprice, -, hone, hsold⟩
  · exact absurd hnone hne
  · exact ⟨p, nPrice, hsold.mem, hhandle, hsold.enough, hprice, hone⟩

/-- A player with a stack of five units and ten pieces of gold; its code is the only one that has a template. -/
def booth : World :=
  { vault with
    items := fun p => (vault.items p).setLevel 1
    itemBase := fun code => if code = 7 then vault.itemBase 7 else none }

theorem booth_ok : ShopWorld booth where
  goods :=
    { vault_ok with
      stocked := fun r => ⟨(vault_stocked r).position, (vault_stocked r).expire, (vault_stocked r).based, (vault_stocked r).heap⟩
      held := fun r p hp => by
        obtain ⟨rfl, rfl⟩ := vault_vList hp
        exact ⟨rfl, rfl, by decide, fun _ => by decide, fun _ => ⟨rfl, rfl⟩⟩
      claims := fun k p hk => ⟨(vault_ok.claims k p hk).1, (vault_ok.claims k p hk).2⟩ }
  gold := rfl

/-- One market with one row, at three pieces of gold; the item is worth four, and is sold for half of that. -/
def stall : ShopData where
  rows := [⟨"market", 7, 3, ⟨3, 0, by decide, .inl (by norm_num)⟩⟩]
  tags _ := ⟨4, 0⟩

theorem stall_sorted : SortedRows (· = ·) stall.rows where
  antisymm _ _ h _ := h
  sorted := List.pairwise_singleton _ _
  named info hinfo := by
    rw [List.mem_singleton.mp hinfo]
    decide

/-- The events that no other handler has a part in. -/
def serve (data : ShopData) (s : ShopState) : ShopEvent → Option ShopState
  | .other _ => none
  | e => (s.step data e).map Prod.fst

theorem step_of_serve (hserve : serve data s e = some s') : (shopSystem data w).Step s e s' := by
  cases e with
  | other w₁ => cases hserve
  | showMarket => exact ⟨hserve, fun _ h => (by cases h)⟩
  | buy => exact ⟨hserve, fun _ h => (by cases h)⟩
  | sell => exact ⟨hserve, fun _ h => (by cases h)⟩

end Shop

end RZEmulator.Chihiro
