import RZEmulator.Chihiro.TradeSession

/-!
# What a trade message does to trades

Moving goods leaves everybody's trade alone (`SameTrades`), so the state of all trades can be followed
without looking at items. `onTrade_effect` says what is left: a message starts a trade of two players who
had none, changes the sender's offer, freezes or accepts it, or cancels the trades of at most two
players.
-/

namespace RZEmulator.Chihiro.World

/-- Nobody's trade changes, and nobody comes or goes. -/
structure SameTrades (w w' : World) : Prop where
  tradeOf : ∀ h, w'.tradeOf h = w.tradeOf h
  playerPool : w'.playerPool = w.playerPool

variable {w w' w₁ w₂ : World} {r : InvRef} {p : ItemPtr} {h target me k : Handle} {cnt : Int}

namespace SameTrades

theorem refl (w : World) : SameTrades w w := ⟨fun _ => rfl, rfl⟩

theorem trans (h₁ : SameTrades w w₁) (h₂ : SameTrades w₁ w₂) : SameTrades w w₂ :=
  ⟨fun h => (h₂.tradeOf h).trans (h₁.tradeOf h), h₂.playerPool.trans h₁.playerPool⟩

theorem updItem (w : World) (p : ItemPtr) (f : Item → Item) : SameTrades w (w.updItem p f) :=
  ⟨fun _ => rfl, rfl⟩

theorem updPlayer (w : World) (h : Handle) {g : Player → Player} (hg : ∀ a, (g a).trade = a.trade) :
    SameTrades w (w.updPlayer h g) := by
  refine ⟨fun k => ?_, rfl⟩
  unfold World.tradeOf
  rw [updPlayer_players]
  split_ifs with hk
  · rw [hg, hk]
  · rfl

theorem updInv (w : World) (r : InvRef) (u : Inventory → Inventory) : SameTrades w (w.updInv r u) :=
  updPlayer w r.owner fun _ => by cases r.kind <;> rfl

theorem getTradeTarget (hs : SameTrades w w') (h : Handle) :
    w'.getTradeTarget h = w.getTradeTarget h := by
  unfold World.getTradeTarget findPlayer
  rw [hs.tradeOf, hs.playerPool]

end SameTrades

theorem Quiet.sameTrades (hq : Quiet w w') : SameTrades w w' :=
  ⟨fun h => congrArg Player.Persona.trade (hq.persona h), hq.playerPool⟩

/-! ## Moving goods -/

theorem carry_sameTrades (w : World) (r : InvRef) (p : ItemPtr) (d : ℚ) :
    SameTrades w (w.carry r p d) :=
  (SameTrades.updInv w r _).trans (carry_quietAt p w r p d).sameTrades

theorem setCount_sameTrades (w : World) (r : InvRef) (p : ItemPtr) (n : Int) :
    SameTrades w (w.setCount r p n) :=
  (SameTrades.updItem w p _).trans (updateWeightWithInventory_quietAt p _ _).sameTrades

theorem push_sameTrades {q : ItemPtr} (hrun : w.push r p cnt = some (q, w')) : SameTrades w w' := by
  rcases push_eq_some hrun with ⟨-, -, -, hq⟩ | ⟨-, -, -, hq⟩
  · exact (((SameTrades.updInv w r _).trans (.updInv _ r _)).trans (.updItem _ p _)).trans hq.sameTrades
  · exact ((SameTrades.updInv w r _).trans (.updItem _ q _)).trans hq.sameTrades

theorem rawPop_sameTrades (hrun : w.rawPop r p = some w') : SameTrades w w' := by
  obtain ⟨back, -, rfl⟩ := Option.map_eq_some_iff.mp hrun
  refine (onRemove_quietAt w r p).sameTrades.trans ?_
  unfold takeOut
  split_ifs
  · exact (SameTrades.updItem _ back _).trans (.updInv _ r _)
  · exact .updInv _ r _

theorem pop_sameTrades {o : Option ItemPtr} (hrun : w.pop r p cnt = some (o, w')) :
    SameTrades w w' := by
  unfold pop at hrun
  split_ifs at hrun
  · simp only [Option.bind_eq_bind, Option.bind_eq_some_iff, Option.pure_def, Option.some.injEq,
      Prod.mk.injEq] at hrun
    obtain ⟨d, -, n, -, -, rfl⟩ := hrun
    have hdivide : SameTrades w (w.divide p cnt) := ⟨fun _ => rfl, rfl⟩
    exact (hdivide.trans (carry_sameTrades _ r p _)).trans (setCount_sameTrades _ r p n)
  · simp only [Option.bind_eq_bind, Option.bind_eq_some_iff, Option.pure_def, Option.some.injEq,
      Prod.mk.injEq] at hrun
    obtain ⟨d, -, w₁, hw₁, -, rfl⟩ := hrun
    exact (carry_sameTrades w r p _).trans (rawPop_sameTrades hw₁)
  · obtain ⟨-, rfl⟩ := Prod.mk.inj (Option.some.inj hrun)
    exact .refl w

theorem changeGold_sameTrades (w : World) (h : Handle) (n : Int) :
    SameTrades w (w.changeGold h n).2 := by
  unfold changeGold
  split_ifs
  · exact .refl w
  · exact .refl w
  · exact SameTrades.updPlayer w h (g := fun p => { p with nGold := n }) fun _ => rfl
  · exact .refl w

theorem assignIdx_sameTrades (w : World) (h : Handle) (p : ItemPtr) :
    SameTrades w (w.assignIdx h p) := by
  unfold assignIdx
  split_ifs
  · exact (SameTrades.updInv w _ _).trans (.updItem _ p _)
  · exact .refl w

theorem pushItem_sameTrades {o : Option ItemPtr} (hrun : w.pushItem h p cnt = some (o, w')) :
    SameTrades w w' := by
  unfold pushItem at hrun
  split_ifs at hrun
  · obtain ⟨-, rfl⟩ := Prod.mk.inj (Option.some.inj hrun)
    exact .refl w
  · obtain ⟨gold, -, heq⟩ := Option.map_eq_some_iff.mp hrun
    obtain ⟨-, rfl⟩ := Prod.mk.inj heq
    exact (changeGold_sameTrades w h gold).trans (.updItem _ p _)
  · obtain ⟨⟨q, w₁⟩, hpush, heq⟩ := Option.map_eq_some_iff.mp hrun
    obtain ⟨-, rfl⟩ := Prod.mk.inj heq
    exact (assignIdx_sameTrades w h p).trans (push_sameTrades hpush)

theorem popItem_sameTrades {o : Option ItemPtr} (hrun : w.popItem h p cnt = some (o, w')) :
    SameTrades w w' := by
  unfold popItem at hrun
  split_ifs at hrun
  · exact pop_sameTrades hrun
  · obtain ⟨-, rfl⟩ := Prod.mk.inj (Option.some.inj hrun)
    exact .refl w

theorem handOver_sameTrades (hrun : w.handOver h target p cnt = some w') : SameTrades w w' := by
  obtain ⟨⟨o, w₁⟩, hpop, hrun⟩ := Option.bind_eq_some_iff.mp hrun
  obtain ⟨item, -, hrun⟩ := Option.bind_eq_some_iff.mp hrun
  obtain ⟨⟨q, w₂⟩, hpush, rfl⟩ := Option.map_eq_some_iff.mp hrun
  have hmoved : SameTrades w w₂ :=
    ((popItem_sameTrades hpop).trans (.updItem w₁ item _)).trans (pushItem_sameTrades hpush)
  cases q with
  | none => exact hmoved
  | some q =>
    dsimp only
    split_ifs
    · exact hmoved.trans (.updItem w₂ item _)
    · exact hmoved

theorem giveItem_sameTrades {handle : Handle} {b : Bool}
    (hrun : w.giveItem h target handle cnt = some (b, w')) : SameTrades w w' := by
  unfold giveItem at hrun
  split at hrun
  · obtain ⟨-, rfl⟩ := Prod.mk.inj (Option.some.inj hrun)
    exact .refl w
  · obtain ⟨tradable, -, hrun⟩ := Option.bind_eq_some_iff.mp hrun
    split_ifs at hrun
    · obtain ⟨-, rfl⟩ := Prod.mk.inj (Option.some.inj hrun)
      exact .refl w
    · obtain ⟨w₁, hw₁, heq⟩ := Option.map_eq_some_iff.mp hrun
      obtain ⟨-, rfl⟩ := Prod.mk.inj heq
      exact handOver_sameTrades hw₁

/-! ## `ProcessTrade` -/

theorem payTradeGold_sameTrades {gold : Int} {c : ResultCode}
    (hrun : w.payTradeGold h target gold = some (c, w')) : SameTrades w w' := by
  obtain ⟨rest, -, hrun⟩ := Option.bind_eq_some_iff.mp hrun
  have hpaid := changeGold_sameTrades w h rest
  split at hrun
  · rename_i w₁ heq₁
    rw [heq₁] at hpaid
    obtain ⟨sum, -, hrun⟩ := Option.map_eq_some_iff.mp hrun
    have hgot := hpaid.trans (changeGold_sameTrades w₁ target sum)
    split at hrun
    · rename_i w₂ heq₂
      rw [heq₂] at hgot
      obtain ⟨-, rfl⟩ := Prod.mk.inj hrun
      exact hgot
    · rename_i c₂ w₂ _ heq₂
      rw [heq₂] at hgot
      obtain ⟨-, rfl⟩ := Prod.mk.inj hrun
      exact hgot.trans (changeGold_sameTrades w₂ h _)
  · rename_i c₁ w₁ _ heq₁
    rw [heq₁] at hpaid
    obtain ⟨-, rfl⟩ := Prod.mk.inj (Option.some.inj hrun)
    exact hpaid.trans (changeGold_sameTrades w₁ h _)

theorem processTradeGold_sameTrades {c : ResultCode} (hrun : w.processTradeGold h = some (c, w')) :
    SameTrades w w' := by
  have hstay : ∀ {c' : ResultCode}, some (c', w) = some (c, w') → SameTrades w w' := fun heq => by
    obtain ⟨-, rfl⟩ := Prod.mk.inj (Option.some.inj heq)
    exact .refl w
  unfold processTradeGold at hrun
  cases htarget : w.getTradeTarget h with
  | none =>
    rw [htarget] at hrun
    split_ifs at hrun <;> exact hstay hrun
  | some target =>
    rw [htarget] at hrun
    split_ifs at hrun
    · exact hstay hrun
    · exact hstay hrun
    · exact hstay hrun
    · exact payTradeGold_sameTrades hrun
    · exact hstay hrun

theorem giveItems_sameTrades {es : List (Handle × Int)} {c : ResultCode} {w : World}
    (hrun : w.giveItems h target es = some (c, w')) : SameTrades w w' := by
  induction es generalizing w with
  | nil =>
    obtain ⟨-, rfl⟩ := Prod.mk.inj (Option.some.inj hrun)
    exact .refl w
  | cons e es ih =>
    obtain ⟨⟨b, w₁⟩, hgive, hrun⟩ := Option.bind_eq_some_iff.mp hrun
    have hone := giveItem_sameTrades hgive
    dsimp only at hrun
    split_ifs at hrun
    · exact hone.trans (ih hrun)
    · obtain ⟨-, rfl⟩ := Prod.mk.inj (Option.some.inj hrun)
      exact hone

theorem processTradeItem_sameTrades {c : ResultCode} (hrun : w.processTradeItem h = some (c, w')) :
    SameTrades w w' := by
  have hstay : ∀ {c' : ResultCode}, some (c', w) = some (c, w') → SameTrades w w' := fun heq => by
    obtain ⟨-, rfl⟩ := Prod.mk.inj (Option.some.inj heq)
    exact .refl w
  unfold processTradeItem at hrun
  cases htarget : w.getTradeTarget h with
  | none =>
    rw [htarget] at hrun
    exact hstay hrun
  | some target =>
    rw [htarget] at hrun
    dsimp only at hrun
    split_ifs at hrun
    · exact giveItems_sameTrades hrun
    · exact hstay hrun

theorem restoreGold_sameTrades (w : World) (h target : Handle) (gold targetGold : Int) :
    SameTrades w (w.restoreGold h target gold targetGold) := by
  have hfirst := changeGold_sameTrades w h gold
  unfold restoreGold
  split
  · rename_i w₁ heq
    rw [heq] at hfirst
    exact hfirst.trans (changeGold_sameTrades w₁ target _)
  · rename_i heq
    rw [heq] at hfirst
    exact hfirst

theorem exchangeGold_sameTrades {b : Bool} (hrun : w.exchangeGold h target = some (b, w')) :
    SameTrades w w' := by
  obtain ⟨⟨c, w₁⟩, hmine, hrun⟩ := Option.bind_eq_some_iff.mp hrun
  have hone := processTradeGold_sameTrades hmine
  dsimp only at hrun
  split_ifs at hrun
  · obtain ⟨-, rfl⟩ := Prod.mk.inj (Option.some.inj hrun)
    exact hone.trans (restoreGold_sameTrades w₁ _ _ _ _)
  · obtain ⟨⟨c₂, w₂⟩, hother, heq⟩ := Option.map_eq_some_iff.mp hrun
    have htwo := hone.trans (processTradeGold_sameTrades hother)
    dsimp only at heq
    split_ifs at heq
    · obtain ⟨-, rfl⟩ := Prod.mk.inj heq
      exact htwo.trans (restoreGold_sameTrades w₂ _ _ _ _)
    · obtain ⟨-, rfl⟩ := Prod.mk.inj heq
      exact htwo

/-! ## The window of one side -/

theorem setTrade_tradeOf (w : World) (h : Handle) (t : TradeInfo) (k : Handle) :
    (w.setTrade h t).tradeOf k = if k = h then t else w.tradeOf k := by
  unfold tradeOf setTrade
  rw [updPlayer_players]
  split_ifs <;> rfl

theorem cancelTrade_tradeOf (w : World) (h k : Handle) :
    (w.cancelTrade h).tradeOf k = if k = h then {} else w.tradeOf k := setTrade_tradeOf w h {} k

/-- Whoever is in `gone` has his trade cancelled; nothing else happens to trades. -/
structure Cancels (w w' : World) (gone : List Handle) : Prop where
  tradeOf : ∀ k, w'.tradeOf k = if k ∈ gone then {} else w.tradeOf k
  playerPool : w'.playerPool = w.playerPool

theorem cancels_one (w : World) (h : Handle) : Cancels w (w.cancelTrade h) [h] := by
  refine ⟨fun k => ?_, rfl⟩
  rw [cancelTrade_tradeOf]
  simp only [List.mem_singleton]

theorem cancels_two (w : World) (h k : Handle) : Cancels w ((w.cancelTrade h).cancelTrade k) [h, k] := by
  refine ⟨fun j => ?_, rfl⟩
  rw [cancelTrade_tradeOf, cancelTrade_tradeOf]
  simp only [List.mem_cons, List.not_mem_nil, or_false]
  split_ifs <;> simp_all

theorem exchangeItems_tradeOf {b : Bool} (hrun : w.exchangeItems h target = some (b, w')) :
    w'.playerPool = w.playerPool ∧ ∀ k, k ∉ [h, target] → w'.tradeOf k = w.tradeOf k := by
  obtain ⟨⟨c, w₁⟩, hmine, hrun⟩ := Option.bind_eq_some_iff.mp hrun
  have hone := processTradeItem_sameTrades hmine
  dsimp only at hrun
  split_ifs at hrun
  · obtain ⟨-, rfl⟩ := Prod.mk.inj (Option.some.inj hrun)
    exact ⟨hone.playerPool, fun k _ => hone.tradeOf k⟩
  · obtain ⟨⟨c₂, w₂⟩, hother, heq⟩ := Option.map_eq_some_iff.mp hrun
    have htwo := hone.trans (processTradeItem_sameTrades hother)
    dsimp only at heq
    split_ifs at heq
    · obtain ⟨-, rfl⟩ := Prod.mk.inj heq
      exact ⟨htwo.playerPool, fun k _ => htwo.tradeOf k⟩
    · obtain ⟨-, rfl⟩ := Prod.mk.inj heq
      refine ⟨htwo.playerPool, fun k hk => ?_⟩
      have hclear := (cancels_two w₂ h target).tradeOf k
      rw [if_neg hk] at hclear
      exact hclear.trans (htwo.tradeOf k)

theorem processTrade_tradeOf {b : Bool} (htarget : w.getTradeTarget h = some target)
    (hrun : w.processTrade h = some (b, w')) :
    w'.playerPool = w.playerPool ∧ ∀ k, k ∉ [h, target] → w'.tradeOf k = w.tradeOf k := by
  unfold processTrade at hrun
  rw [htarget] at hrun
  split_ifs at hrun
  · obtain ⟨⟨paid, w₁⟩, hgold, hrun⟩ := Option.bind_eq_some_iff.mp hrun
    have hsame := exchangeGold_sameTrades hgold
    dsimp only at hrun
    split_ifs at hrun
    · obtain ⟨hpool, htrades⟩ := exchangeItems_tradeOf hrun
      exact ⟨hpool.trans hsame.playerPool, fun k hk => (htrades k hk).trans (hsame.tradeOf k)⟩
    · obtain ⟨-, rfl⟩ := Prod.mk.inj (Option.some.inj hrun)
      exact ⟨hsame.playerPool, fun k _ => hsame.tradeOf k⟩
  · obtain ⟨-, rfl⟩ := Prod.mk.inj (Option.some.inj hrun)
    exact ⟨rfl, fun _ _ => rfl⟩

/-! ## Messages -/

/-- Whose trade a message cancels without regard to the other party: the sender's, if it moves, removes
an item in front of nobody or offers gold too late; the sender's and its battle target's, if it names
itself; the sender's and the named player's, if it confirms a trade that is not ready. -/
def drops (w : World) (me : Handle) (packet : TradePacket) : List Handle :=
  if (w.players me).bIsUsingStorage then []
  else if (w.players me).bIsMoving ∧ (w.players me).inWorld then [me]
  else if packet.target_player = me then
    if (w.players me).hBattleTarget ≠ 0 then [(w.players me).hBattleTarget, me] else [me]
  else
    match packet.mode with
    | .removeItem => if ¬w.isValidTradeTarget me packet.target_player then [me] else []
    | .addGold => if (w.tradeOf me).bTradeFreezed then [me] else []
    | .confirmTrade =>
      if w.isValidTradeTarget me packet.target_player ∧ ¬w.tradeReady me packet.target_player then
        [me, packet.target_player]
      else []
    | _ => []

/-- The trades that a message cancels. -/
inductive Cancelled (w : World) (me : Handle) (packet : TradePacket) : List Handle → Prop
  | dropped : Cancelled w me packet (w.drops me packet)
  /-- The sender has no target, or cancels, when that one is gone. -/
  | alone (hnone : w.getTradeTarget me = none) : Cancelled w me packet [me]
  | cancelled {target : Handle} (hme : (w.tradeOf me).bTrading = true)
      (htarget : w.getTradeTarget me = some target) : Cancelled w me packet [target, me]
  /-- Both sides have confirmed. -/
  | settled (haccepts : w.accepts me packet = true)
      (haccepted : (w.tradeOf packet.target_player).bTradeAccepted = true) :
      Cancelled w me packet [me, packet.target_player]

/-- What a message does to trades. -/
inductive TradeEffect (w w' : World) (me : Handle) (packet : TradePacket) : Prop
  | same (hsame : SameTrades w w')
  | cancels {gone : List Handle} (hgone : Cancelled w me packet gone) (hcancels : Cancels w w' gone)
  | starts (hne : packet.target_player ≠ me) (hpool : w.playerPool packet.target_player = true)
      (hme : (w.tradeOf me).bTrading = false) (htarget : (w.tradeOf packet.target_player).bTrading = false)
      (heq : w' = (w.startTrade me packet.target_player).startTrade packet.target_player me)
  /-- The sender's offer changes, which is not frozen. -/
  | offers {t : TradeInfo} (hfree : (w.tradeOf me).bTradeFreezed = false)
      (ht : t = { w.tradeOf me with nTradeGold := t.nTradeGold, vTradeItemList := t.vTradeItemList })
      (heq : w' = w.setTrade me t)
  | freezes (htarget : (w.getTradeTarget me).isSome) (heq : w' = w.freezeTrade me)
  | accepts (haccepts : w.accepts me packet = true)
      (hfirst : (w.tradeOf packet.target_player).bTradeAccepted = false) (heq : w' = w.confirmTrade me)

theorem onAcceptTrade_effect {packet : TradePacket} (hne : packet.target_player ≠ me) :
    TradeEffect w (w.onAcceptTrade me packet.target_player) me packet := by
  unfold onAcceptTrade
  split_ifs with hvalid hbusy
  · exact .same (.refl w)
  · simp only [not_or, Bool.not_eq_true] at hbusy
    refine .starts hne ?_ hbusy.1 hbusy.2.1 rfl
    unfold isValidTradeTarget at hvalid
    simp only [Bool.and_eq_true] at hvalid
    exact hvalid.1.1
  · exact .same (.refl w)

theorem onCancelTrade_effect {packet : TradePacket} :
    TradeEffect w (w.onCancelTrade me) me packet := by
  unfold onCancelTrade
  split_ifs with htrading
  · cases htarget : w.getTradeTarget me with
    | none => exact .cancels (.alone htarget) (cancels_one w me)
    | some target => exact .cancels (.cancelled htrading htarget) (cancels_two w target me)
  · exact .same (.refl w)

theorem addItemToTradeWindow_effect {packet : TradePacket} (n : Int) :
    TradeEffect w (w.addItemToTradeWindow me p n) me packet := by
  unfold addItemToTradeWindow
  split_ifs with hfree
  · exact .offers (by simpa using hfree.1) rfl rfl
  · exact .same (.refl w)

theorem onAddItem_effect {packet : TradePacket} (hrun : w.onAddItem me packet = some w') :
    TradeEffect w w' me packet := by
  have hstay : some w = some w' → TradeEffect w w' me packet := fun heq => by
    obtain rfl := Option.some.inj heq
    exact .same (.refl w)
  unfold onAddItem at hrun
  cases hitem : w.findItemByHandle me packet.handle with
  | none =>
    rw [hitem] at hrun
    dsimp only at hrun
    split_ifs at hrun <;> exact hstay hrun
  | some p =>
    rw [hitem] at hrun
    dsimp only at hrun
    split_ifs at hrun
    · exact hstay hrun
    · exact hstay hrun
    · exact hstay hrun
    · obtain ⟨tradable, -, rfl⟩ := Option.map_eq_some_iff.mp hrun
      split_ifs
      · exact addItemToTradeWindow_effect _
      · exact .same (.refl w)
    · exact hstay hrun

theorem onRemoveItem_effect {packet : TradePacket}
    (hdrops : w.drops me packet = if ¬w.isValidTradeTarget me packet.target_player then [me] else []) :
    TradeEffect w (w.onRemoveItem me packet) me packet := by
  unfold onRemoveItem
  split_ifs with hvalid hfrozen
  · exact .same (.refl w)
  · cases w.findItemByHandle me packet.handle with
    | none => exact .same (.refl w)
    | some p =>
      dsimp only
      split_ifs
      · exact .same (.refl w)
      · unfold removeItemFromTradeWindow
        split_ifs with hfree
        · exact .offers (by simpa using hfree.1) rfl rfl
        · exact .same (.refl w)
  · rw [if_pos hvalid] at hdrops
    exact .cancels .dropped (hdrops ▸ cancels_one w me)

theorem onAddGold_effect {packet : TradePacket}
    (hdrops : w.drops me packet = if (w.tradeOf me).bTradeFreezed then [me] else []) :
    TradeEffect w (w.onAddGold me packet) me packet := by
  unfold onAddGold
  split_ifs with hfrozen
  · rw [if_pos hfrozen] at hdrops
    exact .cancels .dropped (hdrops ▸ cancels_one w me)
  · exact .same (.refl w)
  · unfold addGoldToTradeWindow
    rw [if_pos hfrozen]
    exact .offers (by simpa using hfrozen) rfl rfl
  · exact .same (.refl w)

theorem onFreezeTrade_effect {packet : TradePacket} :
    TradeEffect w (w.onFreezeTrade me) me packet := by
  unfold onFreezeTrade
  cases htarget : w.getTradeTarget me with
  | none => exact .cancels (.alone htarget) (cancels_one w me)
  | some target => exact .freezes (by rw [htarget]; rfl) rfl

/-- Whatever the checks and `ProcessTrade` do, the trades of the two are cancelled and no others. -/
theorem settleTrade_cancels (hrun : w.settleTrade me target = some w') :
    Cancels w w' [me, target] := by
  obtain ⟨passes, hpasses, hrun⟩ := Option.bind_eq_some_iff.mp hrun
  split_ifs at hrun with hp
  · obtain ⟨⟨b, w₁⟩, hprocess, rfl⟩ := Option.map_eq_some_iff.mp hrun
    have htarget : w.getTradeTarget me = some target := by
      obtain ⟨light, -, hpasses⟩ := Option.bind_eq_some_iff.mp hpasses
      split_ifs at hpasses
      · rw [← Option.some.inj hpasses] at hp
        cases hp
      · obtain ⟨a, -, hpasses⟩ := Option.bind_eq_some_iff.mp hpasses
        obtain ⟨b, -, hb⟩ := Option.map_eq_some_iff.mp hpasses
        rw [← hb] at hp
        exact (of_decide_eq_true hp).2.2
    obtain ⟨hpool, htrades⟩ := processTrade_tradeOf htarget hprocess
    have hcancels := cancels_two w₁ me target
    refine ⟨fun k => ?_, hcancels.playerPool.trans hpool⟩
    rw [show ((b, w₁).2.cancelBoth me target).tradeOf k = _ from hcancels.tradeOf k]
    split_ifs with hk
    · rfl
    · exact htrades k hk
  · obtain rfl := Option.some.inj hrun
    exact cancels_two w me target

theorem onConfirmTrade_effect {packet : TradePacket} (hne : packet.target_player ≠ me)
    (hdrops : w.drops me packet =
      if w.isValidTradeTarget me packet.target_player ∧ ¬w.tradeReady me packet.target_player then
        [me, packet.target_player]
      else [])
    (haccepts : w.accepts me packet = (w.isValidTradeTarget me packet.target_player &&
      w.tradeReady me packet.target_player && !(w.tradeOf me).bTradeAccepted))
    (hrun : w.onConfirmTrade me packet.target_player = some w') : TradeEffect w w' me packet := by
  have hother : (w.confirmTrade me).tradeOf packet.target_player = w.tradeOf packet.target_player := by
    rw [confirmTrade, setTrade_tradeOf, if_neg hne]
  unfold onConfirmTrade at hrun
  rw [hother] at hrun
  split_ifs at hrun with hvalid hready hmine hfirst
  · obtain rfl := Option.some.inj hrun
    exact .same (.refl w)
  · have hacc : w.accepts me packet = true := by simp_all
    have hcancels := settleTrade_cancels hrun
    refine .cancels (.settled hacc hfirst) ⟨fun k => ?_, hcancels.playerPool⟩
    rw [hcancels.tradeOf]
    split_ifs with hk
    · rfl
    · rw [confirmTrade, setTrade_tradeOf, if_neg (by rintro rfl; exact hk (List.mem_cons_self ..))]
  · have hacc : w.accepts me packet = true := by simp_all
    obtain rfl := Option.some.inj hrun
    exact .accepts hacc (by simpa using hfirst) rfl
  · obtain rfl := Option.some.inj hrun
    rw [if_pos ⟨hvalid, hready⟩] at hdrops
    exact .cancels .dropped (hdrops ▸ cancels_two w me _)
  · obtain rfl := Option.some.inj hrun
    exact .same (.refl w)

/-- **What a message does to trades.** -/
theorem onTrade_effect {packet : TradePacket} (hrun : w.onTrade me packet = some w') :
    TradeEffect w w' me packet := by
  unfold onTrade at hrun
  split_ifs at hrun with hstorage hmoving hself
  · obtain rfl := Option.some.inj hrun
    exact .same (.refl w)
  · obtain rfl := Option.some.inj hrun
    have hdrops : w.drops me packet = [me] := by rw [drops, if_neg hstorage, if_pos hmoving]
    exact .cancels .dropped (hdrops ▸ cancels_one w me)
  · unfold onSelfTrade at hrun
    split_ifs at hrun with hbattle
    · obtain ⟨target, htarget, rfl⟩ := Option.map_eq_some_iff.mp hrun
      have hdrops : w.drops me packet = [target, me] := by
        rw [drops, if_neg hstorage, if_neg hmoving, if_pos hself, if_pos hbattle,
          (findPlayer_eq_some.mp htarget).2]
      exact .cancels .dropped (hdrops ▸ cancels_two w target me)
    · obtain rfl := Option.some.inj hrun
      have hdrops : w.drops me packet = [me] := by
        rw [drops, if_neg hstorage, if_neg hmoving, if_pos hself, if_neg hbattle]
      exact .cancels .dropped (hdrops ▸ cancels_one w me)
  · have hdrops : ∀ {l : List Handle}, (match packet.mode with
        | .removeItem => if ¬w.isValidTradeTarget me packet.target_player then [me] else []
        | .addGold => if (w.tradeOf me).bTradeFreezed then [me] else []
        | .confirmTrade =>
          if w.isValidTradeTarget me packet.target_player ∧ ¬w.tradeReady me packet.target_player then
            [me, packet.target_player]
          else []
        | _ => []) = l → w.drops me packet = l := fun hl => by
      rw [drops, if_neg hstorage, if_neg hmoving, if_neg hself]
      exact hl
    cases hmode : packet.mode with
    | requestTrade | rejectTrade | other =>
      rw [hmode] at hrun
      obtain rfl := Option.some.inj hrun
      exact .same (.refl w)
    | acceptTrade =>
      rw [hmode] at hrun
      obtain rfl := Option.some.inj hrun
      exact onAcceptTrade_effect hself
    | cancelTrade =>
      rw [hmode] at hrun
      obtain rfl := Option.some.inj hrun
      exact onCancelTrade_effect
    | addItem =>
      rw [hmode] at hrun
      exact onAddItem_effect hrun
    | removeItem =>
      rw [hmode] at hrun
      obtain rfl := Option.some.inj hrun
      exact onRemoveItem_effect (hdrops (by rw [hmode]))
    | addGold =>
      rw [hmode] at hrun
      obtain rfl := Option.some.inj hrun
      exact onAddGold_effect (hdrops (by rw [hmode]))
    | freezeTrade =>
      rw [hmode] at hrun
      obtain rfl := Option.some.inj hrun
      exact onFreezeTrade_effect
    | confirmTrade =>
      rw [hmode] at hrun
      refine onConfirmTrade_effect hself (hdrops (by rw [hmode])) ?_ hrun
      have hstill : ((w.players me).bIsMoving && (w.players me).inWorld) = false := by simpa using hmoving
      have hother : (packet.target_player != me) = true := by simpa using hself
      simp [accepts, hstorage, hstill, hother, hmode]

end RZEmulator.Chihiro.World
