import RZEmulator.Chihiro.TradeConsent
import RZEmulator.Chihiro.TradeExchange

/-!
# Goods along runs of trades

No trade message moves goods except a confirmation that reaches `ProcessTrade` (`onTrade_goods`), so worlds
stay well formed along every run. A window is written by `TM_ADD_ITEM`, which shows its 64-bit count to both
players and puts it into a table of 32-bit counts: `shownCount` is the count that was shown, and
`shown_of_run` says what it has to do with the table.
-/

namespace RZEmulator.Chihiro.World

open Lib

variable {w w' w₁ w₂ : World} {me target a k : Handle} {packet : TradePacket} {e : TradeEvent}
  {h : History World TradeEvent} {t : TradeInfo}

/-- `onAddItem` gets as far as `SendTradeItemInfo`, which shows the item and its count to both sides. -/
def showsItem (w : World) (me : Handle) (packet : TradePacket) : Bool :=
  !(w.players me).bIsUsingStorage && !((w.players me).bIsMoving && (w.players me).inWorld) &&
    packet.target_player != me && packet.mode == .addItem &&
    w.isValidTradeTarget me packet.target_player && !(w.tradeOf me).bTradeFreezed &&
    (w.findItemByHandle me packet.handle).any fun p => (w.items p).itemBase.isSome &&
      decide (0 < packet.count) && decide (packet.count ≤ (w.items p).inst.nCount) &&
      w.isTradable me p == some true

/-- What a message does to the table of `a`. -/
inductive TableEffect (w : World) (me : Handle) (packet : TradePacket) (a : Handle) :
    List (Handle × Int) → Prop
  | same (hno : w.showsItem me packet = false ∨ a ≠ me) :
      TableEffect w me packet a (w.tradeOf a).vTradeItemList
  | cleared : TableEffect w me packet a []
  | removed {handle : Handle} (hno : w.showsItem me packet = false) :
      TableEffect w me packet a ((w.tradeOf a).remove handle).vTradeItemList
  | added (hme : a = me) (hshows : w.showsItem me packet = true) : TableEffect w me packet a
      ((w.tradeOf a).assign packet.handle (narrow32 packet.count)).vTradeItemList

/-- What a message does that moves nothing. -/
structure Handled (w w' : World) (me : Handle) (packet : TradePacket) : Prop where
  goods : SameGoods w w'
  nGold : ∀ a, (w'.players a).nGold = (w.players a).nGold
  table : ∀ a, TableEffect w me packet a (w'.tradeOf a).vTradeItemList

@[simp] theorem setTrade_nGold (w : World) (h : Handle) (t : TradeInfo) (a : Handle) :
    ((w.setTrade h t).players a).nGold = (w.players a).nGold := by
  rw [setTrade, updPlayer_players]
  split_ifs with ha
  · rw [ha]
  · rfl

namespace Handled

theorem refl (hno : w.showsItem me packet = false) : Handled w w me packet :=
  ⟨.refl w, fun _ => rfl, fun _ => .same (.inl hno)⟩

theorem setTrade (hh : Handled w w' me packet)
    (ht : TableEffect w me packet k t.vTradeItemList) : Handled w (w'.setTrade k t) me packet := by
  refine ⟨hh.goods.trans (setTrade_sameGoods w' k t), fun a => (setTrade_nGold w' k t a).trans (hh.nGold a),
    fun a => ?_⟩
  rw [setTrade_tradeOf]
  split_ifs with ha
  · exact ha ▸ ht
  · exact hh.table a

theorem cancelTrade (hh : Handled w w' me packet) (k : Handle) : Handled w (w'.cancelTrade k) me packet :=
  hh.setTrade .cleared

theorem startTrade (hh : Handled w w' me packet) (k target : Handle) :
    Handled w (w'.startTrade k target) me packet := by
  unfold World.startTrade
  split_ifs
  · exact hh.setTrade .cleared
  · exact hh

end Handled

theorem onAcceptTrade_handled (hno : w.showsItem me packet = false) :
    Handled w (w.onAcceptTrade me target) me packet := by
  unfold onAcceptTrade
  split_ifs
  · exact .refl hno
  · exact ((Handled.refl hno).startTrade me target).startTrade target me
  · exact .refl hno

theorem onCancelTrade_handled (hno : w.showsItem me packet = false) :
    Handled w (w.onCancelTrade me) me packet := by
  unfold onCancelTrade
  split_ifs
  · split
    · exact (Handled.refl hno).cancelTrade me
    · exact ((Handled.refl hno).cancelTrade _).cancelTrade me
  · exact .refl hno

theorem onRemoveItem_handled (hno : w.showsItem me packet = false) :
    Handled w (w.onRemoveItem me packet) me packet := by
  unfold onRemoveItem
  split_ifs
  · exact .refl hno
  · split
    · exact .refl hno
    · split_ifs
      · exact .refl hno
      · unfold removeItemFromTradeWindow
        split_ifs
        · exact (Handled.refl hno).setTrade (.removed hno)
        · exact .refl hno
  · exact (Handled.refl hno).cancelTrade me

theorem onAddGold_handled (hno : w.showsItem me packet = false) :
    Handled w (w.onAddGold me packet) me packet := by
  unfold onAddGold
  split_ifs
  · exact (Handled.refl hno).cancelTrade me
  · exact .refl hno
  · unfold addGoldToTradeWindow
    split_ifs
    exact (Handled.refl hno).setTrade (.same (.inl hno))
  · exact .refl hno

theorem onFreezeTrade_handled (hno : w.showsItem me packet = false) :
    Handled w (w.onFreezeTrade me) me packet := by
  unfold onFreezeTrade
  split
  · exact (Handled.refl hno).cancelTrade me
  · exact (Handled.refl hno).setTrade (.same (.inl hno))

theorem confirmTrade_handled (hno : w.showsItem me packet = false) :
    Handled w (w.confirmTrade me) me packet :=
  (Handled.refl hno).setTrade (.same (.inl hno))

/-- An item that is added is shown, and its count is narrowed. -/
theorem onAddItem_handled
    (hshows : w.showsItem me packet = (w.isValidTradeTarget me packet.target_player &&
      !(w.tradeOf me).bTradeFreezed && (w.findItemByHandle me packet.handle).any fun p =>
        (w.items p).itemBase.isSome && decide (0 < packet.count) &&
          decide (packet.count ≤ (w.items p).inst.nCount) && w.isTradable me p == some true))
    (hrun : w.onAddItem me packet = some w') : Handled w w' me packet := by
  unfold onAddItem at hrun
  by_cases hvalid : w.isValidTradeTarget me packet.target_player = true
  · by_cases hfrozen : (w.tradeOf me).bTradeFreezed = true
    · rw [if_neg (not_not.mpr hvalid), if_pos hfrozen] at hrun
      obtain rfl := Option.some.inj hrun
      exact .refl (by simp [hshows, hfrozen])
    · rw [if_neg (not_not.mpr hvalid), if_neg hfrozen] at hrun
      cases hfind : w.findItemByHandle me packet.handle with
      | none =>
        rw [hfind] at hrun
        obtain rfl := Option.some.inj hrun
        exact .refl (by simp [hshows, hfind])
      | some p =>
        rw [hfind] at hrun
        dsimp only at hrun
        split_ifs at hrun with hbase hcount
        · obtain rfl := Option.some.inj hrun
          exact .refl (by simp_all)
        · obtain rfl := Option.some.inj hrun
          refine .refl ?_
          rw [hshows, hfind]
          rcases hcount with hlow | hhigh
          · simp [Int.not_lt.mpr hlow]
          · simp [Int.not_le.mpr hhigh]
        · obtain ⟨tradable, htradable, rfl⟩ := Option.map_eq_some_iff.mp hrun
          have hhandle : (w.items p).handle = packet.handle := by
            simpa using List.find?_some hfind
          cases tradable with
          | false => exact .refl (by simp [hshows, hfind, htradable])
          | true =>
            simp only [not_or, not_le, not_lt] at hcount
            have hshown : w.showsItem me packet = true := by
              have hsome : (w.items p).itemBase.isSome = true :=
                Option.isSome_iff_ne_none.mpr (by simpa using hbase)
              simp [hshows, hfind, htradable, hvalid, hfrozen, hsome, hcount.1, hcount.2]
            have hnarrow : narrow32 packet.count ≤ (w.items p).inst.nCount := by
              have hpos := hcount.1
              have hle := hcount.2
              unfold narrow32
              omega
            rw [if_pos rfl, addItemToTradeWindow, if_pos ⟨by simpa using hfrozen, hnarrow⟩, hhandle]
            have hadded : TableEffect w me packet me _ := .added rfl hshown
            refine ⟨setTrade_sameGoods w me _, setTrade_nGold w me _, fun a => ?_⟩
            rw [setTrade_tradeOf]
            split_ifs with ha
            · exact ha ▸ hadded
            · exact .same (.inr ha)
  · rw [if_pos hvalid] at hrun
    obtain rfl := Option.some.inj hrun
    exact .refl (by simp [hshows, hvalid])

theorem onConfirmTrade_goods (hne : packet.target_player ≠ me) (hno : w.showsItem me packet = false)
    (haccepts : w.accepts me packet = (w.isValidTradeTarget me packet.target_player &&
      w.tradeReady me packet.target_player && !(w.tradeOf me).bTradeAccepted))
    (hrun : w.onConfirmTrade me packet.target_player = some w') :
    Handled w w' me packet ∨ ∃ w₁ b w₂, w.processCall me packet = some w₁ ∧
      w₁.processTrade me = some (b, w₂) ∧ w' = w₂.cancelBoth me packet.target_player := by
  have hother : (w.confirmTrade me).tradeOf packet.target_player = w.tradeOf packet.target_player := by
    rw [confirmTrade, setTrade_tradeOf, if_neg hne]
  unfold onConfirmTrade at hrun
  rw [hother] at hrun
  split_ifs at hrun with hvalid hready hmine hfirst
  · obtain rfl := Option.some.inj hrun
    exact .inl (.refl hno)
  · -- both sides have accepted
    obtain ⟨passes, hpasses, hrun⟩ := Option.bind_eq_some_iff.mp hrun
    cases passes with
    | false =>
      obtain rfl := Option.some.inj hrun
      exact .inl (((confirmTrade_handled hno).cancelTrade me).cancelTrade _)
    | true =>
      obtain ⟨⟨b, w₂⟩, hprocess, rfl⟩ := Option.map_eq_some_iff.mp hrun
      have hacc : w.accepts me packet = true := by simp [haccepts, hvalid, hready, hmine]
      exact .inr ⟨w.confirmTrade me, b, w₂, if_pos ⟨hacc, hfirst, hpasses⟩, hprocess, rfl⟩
  · obtain rfl := Option.some.inj hrun
    exact .inl (confirmTrade_handled hno)
  · obtain rfl := Option.some.inj hrun
    exact .inl (((Handled.refl hno).cancelTrade me).cancelTrade _)
  · obtain rfl := Option.some.inj hrun
    exact .inl (.refl hno)

/-- **Only `ProcessTrade` moves goods.** -/
theorem onTrade_goods (hrun : w.onTrade me packet = some w') :
    Handled w w' me packet ∨ ∃ w₁ b w₂, w.processCall me packet = some w₁ ∧
      w₁.processTrade me = some (b, w₂) ∧ w' = w₂.cancelBoth me packet.target_player := by
  unfold onTrade at hrun
  split_ifs at hrun with hstorage hmoving hself
  · obtain rfl := Option.some.inj hrun
    exact .inl (.refl (by simp [showsItem, hstorage]))
  · obtain rfl := Option.some.inj hrun
    exact .inl ((Handled.refl (by simp [showsItem, hmoving])).cancelTrade me)
  · have hno : w.showsItem me packet = false := by simp [showsItem, hself]
    unfold onSelfTrade at hrun
    split_ifs at hrun with hbattle
    · obtain ⟨target, -, rfl⟩ := Option.map_eq_some_iff.mp hrun
      exact .inl (((Handled.refl hno).cancelTrade target).cancelTrade me)
    · obtain rfl := Option.some.inj hrun
      exact .inl ((Handled.refl hno).cancelTrade me)
  · have hno : packet.mode ≠ .addItem → w.showsItem me packet = false := fun hmode => by
      simp [showsItem, beq_eq_false_iff_ne.mpr hmode]
    cases hmode : packet.mode with
    | requestTrade | rejectTrade | other =>
      rw [hmode] at hrun
      obtain rfl := Option.some.inj hrun
      exact .inl (.refl (hno (by simp [hmode])))
    | acceptTrade =>
      rw [hmode] at hrun
      obtain rfl := Option.some.inj hrun
      exact .inl (onAcceptTrade_handled (hno (by simp [hmode])))
    | cancelTrade =>
      rw [hmode] at hrun
      obtain rfl := Option.some.inj hrun
      exact .inl (onCancelTrade_handled (hno (by simp [hmode])))
    | addItem =>
      rw [hmode] at hrun
      refine .inl (onAddItem_handled ?_ hrun)
      have hstill : ((w.players me).bIsMoving && (w.players me).inWorld) = false := by simpa using hmoving
      have hother : (packet.target_player != me) = true := by simpa using hself
      simp [showsItem, hstorage, hstill, hother, hmode]
    | removeItem =>
      rw [hmode] at hrun
      obtain rfl := Option.some.inj hrun
      exact .inl (onRemoveItem_handled (hno (by simp [hmode])))
    | addGold =>
      rw [hmode] at hrun
      obtain rfl := Option.some.inj hrun
      exact .inl (onAddGold_handled (hno (by simp [hmode])))
    | freezeTrade =>
      rw [hmode] at hrun
      obtain rfl := Option.some.inj hrun
      exact .inl (onFreezeTrade_handled (hno (by simp [hmode])))
    | confirmTrade =>
      rw [hmode] at hrun
      refine onConfirmTrade_goods hself (hno (by simp [hmode])) ?_ hrun
      have hstill : ((w.players me).bIsMoving && (w.players me).inWorld) = false := by simpa using hmoving
      have hother : (packet.target_player != me) = true := by simpa using hself
      simp [accepts, hstorage, hstill, hother, hmode]

/-! ## Tables -/

theorem assign_keys (t : TradeInfo) (handle : Handle) (count : Int) :
    (t.assign handle count).vTradeItemList.map Prod.fst =
      if handle ∈ t.vTradeItemList.map Prod.fst then t.vTradeItemList.map Prod.fst
      else t.vTradeItemList.map Prod.fst ++ [handle] := by
  have hany : (t.vTradeItemList.any fun e => e.1 = handle) = true ↔
      handle ∈ t.vTradeItemList.map Prod.fst := by
    simp
  unfold TradeInfo.assign
  by_cases hin : handle ∈ t.vTradeItemList.map Prod.fst
  · rw [if_pos hin]
    simp only [if_pos (hany.mpr hin), List.map_map]
    refine List.map_congr_left fun e _ => ?_
    simp only [Function.comp_apply]
    split_ifs with he
    · exact he.symm
    · rfl
  · rw [if_neg hin]
    simp only [if_neg fun hno => hin (hany.mp hno), List.map_append, List.map_cons, List.map_nil]

theorem mem_assign {handle : Handle} {count : Int} {e : Handle × Int}
    (he : e ∈ (t.assign handle count).vTradeItemList) :
    (e ∈ t.vTradeItemList ∧ e.1 ≠ handle) ∨ e = (handle, count) := by
  unfold TradeInfo.assign at he
  dsimp only at he
  split_ifs at he with hany
  · obtain ⟨e', he', rfl⟩ := List.mem_map.mp he
    split_ifs with hkey
    · exact .inr rfl
    · exact .inl ⟨he', hkey⟩
  · rcases List.mem_append.mp he with he | he
    · by_cases hkey : e.1 = handle
      · exact absurd (List.any_eq_true.mpr ⟨e, he, by simpa using hkey⟩) hany
      · exact .inl ⟨he, hkey⟩
    · exact .inr (List.mem_singleton.mp he)

theorem Table.assign (ht : Table t.vTradeItemList) (handle : Handle) (n : Int) :
    Table (t.assign handle (narrow32 n)).vTradeItemList := by
  refine ⟨?_, fun e he => ?_⟩
  · rw [assign_keys]
    split_ifs with hin
    · exact ht.nodup
    · exact List.nodup_append.mpr ⟨ht.nodup, List.nodup_singleton _, fun a ha b hb heq =>
        hin (List.mem_singleton.mp hb ▸ heq ▸ ha)⟩
  · rcases mem_assign he with ⟨he, -⟩ | rfl
    · exact ht.count e he
    · exact narrow32_isInt32 n

theorem Table.remove (ht : Table t.vTradeItemList) (handle : Handle) :
    Table (t.remove handle).vTradeItemList :=
  ⟨ht.nodup.sublist (List.filter_sublist.map _), fun e he => ht.count e (List.mem_filter.mp he).1⟩

theorem TableEffect.table {es : List (Handle × Int)} (heff : TableEffect w me packet a es)
    (ht : Table (w.tradeOf a).vTradeItemList) : Table es := by
  cases heff with
  | same _ => exact ht
  | cleared => exact table_nil
  | removed _ => exact ht.remove _
  | added _ _ => exact ht.assign _ _

theorem WorldOk.handled (hok : WorldOk w) (hh : Handled w w' me packet) : WorldOk w' := by
  refine hok.sameGoods hh.goods (fun a ha => ?_) fun a ha => (hh.table a).table (hok.window a ha)
  rw [hh.nGold]
  exact hok.gold a ha

theorem WorldOk.cancelBoth (hok : WorldOk w) (me target : Handle) : WorldOk (w.cancelBoth me target) := by
  refine hok.sameGoods ((setTrade_sameGoods w me _).trans (setTrade_sameGoods _ target _))
    (fun a ha => ?_) fun a ha => ?_
  · rw [World.cancelBoth, cancelTrade, cancelTrade, clearTradeInfo, clearTradeInfo, setTrade_nGold,
      setTrade_nGold]
    exact hok.gold a ha
  · show Table (((w.cancelTrade me).cancelTrade target).tradeOf a).vTradeItemList
    rw [(cancels_two w me target).tradeOf]
    split_ifs
    · exact table_nil
    · exact hok.window a ha

/-! ## Runs -/

/-- What `onConfirmTrade` has checked when it calls `ProcessTrade`. -/
theorem tradeChecked_of_call (hok : WorldOk w) (hme : w.playerPool me = true)
    (hcall : w.processCall me packet = some w₁) : WorldOk w₁ ∧ w₁.playerPool me = true ∧
      w₁.playerPool packet.target_player = true ∧ TradeChecked w₁ me packet.target_player ∧
      w₁.checkTradeItem me = true ∧ w₁.checkTradeItem packet.target_player = true := by
  obtain ⟨hacc, -, hpasses, rfl⟩ := processCall_eq_some hcall
  have htpool := accepts_present hacc
  have hok₁ : WorldOk (w.confirmTrade me) := by
    refine hok.sameGoods (setTrade_sameGoods w me _) (fun a ha => ?_) fun a ha => ?_
    · rw [confirmTrade, setTrade_nGold]
      exact hok.gold a ha
    · show Table ((w.confirmTrade me).tradeOf a).vTradeItemList
      rw [confirmTrade, setTrade_tradeOf]
      split_ifs with ham
      · exact hok.window me hme
      · exact hok.window a ha
  have hlegal := hok₁.gold me hme
  have htlegal := hok₁.gold packet.target_player htpool
  obtain ⟨light, -, hpasses⟩ := Option.bind_eq_some_iff.mp hpasses
  split_ifs at hpasses with hitems
  · cases hpasses
  · simp only [not_or, Bool.not_eq_true, Bool.not_eq_false] at hitems
    obtain ⟨gold, hgold, hpasses⟩ := Option.bind_eq_some_iff.mp hpasses
    obtain ⟨tgold, htgold, hpasses⟩ := Option.map_eq_some_iff.mp hpasses
    obtain ⟨hfit, rfl⟩ := add64_eq_some.mp hgold
    obtain ⟨htfit, rfl⟩ := add64_eq_some.mp htgold
    obtain ⟨hmax, hready, htarget⟩ := of_decide_eq_true hpasses
    obtain ⟨htrading, httrading, hfrozen, htfrozen, hback⟩ := tradeReady_iff.mp hready
    refine ⟨hok₁, hme, htpool, ⟨(accepts_ne hacc).symm, ⟨htrading, hfrozen, htarget⟩,
      ⟨httrading, htfrozen, hback⟩, hlegal, htlegal, ?_, ?_, ?_, ?_⟩, by simpa using hitems.2.1,
      by simpa using hitems.2.2⟩
    · unfold IsInt64 at htfit
      omega
    · unfold IsInt64 at hfit
      omega
    · omega
    · omega

/-- Whatever `ProcessTrade` returns, the world it leaves is well formed. -/
theorem processTrade_ok {b : Bool} (hok : WorldOk w) (hme : w.playerPool me = true)
    (htpool : w.playerPool target = true) (hc : TradeChecked w me target)
    (hrun : w.processTrade me = some (b, w')) : WorldOk w' := by
  rw [processTrade_eq hc] at hrun
  split_ifs at hrun with hready
  · have hok₁ := hok.swapGold hc hready
    have hsame := swapGold_sameTrades w me target
    have hgoods := swapGold_sameGoods w me target
    have hmine : (w.swapGold me target).playerPool me = true := hsame.playerPool ▸ hme
    have htheirs : (w.swapGold me target).playerPool target = true := hsame.playerPool ▸ htpool
    rw [exchangeItems_eq hok₁ hmine htheirs hc.ne (hc.mine.same hsame) (hc.theirs.same hsame)
      ((hgoods.inWorld me).trans hready.mine.1) ((hgoods.inWorld target).trans hready.inWorld)] at hrun
    obtain ⟨⟨c, w₁⟩, hfirst, hrun⟩ := Option.bind_eq_some_iff.mp hrun
    obtain ⟨hok₂, hl⟩ := giveItems_ok hmine htheirs hc.ne (hok₁.window me hmine).count hok₁ hfirst
    dsimp only at hrun
    split_ifs at hrun
    · obtain ⟨-, rfl⟩ := Prod.mk.inj (Option.some.inj hrun)
      exact hok₂
    · obtain ⟨⟨c', w₂⟩, hsecond, heq⟩ := Option.map_eq_some_iff.mp hrun
      obtain ⟨hok₃, -⟩ := giveItems_ok (hl.playerPool ▸ htheirs) (hl.playerPool ▸ hmine) hc.ne.symm
        (hok₁.window target htheirs).count hok₂ hsecond
      dsimp only at heq
      split_ifs at heq
      · obtain ⟨-, rfl⟩ := Prod.mk.inj heq
        exact hok₃
      · obtain ⟨-, rfl⟩ := Prod.mk.inj heq
        exact hok₃.cancelBoth me target
  · obtain ⟨-, rfl⟩ := Prod.mk.inj (Option.some.inj hrun)
    exact hok

/-- **Worlds stay well formed**, whatever is traded. -/
theorem worldOk_of_run {C : History World TradeEvent → World → TradeEvent → Prop}
    (hrun : (tradeSystem WorldOk).RunWhere C h w) : WorldOk w := by
  refine hrun.invariant (I := fun _ w => WorldOk w) (fun w hw => ?_) ?_
  · exact hw.1
  intro _ w e w' _ hok _ hstep
  rcases tradeSystem_cases hstep with
    ⟨me, packet, rfl, hme, hmessage, -⟩ | ⟨⟨me, bIsMoving, x, y, rfl⟩, hsame⟩ | ⟨-, hok', -⟩
  · rcases onTrade_goods hmessage with hhandled | ⟨w₁, b, w₂, hcall, hprocess, rfl⟩
    · exact hok.handled hhandled
    · obtain ⟨hok₁, hme₁, htpool, hc, -, -⟩ := tradeChecked_of_call hok hme hcall
      exact (processTrade_ok hok₁ hme₁ htpool hc hprocess).cancelBoth me _
  · have hmove : w.tradeStep (.move me bIsMoving x y) = some w' := hstep
    simp only [tradeStep] at hmove
    split_ifs at hmove
    obtain rfl := Option.some.inj hmove
    refine hok.sameGoods (.updPlayer w me (fun _ => ⟨rfl, rfl⟩) (fun _ => rfl) (fun _ => rfl) fun _ => rfl)
      (fun a ha => ?_) fun a ha => ?_
    · have hgold := hok.gold a ha
      rw [updPlayer_players]
      split_ifs with ham
      · exact ham ▸ hgold
      · exact hgold
    · show Table (tradeOf _ a).vTradeItemList
      rw [hsame.tradeOf]
      exact hok.window a ha
  · exact hok'

/-- The count that the window of `a` shows for an item: that of the last message that put it there. -/
def shownCount (a k : Handle) : History World TradeEvent → Int
  | [] => 0
  | ⟨w, .trade me packet, _⟩ :: h =>
    if me = a ∧ packet.handle = k ∧ w.showsItem me packet = true then packet.count else shownCount a k h
  | _ :: h => shownCount a k h

theorem TableEffect.mem {es : List (Handle × Int)} {e : Handle × Int}
    (heff : TableEffect w me packet a es) (he : e ∈ es) :
    (e ∈ (w.tradeOf a).vTradeItemList ∧
      ¬(me = a ∧ packet.handle = e.1 ∧ w.showsItem me packet = true)) ∨
    (me = a ∧ packet.handle = e.1 ∧ w.showsItem me packet = true ∧ e.2 = narrow32 packet.count) := by
  cases heff with
  | same hno =>
    refine .inl ⟨he, fun ⟨hme, _, hshows⟩ => ?_⟩
    rcases hno with hno | hno
    · rw [hno] at hshows
      cases hshows
    · exact hno hme.symm
  | cleared => cases he
  | removed hno =>
    refine .inl ⟨(List.mem_filter.mp he).1, fun ⟨_, _, hshows⟩ => ?_⟩
    rw [hno] at hshows
    cases hshows
  | added hme hshows =>
    rcases mem_assign he with ⟨he, hkey⟩ | rfl
    · exact .inl ⟨he, fun hsame => hkey hsame.2.1.symm⟩
    · exact .inr ⟨hme.symm, rfl, hshows, rfl⟩

/-- The table of a window holds the counts that the window shows, narrowed to 32 bits. -/
def Shown (h : History World TradeEvent) (w : World) : Prop :=
  ∀ a, w.playerPool a = true → ∀ e ∈ (w.tradeOf a).vTradeItemList,
    0 < shownCount a e.1 h ∧ e.2 = narrow32 (shownCount a e.1 h)

theorem showsItem_pos (hshows : w.showsItem me packet = true) : 0 < packet.count := by
  simp only [showsItem, Bool.and_eq_true] at hshows
  obtain ⟨p, -, hp⟩ := (Option.any_eq_true _ _).mp hshows.2
  simp only [Bool.and_eq_true, decide_eq_true_eq] at hp
  exact hp.1.1.2

theorem Shown.message (hi : Shown h w) (hpool : w'.playerPool = w.playerPool)
    (heff : ∀ a, TableEffect w me packet a (w'.tradeOf a).vTradeItemList) :
    Shown (⟨w, .trade me packet, w'⟩ :: h) w' := by
  intro a ha e he
  rw [hpool] at ha
  simp only [shownCount]
  rcases (heff a).mem he with ⟨hold, hno⟩ | ⟨hme, hkey, hshows, hcount⟩
  · rw [if_neg hno]
    exact hi a ha e hold
  · rw [if_pos ⟨hme, hkey, hshows⟩]
    exact ⟨showsItem_pos hshows, hcount⟩

theorem shown_of_run {Ok : World → Prop} {C : History World TradeEvent → World → TradeEvent → Prop}
    (hrun : (tradeSystem Ok).RunWhere C h w) : Shown h w := by
  refine hrun.invariant (I := Shown) (fun w hw a ha e he => ?_) ?_
  · rw [hw.2.2 a ha] at he
    cases he
  · intro h w e w' _ hi _ hstep
    rcases tradeSystem_cases hstep with
      ⟨me, packet, rfl, hme, hmessage, heff⟩ | ⟨⟨me, bIsMoving, x, y, rfl⟩, hsame⟩ | ⟨rfl, -, hkeeps⟩
    · rcases onTrade_goods hmessage with hhandled | ⟨w₁, b, w₂, hcall, hprocess, rfl⟩
      · exact hi.message hhandled.goods.playerPool hhandled.table
      · -- `ProcessTrade` touches the tables of the two sides only, and those are cleared
        obtain ⟨hacc, -, hpasses, rfl⟩ := processCall_eq_some hcall
        have htarget := tradePasses_partner hpasses
        obtain ⟨hpool, htrades⟩ := processTrade_tradeOf htarget hprocess
        have hcancels := cancels_two w₂ me packet.target_player
        have hmode : w.showsItem me packet = false := by
          unfold accepts at hacc
          simp only [Bool.and_eq_true, beq_iff_eq] at hacc
          simp [showsItem, hacc.1.1.1.2]
        refine hi.message (hcancels.playerPool.trans hpool) fun a => ?_
        rw [show ((w₂.cancelBoth me packet.target_player).tradeOf a) = _ from hcancels.tradeOf a]
        split_ifs with ha
        · exact .cleared
        · rw [htrades a ha, confirmTrade, setTrade_tradeOf, if_neg (by rintro rfl; simp at ha)]
          exact .same (.inl hmode)
    · intro a ha e he
      rw [hsame.playerPool] at ha
      rw [hsame.tradeOf] at he
      exact hi a ha e he
    · intro a ha e he
      rcases hkeeps.trades a ha with ⟨ha', hsame⟩ | ⟨-, hnew, -⟩
      · exact hi a ha' e (hsame.vTradeItemList.mem_iff.mp he)
      · rw [hnew] at he
        cases he

end RZEmulator.Chihiro.World
