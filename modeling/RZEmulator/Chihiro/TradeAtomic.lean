import RZEmulator.Chihiro.TradeExact

/-!
# All or nothing

`ProcessTrade` gives the gold back when the gold phase fails, but not when an item is refused: the items
that have gone, and the gold, stay where they are. `Atomic` is the outcome it should have; `Settles` says
when it has it. Whether an item is refused depends on what the other handlers have done to it since it was
put into the window, so the condition is about the world in which `ProcessTrade` is called.
-/

namespace RZEmulator.Chihiro.World

open Lib

variable {w w' w₁ : World} {me a b g k : Handle} {packet : TradePacket} {h : History World TradeEvent}
  {e : Handle × Int} {es : List (Handle × Int)}

/-- A `ProcessTrade` of `a` with `b` has a result, and moves both sides of the trade or nothing. -/
def Atomic (w : World) (a b : Handle) : Prop :=
  ∃ res w', w.processTrade a = some (res, w') ∧
    (res = true → ExactTransfer w w' a b (w.tradeOf a).vTradeItemList (w.tradeOf b).vTradeItemList) ∧
    (res = false → w' = w)

/-- `GiveItem` refuses the entry. -/
def Refuses (w : World) (g : Handle) (e : Handle × Int) : Prop :=
  w.findItemByHandle g e.1 = none ∨ ∃ p, w.findItemByHandle g e.1 = some p ∧
    (w.isTradable g p = some false ∨ (w.items p).inst.nCount < e.2)

/-- The very first item that is to change hands is refused. -/
def RefusesFirst (w : World) (a b : Handle) : Prop :=
  (∃ e es, (w.tradeOf a).vTradeItemList = e :: es ∧ Refuses w a e) ∨
  ((w.tradeOf a).vTradeItemList = [] ∧ ∃ e es, (w.tradeOf b).vTradeItemList = e :: es ∧ Refuses w b e)

/-- One of the sides cannot pay, or every item can be given, or the first one cannot and the gold that has
changed hands by then is the same on both sides. -/
def Settles (w : World) (a b : Handle) : Prop :=
  ¬GoldReady w a b ∨
  (Ready w a b (w.tradeOf a).vTradeItemList ∧ Ready w b a (w.tradeOf b).vTradeItemList) ∨
  ((w.tradeOf a).nTradeGold = (w.tradeOf b).nTradeGold ∧ RefusesFirst w a b)

theorem isTradable_isSome {p : ItemPtr} (hbase : (w.items p).itemBase.isSome) :
    (w.isTradable g p).isSome := by
  rw [isTradable, Option.isSome_map, isErasable]
  split_ifs
  · rfl
  · rfl
  · rw [Option.isSome_map]
    exact hbase
  · rfl

theorem giveItem_refuses (hok : WorldOk w) (href : Refuses w g e) :
    w.giveItem g k e.1 e.2 = some (false, w) := by
  rw [giveItem]
  rcases href with hnone | ⟨p, hfind, hno⟩
  · rw [hnone]
  · rw [hfind]
    have hp := (hok.findByHandle_iff.mp hfind).1
    obtain ⟨tradable, htradable⟩ := Option.isSome_iff_exists.mp
      (isTradable_isSome (g := g) ((hok.stocked _).based p hp))
    dsimp only
    rw [htradable, Option.bind_some, if_pos]
    rcases hno with hfalse | hlt
    · rw [htradable, Option.some.injEq] at hfalse
      exact .inl (by simp [hfalse])
    · exact .inr hlt

theorem giveItems_refuses (hok : WorldOk w) (href : Refuses w g e) :
    w.giveItems g k (e :: es) = some (.accessDenied, w) := by
  rw [giveItems, giveItem_refuses hok href]
  rfl

theorem swapGold_of_eq (hgold : (w.tradeOf a).nTradeGold = (w.tradeOf b).nTradeGold) :
    w.swapGold a b = w := by
  rw [swapGold, hgold, sub_add_cancel, add_sub_cancel_right, setGold_self, setGold_self]

theorem Refuses.atomic (hok : WorldOk w) (ha : w.playerPool a = true) (hb : w.playerPool b = true)
    (hc : TradeChecked w a b) (hready : GoldReady w a b)
    (hgold : (w.tradeOf a).nTradeGold = (w.tradeOf b).nTradeGold) (href : RefusesFirst w a b) :
    Atomic w a b := by
  have hitems := processTrade_items hok ha hb hc hready
  rw [swapGold_of_eq hgold] at hitems
  refine ⟨false, w, ?_, nofun, fun _ => rfl⟩
  rw [hitems]
  rcases href with ⟨e, es, htable, href⟩ | ⟨hnil, e, es, htable, href⟩
  · rw [htable, giveItems_refuses hok href]
    rfl
  · rw [hnil, htable, giveItems, Option.bind_some]
    dsimp only
    rw [giveItems_refuses hok href]
    rfl

theorem Ready.owns (hr : Ready w g k es) : Owns w g es := fun e he =>
  have ⟨hpos, p, hp, hhandle, hle, _⟩ := hr.deliverable e he
  ⟨p, hp, hhandle, hpos, hle⟩

theorem Ready.atomic (hok : WorldOk w) (ha : w.playerPool a = true) (hb : w.playerPool b = true)
    (hc : TradeChecked w a b) (hready : GoldReady w a b)
    (hmine : Ready w a b (w.tradeOf a).vTradeItemList)
    (htheirs : Ready w b a (w.tradeOf b).vTradeItemList) : Atomic w a b := by
  have hgoods := swapGold_sameGoods w a b
  have hok₀ := hok.swapGold hc hready
  have ha₀ : (w.swapGold a b).playerPool a = true := hgoods.playerPool ▸ ha
  have hb₀ : (w.swapGold a b).playerPool b = true := hgoods.playerPool ▸ hb
  have htable : Table (w.tradeOf a).vTradeItemList := hok.window a ha
  have httable : Table (w.tradeOf b).vTradeItemList := hok.window b hb
  obtain ⟨w₁, hfirst, hback⟩ := giveItems_delivers ha₀ hb₀ hc.ne htable hok₀ (hgoods.ready hmine)
    (hgoods.ready htheirs)
  obtain ⟨hok₁, hl₁⟩ := giveItems_ok ha₀ hb₀ hc.ne htable.count hok₀ hfirst
  have hnone : Ready w₁ a b [] := ⟨fun _ h => absurd h List.not_mem_nil, fun _ => by simp, fun q hq => by
    rw [offered_nil, add_zero]
    exact (hok₁.held _ q hq).count.2⟩
  obtain ⟨w₂, hsecond, -⟩ := giveItems_delivers (hl₁.playerPool ▸ hb₀) (hl₁.playerPool ▸ ha₀) hc.ne.symm
    httable hok₁ hback hnone
  refine ⟨true, w₂.cancelBoth a b, ?_, fun _ => ?_, nofun⟩
  · rw [processTrade_items hok ha hb hc hready, hfirst, Option.bind_some]
    simp only [ne_eq, not_true_eq_false, if_false, hsecond, Option.map_some]
  · exact Completed.exact hok ha hb hc ⟨hready, hfirst, hsecond, rfl⟩
      (fun e he => (hmine.deliverable e he).1) htheirs.owns

theorem Settles.atomic (hok : WorldOk w) (ha : w.playerPool a = true) (hb : w.playerPool b = true)
    (hc : TradeChecked w a b) (hset : Settles w a b) : Atomic w a b := by
  by_cases hready : GoldReady w a b
  · rcases hset with hno | ⟨hmine, htheirs⟩ | ⟨hgold, href⟩
    · exact absurd hready hno
    · exact hmine.atomic hok ha hb hc hready htheirs
    · exact Refuses.atomic hok ha hb hc hready hgold href
  · exact ⟨false, w, by rw [processTrade_eq hc, if_neg hready], nofun, fun _ => rfl⟩

/-- **Trades that settle are atomic**: in every run, a confirmation that calls `ProcessTrade` in a world
where the trade settles moves both sides completely or leaves the world as it was. -/
theorem atomic_of_run (hrun : (tradeSystem WorldOk).Run h w) (hme : w.playerPool me = true)
    (hcall : w.processCall me packet = some w₁) (hset : Settles w₁ me packet.target_player) :
    Atomic w₁ me packet.target_player := by
  obtain ⟨hok, hme₁, htpool, hc, -, -⟩ := tradeChecked_of_call (worldOk_of_run hrun) hme hcall
  exact hset.atomic hok hme₁ htpool hc

/-- Three units of seven are ready, and change hands. -/
theorem atomic_fair : ∃ (h : History World TradeEvent) (w w₁ : World), h.length = 6 ∧
    w.processCall 2 ⟨.confirmTrade, 1, 0, 0⟩ = some w₁ ∧ Atomic w₁ 2 1 := by
  have hsome : (bargained 3 (fair 7 0)).isSome = true := by decide +kernel
  have hpool : (bargained 3 (fair 7 0)).map (fun x => (x.1.length, x.2.1.playerPool 2)) = some (6, true) := by
    decide +kernel
  have hempty : (bargained 3 (fair 7 0)).map (fun x => (x.2.2.1.tradeOf 2).vTradeItemList) = some [] := by
    decide +kernel
  have htable : (bargained 3 (fair 7 0)).map (fun x => (x.2.2.1.tradeOf 1).vTradeItemList) = some [(1, 3)] := by
    decide +kernel
  have hitem : (bargained 3 (fair 7 0)).map (fun x => (x.2.2.1.findItemByHandle 1 1).map fun p =>
      (decide (3 ≤ (x.2.2.1.items p).inst.nCount), x.2.2.1.isTradable 1 p)) = some (some (true, some true)) := by
    decide +kernel
  have hstacks : (bargained 3 (fair 7 0)).map (fun x => (x.2.2.1.inv (bag 2)).vList.all fun q =>
      decide ((x.2.2.1.items q).inst.nCount ≤ 7)) = some true := by decide +kernel
  obtain ⟨⟨h, w, w₁, w'⟩, hdeal⟩ := Option.isSome_iff_exists.mp hsome
  obtain ⟨hrun, hcall, -⟩ := bargained_eq_some (by decide) (by decide) hdeal
  rw [hdeal, Option.map_some, Option.some.injEq] at hpool hempty htable hitem hstacks
  obtain ⟨hlen, hme⟩ := Prod.mk.inj hpool
  have hok := (tradeChecked_of_call (worldOk_of_run hrun) hme hcall).1
  obtain ⟨p, hfind, hp⟩ := Option.map_eq_some_iff.mp hitem
  obtain ⟨hcount, htradable⟩ := Prod.mk.inj hp
  obtain ⟨hmem, hhandle⟩ := hok.findByHandle_iff.mp hfind
  have hbound : ∀ code, offered w₁ [(1, 3)] code ≤ 3 := fun code => by
    have hcons := offered_cons hok hmem 3 [] code
    rw [hhandle, offered_nil] at hcons
    rw [hcons]
    split_ifs <;> omega
  refine ⟨h, w, w₁, hlen, hcall, atomic_of_run hrun hme hcall (.inr (.inl ⟨?_, ?_⟩))⟩
  · rw [show (w₁.tradeOf 2).vTradeItemList = [] from hempty]
    exact ⟨fun _ h => absurd h List.not_mem_nil, fun _ => by simp, fun q hq => by
      rw [offered_nil, add_zero]
      exact (hok.held _ q hq).count.2⟩
  · rw [show (w₁.tradeOf 1).vTradeItemList = [(1, 3)] from htable]
    refine ⟨fun e he => ?_, fun code => ?_, fun q hq => ?_⟩
    · obtain rfl := List.mem_singleton.mp he
      exact ⟨by decide, p, hmem, hhandle, of_decide_eq_true hcount, htradable⟩
    · exact (hbound code).trans_lt (by decide)
    · have hsmall := of_decide_eq_true (List.all_eq_true.mp hstacks q hq)
      have hoffer := hbound (w₁.items q).inst.Code
      dsimp only at hsmall
      omega

/-- Player 1 has dropped all it had. -/
def dropped (w : World) : World :=
  w.updInv (bag 1) fun i => { i with vList := [], vExpireItemList := [] }

theorem WorldOk.dropped (hok : WorldOk w) : WorldOk (dropped w) := by
  have hmem : ∀ {r p}, p ∈ ((World.dropped w).inv r).vList → r ≠ bag 1 ∧ p ∈ (w.inv r).vList := fun {r p} hp => by
    rw [World.dropped, updInv_inv] at hp
    split_ifs at hp with hr
    · cases hp
    · exact ⟨hr, hp⟩
  have hpersona : ∀ h, ((World.dropped w).players h).persona = (w.players h).persona :=
    updInv_persona w (bag 1) fun i => { i with vList := [], vExpireItemList := [] }
  refine ⟨fun r => ?_, fun r r' p hp hp' => ?_, fun r p hp => ?_, hok.fresh, fun h hh => ?_, fun h hh => ?_,
    fun h k hh hk heq => ?_, fun h hh => ?_⟩
  · by_cases hr : r = bag 1
    · have hnil : ((World.dropped w).inv r).vList = [] ∧ ((World.dropped w).inv r).vExpireItemList = [] := by
        rw [World.dropped, updInv_inv, if_pos hr]
        exact ⟨rfl, rfl⟩
      refine ⟨?_, ?_, ?_, ?_⟩
      · rw [hnil.1]
        exact fun i a ha => by cases ha
      · rw [hnil.1, hnil.2]
        exact .refl _
      · rw [hnil.1]
        exact fun p hp => by cases hp
      · rw [hnil.1]
        exact fun p hp => by cases hp
    · have hinv := updInv_inv_of_ne w (bag 1) (fun i => { i with vList := [], vExpireItemList := [] }) hr
      exact (hok.stocked r).congr (by rw [World.dropped, hinv]) (by rw [World.dropped, hinv]) (fun _ _ => rfl)
        (Nat.le_refl _)
  · exact hok.apart r r' p (hmem hp).2 (hmem hp').2
  · obtain ⟨hpooled, htemplate, hcount, hcoded, howned⟩ := hok.held r p (hmem hp).2
    exact ⟨hpooled, htemplate, hcount, hcoded, fun hr =>
      ⟨(howned hr).1, (howned hr).2.trans (congrArg Player.Persona.uid (hpersona r.owner)).symm⟩⟩
  · rw [show ((World.dropped w).players h).nGold = _ from congrArg Player.Persona.nGold (hpersona h)]
    exact hok.gold h hh
  · rw [show ((World.dropped w).players h).uid = _ from congrArg Player.Persona.uid (hpersona h)]
    exact hok.uid h hh
  · have huid := fun h => congrArg Player.Persona.uid (hpersona h)
    exact hok.uid_inj h k hh hk ((huid h).symm.trans (heq.trans (huid k)))
  · rw [show ((World.dropped w).players h).trade = _ from congrArg Player.Persona.trade (hpersona h)]
    exact hok.window h hh

/-- A bargain in which player 1 drops the goods between its confirmation and player 2's: the history, the
world before the last confirmation, the one in which it calls `ProcessTrade`, and what that returns. -/
def spoiled : Option (History World TradeEvent × World × World × Bool × World) :=
  (System.exec (fun _ _ _ => True) tradeStep (bargain 3) [] (fair 7 0)).bind fun (h, w) =>
    ((dropped w).processCall 2 ⟨.confirmTrade, 1, 0, 0⟩).bind fun w₁ =>
      (w₁.processTrade 2).map fun r => (⟨w, .other (dropped w), dropped w⟩ :: h, dropped w, w₁, r)

/-- Player 2 pays for goods that player 1 has dropped. -/
theorem not_atomic : ¬ ∀ (h : History World TradeEvent) (w : World), (tradeSystem WorldOk).Run h w →
    ∀ me packet w₁, w.playerPool me = true → w.processCall me packet = some w₁ →
      Atomic w₁ me packet.target_player := by
  intro hall
  have hsome : spoiled.isSome = true := by decide +kernel
  have hfacts : spoiled.map (fun x => (x.2.1.playerPool 2, x.2.2.2.1)) = some (true, false) := by
    decide +kernel
  have hgold : spoiled.map (fun x => ((x.2.2.1.players 2).nGold, (x.2.2.2.2.players 2).nGold)) =
      some (10, 6) := by decide +kernel
  obtain ⟨⟨h, w, w₁, res, w'⟩, hspoiled⟩ := Option.isSome_iff_exists.mp hsome
  rw [hspoiled, Option.map_some, Option.some.injEq] at hfacts hgold
  obtain ⟨hpool, rfl⟩ := Prod.mk.inj hfacts
  obtain ⟨hbefore, hafter⟩ := Prod.mk.inj hgold
  obtain ⟨⟨h', v⟩, hexec, hrest⟩ := Option.bind_eq_some_iff.mp hspoiled
  obtain ⟨v₁, hcall, hrest⟩ := Option.bind_eq_some_iff.mp hrest
  obtain ⟨⟨b, v'⟩, hprocess, heq⟩ := Option.map_eq_some_iff.mp hrest
  simp only [Prod.mk.injEq] at heq
  obtain ⟨rfl, rfl, rfl, rfl, rfl⟩ := heq
  have hstart : (tradeSystem WorldOk).Run [] (fair 7 0) :=
    .init ⟨fair_ok (by decide) (by decide), rfl, fun _ _ => rfl⟩
  have hrun := hstart.exec (fun _ _ _ => step_of_tradeStep) _ hexec
  have htrades : SameTrades v (dropped v) := .updInv v (bag 1) _
  have hkeeps : v.KeepsTrades (dropped v) := ⟨(tradesSound_of_run hrun).null, fun k hk =>
    .inl ⟨hk, htrades.tradeOf k ▸ ⟨rfl, rfl, rfl, rfl, rfl, .refl _⟩⟩⟩
  have hrun' : (tradeSystem WorldOk).Run (⟨v, .other (dropped v), dropped v⟩ :: h') (dropped v) :=
    hrun.step trivial ⟨rfl, (worldOk_of_run hrun).dropped, hkeeps⟩
  obtain ⟨res, w', hres, -, hfalse⟩ := hall _ _ hrun' 2 ⟨.confirmTrade, 1, 0, 0⟩ v₁ hpool hcall
  rw [hprocess, Option.some.injEq, Prod.mk.injEq] at hres
  obtain ⟨rfl, rfl⟩ := hres
  rw [hfalse rfl, hbefore] at hafter
  exact absurd hafter (by decide)

end RZEmulator.Chihiro.World
