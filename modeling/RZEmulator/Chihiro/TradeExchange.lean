import Mathlib.Algebra.Order.BigOperators.Group.List
import RZEmulator.Chihiro.Handover
import RZEmulator.Chihiro.TradeEffect

/-!
# What `ProcessTrade` does

The two phases of a trade in a well-formed world. The gold phase is exact: both sides pay, or the world is
what it was (`exchangeGold_pays`, `exchangeGold_refuses`). The item phase hands the entries of a table over
one by one: `Delivered` says what has moved when all of them have, `giveItems_delivers` that nothing stops a
table whose entries are all `Ready`.
-/

namespace RZEmulator.Chihiro.World

open Item (Alike)

variable {w w' w₁ w₂ : World} {r : InvRef} {p q : ItemPtr} {g k h target handle : Handle} {c code : Int}
  {es : List (Handle × Int)}

/-! ## The gold phase -/

section Gold

@[simp] theorem setGold_nGold (w : World) (h : Handle) (n : Int) (k : Handle) :
    ((w.setGold h n).players k).nGold = if k = h then n else (w.players k).nGold := by
  rw [setGold, updPlayer_players]
  split_ifs <;> rfl

theorem setGold_self (w : World) (h : Handle) : w.setGold h (w.players h).nGold = w := by
  have hplayers : (w.setGold h (w.players h).nGold).players = w.players := by
    funext k
    rw [setGold, updPlayer_players]
    split_ifs with hk
    · rw [hk]
    · rfl
  exact congrArg (fun ps => { w with players := ps }) hplayers

theorem setGold_setGold (w : World) (h : Handle) (m n : Int) :
    (w.setGold h m).setGold h n = w.setGold h n := by
  simp only [setGold, updPlayer]
  congr 1
  funext k
  split_ifs <;> rfl

theorem setGold_comm (w : World) {h k : Handle} (hne : h ≠ k) (m n : Int) :
    (w.setGold h m).setGold k n = (w.setGold k n).setGold h m := by
  simp only [setGold, updPlayer]
  congr 1
  funext j
  split_ifs <;> simp_all

theorem setGold_sameTrades (w : World) (h : Handle) (n : Int) : SameTrades w (w.setGold h n) :=
  .updPlayer w h (g := fun p => { p with nGold := n }) fun _ => rfl

@[simp] theorem setGold_inWorld (w : World) (h : Handle) (n : Int) (k : Handle) :
    ((w.setGold h n).players k).inWorld = (w.players k).inWorld := by
  rw [setGold, updPlayer_players]
  split_ifs with hk
  · rw [hk]
  · rfl

theorem changeGold_of_legal {n : Int} (hlow : 0 ≤ n) (hhigh : n ≤ MAX_GOLD_FOR_INVENTORY) :
    w.changeGold h n = (.success, w.setGold h n) := by
  unfold changeGold
  split_ifs with hne hmax hneg
  · omega
  · omega
  · rfl
  · rw [not_not.mp hne, setGold_self]

theorem changeGold_of_neg {n : Int} (hgold : 0 ≤ (w.players h).nGold) (hneg : n < 0) :
    w.changeGold h n = (.tooCheap, w) := by
  have hmax : ¬n > MAX_GOLD_FOR_INVENTORY := by
    unfold MAX_GOLD_FOR_INVENTORY
    omega
  rw [changeGold, if_pos (by omega), if_neg hmax, if_pos hneg]

/-- `h` can pay what it offers in gold. -/
def PaysGold (w : World) (h : Handle) : Prop :=
  (w.players h).inWorld = true ∧ 0 ≤ (w.tradeOf h).nTradeGold ∧
    (w.tradeOf h).nTradeGold ≤ (w.players h).nGold

instance (w : World) (h : Handle) : Decidable (PaysGold w h) :=
  inferInstanceAs (Decidable (_ ∧ _ ∧ _))

/-- A player's gold is an amount that `ChangeGold` accepts. -/
abbrev LegalGold (w : World) (h : Handle) : Prop :=
  0 ≤ (w.players h).nGold ∧ (w.players h).nGold ≤ MAX_GOLD_FOR_INVENTORY

theorem payTradeGold_pays {gold : Int} (hne : h ≠ target) (hlegal : LegalGold w h)
    (htlegal : LegalGold w target) (hpos : 0 ≤ gold) (hle : gold ≤ (w.players h).nGold)
    (hmax : (w.players target).nGold + gold ≤ MAX_GOLD_FOR_INVENTORY) :
    w.payTradeGold h target gold = some (.success,
      (w.setGold h ((w.players h).nGold - gold)).setGold target ((w.players target).nGold + gold)) := by
  have hbound : MAX_GOLD_FOR_INVENTORY = 100000000000 := rfl
  have hrest : Lib.IsInt64 ((w.players h).nGold + -gold) := by
    unfold Lib.IsInt64
    omega
  have hsum : Lib.IsInt64 ((w.players target).nGold + gold) := by
    unfold Lib.IsInt64
    omega
  rw [payTradeGold, Lib.add64_of_isInt64 hrest, Option.bind_some,
    changeGold_of_legal (by omega) (by omega)]
  simp only [setGold_nGold, if_neg hne.symm, Lib.add64_of_isInt64 hsum, Option.map_some]
  rw [changeGold_of_legal (by omega) hmax, ← sub_eq_add_neg]

theorem payTradeGold_refuses {gold : Int} (hlegal : LegalGold w h) (hlt : (w.players h).nGold < gold)
    (hfit : gold < 2 ^ 63) : w.payTradeGold h target gold = some (.tooMuchMoney, w) := by
  have hrest : Lib.IsInt64 ((w.players h).nGold + -gold) := by
    unfold Lib.IsInt64 at *
    omega
  rw [payTradeGold, Lib.add64_of_isInt64 hrest, Option.bind_some,
    changeGold_of_neg hlegal.1 (by omega)]
  simp only [changeGold_of_legal hlegal.1 hlegal.2, setGold_self]

/-- A side in a trade with `target`, as far as `processTradeGold` looks at it. -/
structure InTrade (w : World) (h target : Handle) : Prop where
  bTrading : (w.tradeOf h).bTrading = true
  bTradeFreezed : (w.tradeOf h).bTradeFreezed = true
  getTradeTarget : w.getTradeTarget h = some target

theorem InTrade.same (hin : InTrade w h target) (hsame : SameTrades w w') : InTrade w' h target :=
  ⟨hsame.tradeOf h ▸ hin.bTrading, hsame.tradeOf h ▸ hin.bTradeFreezed,
    (hsame.getTradeTarget h).trans hin.getTradeTarget⟩

theorem processTradeGold_pays (hin : InTrade w h target) (hne : h ≠ target) (hlegal : LegalGold w h)
    (htlegal : LegalGold w target) (hpays : PaysGold w h)
    (hmax : (w.players target).nGold + (w.tradeOf h).nTradeGold ≤ MAX_GOLD_FOR_INVENTORY) :
    w.processTradeGold h = some (.success,
      (w.setGold h ((w.players h).nGold - (w.tradeOf h).nTradeGold)).setGold target
        ((w.players target).nGold + (w.tradeOf h).nTradeGold)) := by
  obtain ⟨hworld, hpos, hle⟩ := hpays
  have hactive : ¬(¬(w.tradeOf h).bTrading = true ∨ ¬(w.tradeOf h).bTradeFreezed = true) := by
    simp [hin.bTrading, hin.bTradeFreezed]
  rw [processTradeGold, if_neg hactive, hin.getTradeTarget]
  dsimp only
  rw [if_neg (not_not.mpr hworld)]
  split_ifs with hzero hneg
  · rw [hzero, sub_zero, add_zero, setGold_self, setGold_self]
  · omega
  · exact payTradeGold_pays hne hlegal htlegal hpos hle hmax

theorem processTradeGold_refuses (hin : InTrade w h target) (hlegal : LegalGold w h)
    (hfit : (w.tradeOf h).nTradeGold < 2 ^ 63) (hpays : ¬PaysGold w h) :
    ∃ c, c ≠ .success ∧ w.processTradeGold h = some (c, w) := by
  have hactive : ¬(¬(w.tradeOf h).bTrading = true ∨ ¬(w.tradeOf h).bTradeFreezed = true) := by
    simp [hin.bTrading, hin.bTradeFreezed]
  rw [processTradeGold, if_neg hactive, hin.getTradeTarget]
  dsimp only
  split_ifs with hworld hzero hneg
  · exact absurd ⟨hworld, hzero.ge, hzero.le.trans hlegal.1⟩ hpays
  · exact ⟨.accessDenied, by decide, rfl⟩
  · refine ⟨.tooMuchMoney, by decide, payTradeGold_refuses hlegal ?_ hfit⟩
    by_contra hle
    exact hpays ⟨hworld, not_lt.mp hneg, not_lt.mp hle⟩
  · exact ⟨.notExist, by decide, rfl⟩

/-- The gold of the two players once both have paid. -/
def swapGold (w : World) (h target : Handle) : World :=
  (w.setGold h ((w.players h).nGold - (w.tradeOf h).nTradeGold + (w.tradeOf target).nTradeGold)).setGold target
    ((w.players target).nGold + (w.tradeOf h).nTradeGold - (w.tradeOf target).nTradeGold)

/-- Both sides can pay; the target pays out of what it has been paid. -/
structure GoldReady (w : World) (h target : Handle) : Prop where
  mine : PaysGold w h
  inWorld : (w.players target).inWorld = true
  theirs : 0 ≤ (w.tradeOf target).nTradeGold ∧
    (w.tradeOf target).nTradeGold ≤ (w.players target).nGold + (w.tradeOf h).nTradeGold

theorem goldReady_iff : GoldReady w h target ↔ PaysGold w h ∧ (w.players target).inWorld = true ∧
    0 ≤ (w.tradeOf target).nTradeGold ∧
      (w.tradeOf target).nTradeGold ≤ (w.players target).nGold + (w.tradeOf h).nTradeGold :=
  ⟨fun ⟨h₁, h₂, h₃⟩ => ⟨h₁, h₂, h₃⟩, fun ⟨h₁, h₂, h₃⟩ => ⟨h₁, h₂, h₃⟩⟩

instance (w : World) (h target : Handle) : Decidable (GoldReady w h target) :=
  decidable_of_iff _ goldReady_iff.symm

/-- What `onConfirmTrade` has checked about the two sides and their gold. -/
structure TradeChecked (w : World) (h target : Handle) : Prop where
  ne : h ≠ target
  mine : InTrade w h target
  theirs : InTrade w target h
  legal : LegalGold w h
  tlegal : LegalGold w target
  fit : (w.tradeOf h).nTradeGold < 2 ^ 63
  tfit : (w.tradeOf target).nTradeGold < 2 ^ 63
  gold : (w.players h).nGold + (w.tradeOf target).nTradeGold ≤ MAX_GOLD_FOR_INVENTORY
  tgold : (w.players target).nGold + (w.tradeOf h).nTradeGold ≤ MAX_GOLD_FOR_INVENTORY

theorem restoreGold_setGold (hne : h ≠ target) (hlegal : LegalGold w h) (htlegal : LegalGold w target)
    (m n : Int) : ((w.setGold h m).setGold target n).restoreGold h target (w.players h).nGold
      (w.players target).nGold = w := by
  rw [restoreGold, changeGold_of_legal hlegal.1 hlegal.2]
  dsimp only
  rw [changeGold_of_legal htlegal.1 htlegal.2, setGold_comm _ hne.symm, setGold_setGold, setGold_setGold,
    setGold_self, setGold_self]

/-- **Both sides pay.** -/
theorem exchangeGold_pays (hc : TradeChecked w h target) (hready : GoldReady w h target) :
    w.exchangeGold h target = some (true, w.swapGold h target) := by
  obtain ⟨hne, hmine, htheirs, hlegal, htlegal, -, -, hgold, htgold⟩ := hc
  obtain ⟨hpays, htworld, htpos, htle⟩ := hready
  have hpos := hpays.2.1
  have hle := hpays.2.2
  have hfirst := processTradeGold_pays hmine hne hlegal htlegal hpays htgold
  have hsame : SameTrades w ((w.setGold h ((w.players h).nGold - (w.tradeOf h).nTradeGold)).setGold target
      ((w.players target).nGold + (w.tradeOf h).nTradeGold)) :=
    (setGold_sameTrades w h _).trans (setGold_sameTrades _ target _)
  have hsecond := processTradeGold_pays (htheirs.same hsame) hne.symm
    (by simp only [LegalGold, setGold_nGold, if_pos]; omega)
    (by simp only [LegalGold, setGold_nGold, if_neg hne, if_pos]; omega)
    ⟨by simpa using htworld, by rw [hsame.tradeOf]; exact htpos,
      by rw [hsame.tradeOf]; simpa using htle⟩
    (by rw [hsame.tradeOf]; simp only [setGold_nGold, if_neg hne, if_pos]; omega)
  rw [exchangeGold, hfirst, Option.bind_some]
  simp only [ne_eq, not_true_eq_false, if_false, hsecond, Option.map_some, hsame.tradeOf, setGold_nGold,
    if_neg hne, if_pos]
  rw [setGold_setGold, setGold_comm _ hne.symm, setGold_setGold, swapGold]

/-- **Or nobody does.** -/
theorem exchangeGold_refuses (hc : TradeChecked w h target) (hready : ¬GoldReady w h target) :
    w.exchangeGold h target = some (false, w) := by
  obtain ⟨hne, hmine, htheirs, hlegal, htlegal, hfit, htfit, hgold, htgold⟩ := hc
  by_cases hpays : PaysGold w h
  · have hpos := hpays.2.1
    have hle := hpays.2.2
    have hfirst := processTradeGold_pays hmine hne hlegal htlegal hpays htgold
    have hsame : SameTrades w ((w.setGold h ((w.players h).nGold - (w.tradeOf h).nTradeGold)).setGold target
        ((w.players target).nGold + (w.tradeOf h).nTradeGold)) :=
      (setGold_sameTrades w h _).trans (setGold_sameTrades _ target _)
    obtain ⟨c, hcne, hsecond⟩ := processTradeGold_refuses (htheirs.same hsame)
      (by simp only [LegalGold, setGold_nGold, if_pos]; omega) (by rw [hsame.tradeOf]; exact htfit)
      fun htpays => hready ⟨hpays, by simpa using htpays.1, by simpa [hsame.tradeOf] using htpays.2⟩
    rw [exchangeGold, hfirst, Option.bind_some]
    simp only [ne_eq, not_true_eq_false, if_false, hsecond, Option.map_some, hcne, not_false_eq_true, if_true]
    rw [restoreGold_setGold hne hlegal htlegal]
  · obtain ⟨c, hcne, hfirst⟩ := processTradeGold_refuses hmine hlegal hfit hpays
    have hrestore := restoreGold_setGold hne hlegal htlegal (w.players h).nGold (w.players target).nGold
    rw [setGold_self, setGold_self] at hrestore
    rw [exchangeGold, hfirst, Option.bind_some]
    simp only [ne_eq, hcne, not_false_eq_true, if_true, hrestore]

end Gold

/-! ## Giving one item -/

/-- `GiveItem` refuses, or hands an item of the giver's bag over. -/
theorem giveItem_cases {b : Bool} (hok : WorldOk w) (hg : w.playerPool g = true)
    (hk : w.playerPool k = true) (hne : g ≠ k) (hc : Lib.IsInt32 c)
    (hrun : w.giveItem g k handle c = some (b, w')) :
    (b = false ∧ w' = w) ∨
    (b = true ∧ ∃ p ∈ (w.inv (bag g)).vList, (w.items p).handle = handle ∧ c ≤ (w.items p).inst.nCount ∧
      Gave w w' g k p c) := by
  have hc64 : Lib.IsInt64 c := by
    unfold Lib.IsInt64 Lib.IsInt32 at *
    omega
  unfold giveItem at hrun
  cases hfind : w.findItemByHandle g handle with
  | none =>
    rw [hfind] at hrun
    obtain ⟨rfl, rfl⟩ := Prod.mk.inj (Option.some.inj hrun)
    exact .inl ⟨rfl, rfl⟩
  | some p =>
    rw [hfind] at hrun
    obtain ⟨tradable, -, hrun⟩ := Option.bind_eq_some_iff.mp hrun
    obtain ⟨hp, hhandle⟩ := hok.findByHandle_iff.mp hfind
    split_ifs at hrun with hno
    · obtain ⟨rfl, rfl⟩ := Prod.mk.inj (Option.some.inj hrun)
      exact .inl ⟨rfl, rfl⟩
    · obtain ⟨w₁, hgive, heq⟩ := Option.map_eq_some_iff.mp hrun
      obtain ⟨rfl, rfl⟩ := Prod.mk.inj heq
      have hle : c ≤ (w.items p).inst.nCount := by
        by_contra hgt
        exact hno (.inr (not_le.mp hgt))
      exact .inr ⟨rfl, p, hp, hhandle, hle, handOver_gave hok hg hk hne hp hle hc64 hgive⟩

/-- An item that can be traded still can after other goods have moved. -/
theorem isTradable_later (hok : WorldOk w) (hl : Later w w') (hq : q ∈ (w.inv r).vList)
    (halike : Alike (w.items q) (w'.items q)) (htrue : w.isTradable h q = some true) :
    w'.isTradable h q = some true := by
  have hbound : w'.isBoundSummonCard h q = true → w.isBoundSummonCard h q = true := by
    simp only [isBoundSummonCard, decide_eq_true_eq]
    rintro ⟨i, card, hcard, hhandle⟩
    rw [hl.aBindSummonCard] at hcard
    refine ⟨i, card, hcard, ?_⟩
    rw [halike.handle] at hhandle
    rcases hl.handle card with hsame | hnew
    · exact hsame.symm.trans hhandle
    · exact absurd (hhandle ▸ hnew) (Nat.not_le.mpr (hok.handle_lt hq))
  unfold isTradable at htrue ⊢
  obtain ⟨erasable, herasable, htrue⟩ := Option.map_eq_some_iff.mp htrue
  obtain ⟨rfl, htradable⟩ := Bool.and_eq_true_iff.mp htrue
  have hstill : w'.isErasable h q = some true := by
    rw [isErasable_eq_true] at herasable ⊢
    rw [halike.isInInventory, halike.OwnerHandle, halike.nWearInfo, halike.itemBase, halike.isInStorage,
      halike.hBindedTarget]
    obtain ⟨hin, howner, hwear, hstorage, base, hbase, hskill, hsummon⟩ := herasable
    exact ⟨hin, howner, hwear, hstorage, base, hbase, hskill, fun hno => hsummon ⟨hno.1, hbound hno.2⟩⟩
  rw [hstill, halike.isTradable, Option.map_some, htradable]
  rfl

/-! ## Giving the items of a table -/

/-- The units of an item code that a table offers. -/
def offered (w : World) (es : List (Handle × Int)) (code : Int) : Int :=
  (es.map fun e => match w.itemPool e.1 with
    | none => 0
    | some p => if (w.items p).inst.Code = code then e.2 else 0).sum

@[simp] theorem offered_nil (w : World) (code : Int) : offered w [] code = 0 := rfl

theorem offered_cons (hok : WorldOk w) (hp : p ∈ (w.inv r).vList) (c : Int) (es : List (Handle × Int))
    (code : Int) : offered w (((w.items p).handle, c) :: es) code =
      (if (w.items p).inst.Code = code then c else 0) + offered w es code := by
  simp only [offered, List.map_cons, List.sum_cons, (hok.held r p hp).pooled]

/-- `GiveItem` finds the entries in the inventory `r`. -/
def Found (w : World) (r : InvRef) (es : List (Handle × Int)) : Prop :=
  ∀ e ∈ es, ∃ p ∈ (w.inv r).vList, (w.items p).handle = e.1

theorem offered_later (hok : WorldOk w) (hl : Later w w') (hfound : Found w r es) (code : Int) :
    offered w' es code = offered w es code := by
  unfold offered
  congr 1
  refine List.map_congr_left fun e he => ?_
  obtain ⟨p, hp, hhandle⟩ := hfound e he
  have hpool := (hok.held r p hp).pooled
  rw [hl.itemPool e.1 (hhandle ▸ hok.handle_lt hp), ← hhandle, hpool]
  dsimp only
  rw [hl.Code p ((hok.stocked r).heap p hp)]

/-- All entries of a table have gone from `g` to `k`. -/
structure Delivered (w w' : World) (g k : Handle) (es : List (Handle × Int)) : Prop where
  owned : ∀ e ∈ es, ∃ p ∈ (w.inv (bag g)).vList, (w.items p).handle = e.1 ∧ e.2 ≤ (w.items p).inst.nCount
  units : ∀ code r, units code w' r = units code w r +
    (if r = bag k then offered w es code else 0) - (if r = bag g then offered w es code else 0)

theorem Delivered.found (hd : Delivered w w' g k es) : Found w (bag g) es := fun e he =>
  have ⟨p, hp, hhandle, _⟩ := hd.owned e he
  ⟨p, hp, hhandle⟩

/-- The items that are left were there before, and an entry for another item means what it meant. -/
theorem Gave.owned_before {e : Handle × Int} (hgave : Gave w w₁ g k p c) (hne : (w.items p).handle ≠ e.1)
    (hq : q ∈ (w₁.inv (bag g)).vList) (hhandle : (w₁.items q).handle = e.1) :
    q ≠ p ∧ q ∈ (w.inv (bag g)).vList ∧ (w.items q).handle = e.1 ∧
      (w₁.items q).inst.nCount = (w.items q).inst.nCount := by
  obtain ⟨hmem, halike, hcount⟩ := hgave.left q hq
  rw [halike.handle] at hhandle
  have hqp : q ≠ p := fun heq => hne (heq ▸ hhandle)
  rw [if_neg hqp, sub_zero] at hcount
  exact ⟨hqp, hmem, hhandle, hcount⟩

theorem giveItems_ok {res : ResultCode} (hg : w.playerPool g = true) (hk : w.playerPool k = true)
    (hne : g ≠ k) (hes : ∀ e ∈ es, Lib.IsInt32 e.2) (hok : WorldOk w)
    (hrun : w.giveItems g k es = some (res, w')) : WorldOk w' ∧ Later w w' := by
  induction es generalizing w with
  | nil =>
    obtain ⟨-, rfl⟩ := Prod.mk.inj (Option.some.inj hrun)
    exact ⟨hok, .refl w⟩
  | cons e es ih =>
    obtain ⟨⟨b, w₁⟩, hgive, hrest⟩ := Option.bind_eq_some_iff.mp hrun
    have hc := hes e (List.mem_cons_self ..)
    rcases giveItem_cases hok hg hk hne hc hgive with ⟨rfl, rfl⟩ | ⟨rfl, p, hp, -, -, hgave⟩
    · obtain ⟨-, rfl⟩ := Prod.mk.inj (Option.some.inj hrest)
      exact ⟨hok, .refl _⟩
    · have hpool := hgave.later.playerPool
      obtain ⟨hok', hl⟩ := ih (hpool ▸ hg) (hpool ▸ hk) (fun e' he' => hes e' (List.mem_cons_of_mem _ he'))
        hgave.ok hrest
      exact ⟨hok', hgave.later.trans hl⟩

/-- **What has moved when the whole table has been given.** -/
theorem giveItems_delivered (hg : w.playerPool g = true) (hk : w.playerPool k = true) (hne : g ≠ k)
    (htable : Table es) (hok : WorldOk w) (hrun : w.giveItems g k es = some (.success, w')) :
    Delivered w w' g k es := by
  induction es generalizing w with
  | nil =>
    obtain ⟨-, rfl⟩ := Prod.mk.inj (Option.some.inj hrun)
    exact ⟨fun _ h => absurd h List.not_mem_nil, fun code r => by simp⟩
  | cons e es ih =>
    obtain ⟨⟨b, w₁⟩, hgive, hnext⟩ := Option.bind_eq_some_iff.mp hrun
    have hnodup := List.nodup_cons.mp htable.nodup
    have htable' : Table es := ⟨hnodup.2, fun e' he' => htable.count e' (List.mem_cons_of_mem _ he')⟩
    rcases giveItem_cases hok hg hk hne (htable.count e (List.mem_cons_self ..)) hgive with
      ⟨rfl, rfl⟩ | ⟨rfl, p, hp, hhandle, hle, hgave⟩
    · cases hnext
    · have hpool := hgave.later.playerPool
      have hrest := ih (hpool ▸ hg) (hpool ▸ hk) htable' hgave.ok hnext
      have hbefore : ∀ e' ∈ es, ∃ q ∈ (w.inv (bag g)).vList,
          (w.items q).handle = e'.1 ∧ e'.2 ≤ (w.items q).inst.nCount := fun e' he' => by
        obtain ⟨q, hq, hqhandle, hqle⟩ := hrest.owned e' he'
        have hother : (w.items p).handle ≠ e'.1 := fun heq =>
          hnodup.1 (hhandle ▸ heq ▸ List.mem_map_of_mem he')
        obtain ⟨-, hmem, hq₀, hcount⟩ := hgave.owned_before hother hq hqhandle
        exact ⟨q, hmem, hq₀, hcount ▸ hqle⟩
      have hsame := offered_later hok hgave.later fun e' he' =>
        have ⟨q, hq, hqhandle, _⟩ := hbefore e' he'
        ⟨q, hq, hqhandle⟩
      refine ⟨fun e' he' => ?_, fun code r => ?_⟩
      · rcases List.mem_cons.mp he' with rfl | he'
        · exact ⟨p, hp, hhandle, hle⟩
        · exact hbefore e' he'
      · have he : e = ((w.items p).handle, e.2) := Prod.ext hhandle.symm rfl
        have hcons := offered_cons hok hp e.2 es code
        rw [← he] at hcons
        rw [hrest.units, hgave.units, hsame, hcons]
        by_cases hcode : (w.items p).inst.Code = code
        · simp only [hcode, and_true, if_true]
          split_ifs <;> omega
        · simp only [hcode, and_false, if_false, zero_add, add_zero, sub_zero]

/-! ## When nothing stops the items -/

/-- No count of a stack of `k` overflows when the whole table goes to `k`. -/
structure Room (w : World) (k : Handle) (es : List (Handle × Int)) : Prop where
  offer : ∀ code, offered w es code < 2 ^ 63
  stack : ∀ q ∈ (w.inv (bag k)).vList, (w.items q).inst.nCount + offered w es (w.items q).inst.Code < 2 ^ 63

/-- Every entry of the table is a positive number of units that `g` has and may trade, and `k` has room
for them. -/
structure Ready (w : World) (g k : Handle) (es : List (Handle × Int)) : Prop where
  deliverable : ∀ e ∈ es, 1 ≤ e.2 ∧ ∃ p ∈ (w.inv (bag g)).vList, (w.items p).handle = e.1 ∧
    e.2 ≤ (w.items p).inst.nCount ∧ w.isTradable g p = some true
  room : Room w k es

theorem Ready.found (hr : Ready w g k es) : Found w (bag g) es := fun e he =>
  have ⟨_, p, hp, hhandle, _⟩ := hr.deliverable e he
  ⟨p, hp, hhandle⟩

theorem offered_nonneg (hpos : ∀ e ∈ es, 0 ≤ e.2) (w : World) (code : Int) : 0 ≤ offered w es code := by
  refine List.sum_nonneg fun n hn => ?_
  obtain ⟨e, he, rfl⟩ := List.mem_map.mp hn
  have hcount := hpos e he
  split
  · exact le_rfl
  · split_ifs
    · exact hcount
    · exact le_rfl

/-- What is left of the table stays ready. -/
theorem Ready.next {e : Handle × Int} (hok : WorldOk w) (hnodup : ((e :: es).map Prod.fst).Nodup)
    (hr : Ready w g k (e :: es)) (hp : p ∈ (w.inv (bag g)).vList) (hhandle : (w.items p).handle = e.1)
    (hgave : Gave w w₁ g k p e.2) : Ready w₁ g k es := by
  have hrest : ∀ e' ∈ es, 1 ≤ e'.2 ∧ ∃ q ∈ (w.inv (bag g)).vList, (w.items q).handle = e'.1 ∧
      e'.2 ≤ (w.items q).inst.nCount ∧ w.isTradable g q = some true := fun e' he' =>
    hr.deliverable e' (List.mem_cons_of_mem _ he')
  have hfound : Found w (bag g) es := fun e' he' => hr.found e' (List.mem_cons_of_mem _ he')
  have hsame := offered_later hok hgave.later hfound
  have hcons := offered_cons hok hp e.2 es
  rw [show ((w.items p).handle, e.2) = e from Prod.ext hhandle rfl] at hcons
  have hpos := (hr.deliverable e (List.mem_cons_self ..)).1
  refine ⟨fun e' he' => ?_, fun code => ?_, fun q hq => ?_⟩
  · obtain ⟨hpos', q, hq, hqhandle, hle, htradable⟩ := hrest e' he'
    have hqp : q ≠ p := by
      rintro rfl
      exact (List.nodup_cons.mp hnodup).1 (hhandle ▸ hqhandle ▸ List.mem_map_of_mem he')
    have hstays := hgave.stays q hq hqp
    obtain ⟨-, halike, hcount⟩ := hgave.left q hstays
    rw [if_neg hqp, sub_zero] at hcount
    exact ⟨hpos', q, hstays, halike.handle.trans hqhandle, hcount.symm ▸ hle,
      isTradable_later hok hgave.later hq halike htradable⟩
  · have hbound := hr.room.offer code
    rw [hcons] at hbound
    rw [hsame]
    split_ifs at hbound <;> omega
  · rw [hsame]
    rcases hgave.entered q hq with ⟨hqk, hcount | ⟨hcode, hcount⟩⟩ | ⟨-, hcode, hcount⟩
    · have hbound := hr.room.stack q hqk
      rw [hcons] at hbound
      rw [hcount, (hgave.keeps q hqk).2.Code]
      split_ifs at hbound <;> omega
    · have hbound := hr.room.stack q hqk
      rw [hcons, if_pos hcode.symm] at hbound
      rw [hcount, (hgave.keeps q hqk).2.Code]
      omega
    · have hbound := hr.room.offer (w.items p).inst.Code
      rw [hcons, if_pos rfl] at hbound
      rw [hcount, hcode]
      exact hbound

/-- So does the other side's table. -/
theorem Ready.back (hok : WorldOk w) (hr : Ready w k g es) (hpos : 0 ≤ c) (hgave : Gave w w₁ g k p c) :
    Ready w₁ k g es := by
  have hsame := offered_later hok hgave.later hr.found
  refine ⟨fun e he => ?_, fun code => ?_, fun q hq => ?_⟩
  · obtain ⟨hone, q, hq, hhandle, hle, htradable⟩ := hr.deliverable e he
    obtain ⟨hmem, halike⟩ := hgave.keeps q hq
    refine ⟨hone, q, hmem, halike.handle.trans hhandle, ?_, isTradable_later hok hgave.later hq halike htradable⟩
    rcases hgave.entered q hmem with ⟨-, hcount | ⟨-, hcount⟩⟩ | ⟨hno, -⟩
    · omega
    · omega
    · exact absurd hq hno
  · rw [hsame]
    exact hr.room.offer code
  · obtain ⟨hq₀, halike, hcount⟩ := hgave.left q hq
    have hbound := hr.room.stack q hq₀
    rw [hsame, halike.Code, hcount]
    split_ifs <;> omega

theorem Ready.gives {e : Handle × Int} (hok : WorldOk w) (hg : w.playerPool g = true)
    (hk : w.playerPool k = true) (hne : g ≠ k) (hr : Ready w g k (e :: es)) :
    ∃ w₁, w.giveItem g k e.1 e.2 = some (true, w₁) := by
  obtain ⟨hpos, p, hp, hhandle, hle, htradable⟩ := hr.deliverable e (List.mem_cons_self ..)
  have hrest : ∀ e' ∈ es, 0 ≤ e'.2 := fun e' he' => by
    have hone := (hr.deliverable e' (List.mem_cons_of_mem _ he')).1
    omega
  have hcons := offered_cons hok hp e.2 es
  rw [show ((w.items p).handle, e.2) = e from Prod.ext hhandle rfl] at hcons
  have hsome := handOver_isSome hok hg hk hne hp hpos hle fun q hq hcode => by
    have hbound := hr.room.stack q hq
    have hnonneg := offered_nonneg hrest w (w.items p).inst.Code
    rw [hcons, hcode, if_pos rfl] at hbound
    omega
  obtain ⟨w₁, hgive⟩ := Option.isSome_iff_exists.mp hsome
  have hfind : w.findItemByHandle g e.1 = some p := hok.findByHandle_iff.mpr ⟨hp, hhandle⟩
  refine ⟨w₁, ?_⟩
  rw [giveItem, hfind]
  simp only [htradable, Option.bind_some, hgive, Option.map_some]
  rw [if_neg (by simp [hle])]

/-- **A table that is ready is given completely**, and the other side's table stays ready. -/
theorem giveItems_delivers {es' : List (Handle × Int)} (hg : w.playerPool g = true)
    (hk : w.playerPool k = true) (hne : g ≠ k) (htable : Table es) (hok : WorldOk w)
    (hr : Ready w g k es) (hr' : Ready w k g es') :
    ∃ w', w.giveItems g k es = some (.success, w') ∧ Ready w' k g es' := by
  induction es generalizing w with
  | nil => exact ⟨w, rfl, hr'⟩
  | cons e es ih =>
    obtain ⟨w₁, hgive⟩ := hr.gives hok hg hk hne
    rcases giveItem_cases hok hg hk hne (htable.count e (List.mem_cons_self ..)) hgive with
      ⟨hno, -⟩ | ⟨-, p, hp, hhandle, -, hgave⟩
    · cases hno
    · have hpool := hgave.later.playerPool
      have hpos := (hr.deliverable e (List.mem_cons_self ..)).1
      have htable' : Table es := ⟨(List.nodup_cons.mp htable.nodup).2, fun e' he' =>
        htable.count e' (List.mem_cons_of_mem _ he')⟩
      obtain ⟨w', hrun, hback⟩ := ih (hpool ▸ hg) (hpool ▸ hk) htable' hgave.ok
        (hr.next hok htable.nodup hp hhandle hgave) (hr'.back hok (by omega) hgave)
      refine ⟨w', ?_, hback⟩
      rw [giveItems, hgive, Option.bind_some]
      exact hrun

/-! ## Gold and trades do not matter to goods -/

theorem setGold_sameGoods (w : World) (h : Handle) (n : Int) : SameGoods w (w.setGold h n) :=
  .updPlayer w h (g := fun p => { p with nGold := n }) (fun _ => ⟨rfl, rfl⟩) (fun _ => rfl) (fun _ => rfl)
    fun _ => rfl

theorem setTrade_sameGoods (w : World) (h : Handle) (t : TradeInfo) : SameGoods w (w.setTrade h t) :=
  .updPlayer w h (g := fun p => { p with trade := t }) (fun _ => ⟨rfl, rfl⟩) (fun _ => rfl) (fun _ => rfl)
    fun _ => rfl

namespace SameGoods

variable (hs : SameGoods w w')

include hs

theorem units (code : Int) (r : InvRef) : units code w' r = units code w r :=
  total_congr _ (by rw [hs.inv]) fun _ _ => by rw [hs.items]

theorem offered (es : List (Handle × Int)) (code : Int) : w'.offered es code = w.offered es code := by
  unfold World.offered
  rw [hs.itemPool, hs.items]

theorem isTradable (h : Handle) (p : ItemPtr) : w'.isTradable h p = w.isTradable h p := by
  unfold World.isTradable isErasable isBoundSummonCard
  simp only [hs.items, hs.aBindSummonCard]

theorem ready (hr : Ready w g k es) : Ready w' g k es := by
  refine ⟨fun e he => ?_, fun code => ?_, fun q hq => ?_⟩
  · rw [hs.inv, hs.items]
    simp only [hs.isTradable]
    exact hr.deliverable e he
  · rw [hs.offered]
    exact hr.room.offer code
  · rw [hs.inv] at hq
    rw [hs.items, hs.offered]
    exact hr.room.stack q hq

end SameGoods

theorem swapGold_sameGoods (w : World) (h target : Handle) : SameGoods w (w.swapGold h target) :=
  (setGold_sameGoods w h _).trans (setGold_sameGoods _ target _)

theorem swapGold_sameTrades (w : World) (h target : Handle) : SameTrades w (w.swapGold h target) :=
  (setGold_sameTrades w h _).trans (setGold_sameTrades _ target _)

theorem swapGold_nGold (hne : h ≠ target) :
    ((w.swapGold h target).players h).nGold =
      (w.players h).nGold - (w.tradeOf h).nTradeGold + (w.tradeOf target).nTradeGold ∧
    ((w.swapGold h target).players target).nGold =
      (w.players target).nGold + (w.tradeOf h).nTradeGold - (w.tradeOf target).nTradeGold := by
  simp [swapGold, hne]

theorem WorldOk.swapGold (hok : WorldOk w) (hc : TradeChecked w h target) (hready : GoldReady w h target) :
    WorldOk (w.swapGold h target) := by
  obtain ⟨hmine, htheirs⟩ := swapGold_nGold (w := w) hc.ne
  obtain ⟨⟨-, hpos, hle⟩, -, htpos, htle⟩ := hready
  have hgold := hc.gold
  have htgold := hc.tgold
  refine hok.sameGoods (swapGold_sameGoods w h target) (fun k hk => ?_) fun k hk => ?_
  · by_cases hkt : k = target
    · rw [hkt, htheirs]
      omega
    · by_cases hkh : k = h
      · rw [hkh, hmine]
        omega
      · simp only [World.swapGold, setGold_nGold, if_neg hkt, if_neg hkh]
        exact hok.gold k hk
  · rw [show ((w.swapGold h target).players k).trade = _ from (swapGold_sameTrades w h target).tradeOf k]
    exact hok.window k hk

/-! ## The whole of `ProcessTrade` -/

/-- The item phase, between two sides that are in a trade with each other. -/
theorem exchangeItems_eq (hok : WorldOk w) (hg : w.playerPool g = true) (hk : w.playerPool k = true)
    (hne : g ≠ k) (hmine : InTrade w g k) (htheirs : InTrade w k g) (hgw : (w.players g).inWorld = true)
    (hkw : (w.players k).inWorld = true) :
    w.exchangeItems g k = (w.giveItems g k (w.tradeOf g).vTradeItemList).bind fun (res, w₁) =>
      if res ≠ .success then some (false, w₁)
      else (w₁.giveItems k g (w.tradeOf k).vTradeItemList).map fun (res, w₂) =>
        if res ≠ .success then (false, w₂) else (true, (w₂.clearTradeInfo g).clearTradeInfo k) := by
  have hfirst : w.processTradeItem g = w.giveItems g k (w.tradeOf g).vTradeItemList := by
    rw [processTradeItem, hmine.getTradeTarget]
    exact if_neg (not_not.mpr hgw)
  rw [exchangeItems, hfirst]
  cases hrun : w.giveItems g k (w.tradeOf g).vTradeItemList with
  | none => rfl
  | some res =>
    obtain ⟨res, w₁⟩ := res
    have hsame := giveItems_sameTrades hrun
    have hl := (giveItems_ok hg hk hne (hok.window g hg).count hok hrun).2
    have hsecond : w₁.processTradeItem k = w₁.giveItems k g (w.tradeOf k).vTradeItemList := by
      rw [processTradeItem, (htheirs.same hsame).getTradeTarget, hsame.tradeOf]
      exact if_neg (not_not.mpr ((hl.inWorld k).trans hkw))
    simp only [Option.bind_some, hsecond]

/-- `ProcessTrade` stops at the gold, or the gold has changed hands when it comes to the items. -/
theorem processTrade_eq (hc : TradeChecked w g k) : w.processTrade g =
    if GoldReady w g k then (w.swapGold g k).exchangeItems g k else some (false, w) := by
  rw [processTrade, if_pos ⟨hc.mine.bTrading, hc.mine.bTradeFreezed⟩, hc.mine.getTradeTarget]
  dsimp only
  split_ifs with hready
  · rw [exchangeGold_pays hc hready]
    rfl
  · rw [exchangeGold_refuses hc hready]
    rfl

end RZEmulator.Chihiro.World
