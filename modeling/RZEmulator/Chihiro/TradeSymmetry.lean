import RZEmulator.Chihiro.TradeEffect

/-!
# Both parties are in a trade

A trade is kept on both sides, and a handler that ends it has to end it on both. `Symmetric` says that
whoever trades with a present player is that player's partner. Some branches of `onTrade` cancel one side
only, or the trades of two players who do not trade with each other (`World.drops`); as long as those are
taken by players whose partner, if there is one, is cancelled with them (`Paired`), no player is left
behind in a trade.
-/

namespace RZEmulator.Chihiro

open Lib

/-- The flags of a side: without a trade nothing is frozen, and a side accepts what it has frozen. -/
structure TradeInfo.Sound (t : TradeInfo) : Prop where
  idle : t.bTrading = false → t.bTradeFreezed = false ∧ t.hTradeTarget = 0
  frozen : t.bTradeAccepted = true → t.bTradeFreezed = true

namespace World

variable {w w' : World} {me a b : Handle} {packet : TradePacket} {e : TradeEvent}
  {Ok : World → Prop} {h : History World TradeEvent}

/-- `a` is in a trade with `b`. -/
def TradesWith (w : World) (a b : Handle) : Prop :=
  (w.tradeOf a).bTrading = true ∧ (w.tradeOf a).hTradeTarget = b

instance (w : World) (a b : Handle) : Decidable (w.TradesWith a b) :=
  inferInstanceAs (Decidable (_ ∧ _))

/-- Every present player's trade is sound, and `0` is nobody. -/
structure TradesSound (w : World) : Prop where
  null : w.playerPool 0 = false
  sound : ∀ h, w.playerPool h = true → (w.tradeOf h).Sound

theorem sound_empty : ({} : TradeInfo).Sound := ⟨fun _ => ⟨rfl, rfl⟩, nofun⟩

theorem tradesWith_empty {w : World} (ha : w.tradeOf a = {}) : ¬w.TradesWith a b := fun h => by
  have hfalse := h.1
  rw [ha] at hfalse
  cases hfalse

theorem getTradeTarget_eq_some {w : World} :
    w.getTradeTarget a = some b ↔
      (w.tradeOf a).hTradeTarget = b ∧ b ≠ 0 ∧ w.playerPool b = true := by
  unfold getTradeTarget findPlayer
  split_ifs with hzero hpool
  · simp only [false_iff, not_and]
    rintro rfl hne
    exact absurd hzero hne
  · constructor
    · rintro ⟨⟩
      exact ⟨rfl, hzero, hpool⟩
    · rintro ⟨rfl, -, -⟩
      rfl
  · simp only [false_iff, not_and]
    rintro rfl _
    exact hpool

theorem TradesSound.trading (hs : TradesSound w) (ha : w.playerPool a = true)
    (htarget : w.getTradeTarget a = some b) : w.TradesWith a b := by
  obtain ⟨rfl, hne, -⟩ := getTradeTarget_eq_some.mp htarget
  refine ⟨?_, rfl⟩
  by_contra hidle
  exact hne ((hs.sound a ha).idle (by simpa using hidle)).2

theorem TradesWith.getTradeTarget (hs : TradesSound w) (hab : w.TradesWith a b)
    (hb : w.playerPool b = true) : w.getTradeTarget a = some b := by
  refine getTradeTarget_eq_some.mpr ⟨hab.2, ?_, hb⟩
  rintro rfl
  rw [hs.null] at hb
  cases hb

theorem tradeReady_iff {target : Handle} :
    w.tradeReady me target = true ↔ (w.tradeOf me).bTrading = true ∧ (w.tradeOf target).bTrading = true ∧
      (w.tradeOf me).bTradeFreezed = true ∧ (w.tradeOf target).bTradeFreezed = true ∧
      w.getTradeTarget target = some me := by
  simp only [tradeReady, Bool.and_eq_true, beq_iff_eq, and_assoc]

theorem accepts_ready (hacc : w.accepts me packet = true) :
    w.tradeReady me packet.target_player = true := by
  unfold accepts at hacc
  simp only [Bool.and_eq_true] at hacc
  exact hacc.1.2

theorem accepts_ne (hacc : w.accepts me packet = true) : packet.target_player ≠ me := by
  unfold accepts at hacc
  simp only [Bool.and_eq_true, bne_iff_ne] at hacc
  exact hacc.1.1.1.1.2

theorem accepts_present (hacc : w.accepts me packet = true) :
    w.playerPool packet.target_player = true := by
  unfold accepts isValidTradeTarget at hacc
  simp only [Bool.and_eq_true] at hacc
  exact hacc.1.1.2.1.1

theorem startTrade_eq {target : Handle} (hidle : (w.tradeOf me).bTrading = false)
    (hfree : (w.tradeOf me).bTradeFreezed = false) :
    w.startTrade me target = w.setTrade me { bTrading := true, hTradeTarget := target } :=
  if_pos ⟨by simp [hidle], by simp [hfree]⟩

/-- Two players who had no trade begin one. -/
theorem startTrade_tradeOf {target : Handle} (hs : TradesSound w) (hne : target ≠ me)
    (hpool : w.playerPool me = true) (htpool : w.playerPool target = true)
    (hme : (w.tradeOf me).bTrading = false) (htarget : (w.tradeOf target).bTrading = false)
    (k : Handle) : ((w.startTrade me target).startTrade target me).tradeOf k =
      if k = target then { bTrading := true, hTradeTarget := me }
      else if k = me then { bTrading := true, hTradeTarget := target } else w.tradeOf k := by
  have hfree := ((hs.sound me hpool).idle hme).1
  have htfree := ((hs.sound target htpool).idle htarget).1
  have hother : (w.setTrade me { bTrading := true, hTradeTarget := target }).tradeOf target =
      w.tradeOf target := by rw [setTrade_tradeOf, if_neg hne]
  rw [startTrade_eq hme hfree, startTrade_eq (by rw [hother, htarget]) (by rw [hother, htfree]),
    setTrade_tradeOf, setTrade_tradeOf]

/-! ## Soundness of the flags -/

theorem TradesSound.same (hs : TradesSound w) (hsame : SameTrades w w') : TradesSound w' := by
  refine ⟨hsame.playerPool ▸ hs.null, fun h hh => ?_⟩
  rw [hsame.tradeOf]
  exact hs.sound h (hsame.playerPool ▸ hh)

theorem TradesSound.step (hs : TradesSound w) (hpool : w.playerPool me = true)
    (heff : TradeEffect w w' me packet) : TradesSound w' := by
  have hset : ∀ t : TradeInfo, t.Sound → TradesSound (w.setTrade me t) := fun t ht => by
    refine ⟨hs.null, fun h hh => ?_⟩
    rw [setTrade_tradeOf]
    split_ifs
    · exact ht
    · exact hs.sound h hh
  have hmine := hs.sound me hpool
  cases heff with
  | same hsame => exact hs.same hsame
  | cancels _ hcancels =>
    refine ⟨hcancels.playerPool ▸ hs.null, fun h hh => ?_⟩
    rw [hcancels.tradeOf]
    split_ifs
    · exact sound_empty
    · exact hs.sound h (hcancels.playerPool ▸ hh)
  | starts hne htpool hme htarget heq =>
    have hpools : w'.playerPool = w.playerPool := by
      rw [heq]
      unfold startTrade
      split_ifs <;> rfl
    refine ⟨hpools ▸ hs.null, fun h hh => ?_⟩
    rw [heq, startTrade_tradeOf hs hne hpool htpool hme htarget]
    split_ifs
    · exact ⟨nofun, nofun⟩
    · exact ⟨nofun, nofun⟩
    · exact hs.sound h (hpools ▸ hh)
  | offers _ ht heq =>
    rw [heq]
    refine hset _ ?_
    rw [ht]
    exact ⟨hmine.idle, hmine.frozen⟩
  | freezes htarget heq =>
    obtain ⟨target, htarget⟩ := Option.isSome_iff_exists.mp htarget
    have htrading := (hs.trading hpool htarget).1
    rw [heq]
    exact hset _ ⟨fun hidle => absurd (htrading.symm.trans hidle) (by decide), fun _ => rfl⟩
  | accepts hacc _ heq =>
    obtain ⟨-, -, hfrozen, -, -⟩ := tradeReady_iff.mp (accepts_ready hacc)
    rw [heq]
    exact hset _ ⟨hmine.idle, fun _ => hfrozen⟩

theorem TradesSound.other (hs : TradesSound w) (hkeeps : w.KeepsTrades w') : TradesSound w' := by
  refine ⟨hkeeps.null, fun h hh => ?_⟩
  rcases hkeeps.trades h hh with ⟨hh', hsame⟩ | ⟨-, hnew, -⟩
  · have hsound := hs.sound h hh'
    refine ⟨fun hidle => ?_, fun hacc => ?_⟩
    · rw [hsame.bTradeFreezed, hsame.hTradeTarget]
      exact hsound.idle (hsame.bTrading ▸ hidle)
    · rw [hsame.bTradeFreezed]
      exact hsound.frozen (hsame.bTradeAccepted ▸ hacc)
  · rw [hnew]
    exact sound_empty

/-! ## What a step of the system is -/

/-- A step is a message of a present player, leaves all trades alone, or is one of another handler. -/
theorem tradeSystem_cases (hstep : (tradeSystem Ok).Step w e w') :
    (∃ me packet, e = .trade me packet ∧ w.playerPool me = true ∧ w.onTrade me packet = some w' ∧
      TradeEffect w w' me packet) ∨
    ((∃ me bIsMoving x y, e = .move me bIsMoving x y) ∧ SameTrades w w') ∨
    (e = .other w' ∧ Ok w' ∧ w.KeepsTrades w') := by
  cases e with
  | trade me packet =>
    have hrun : w.tradeStep (.trade me packet) = some w' := hstep
    simp only [tradeStep] at hrun
    split_ifs at hrun with hpool
    exact .inl ⟨me, packet, rfl, hpool, hrun, onTrade_effect hrun⟩
  | move me bIsMoving x y =>
    have hrun : w.tradeStep (.move me bIsMoving x y) = some w' := hstep
    simp only [tradeStep] at hrun
    split_ifs at hrun
    obtain rfl := Option.some.inj hrun
    exact .inr (.inl ⟨⟨me, bIsMoving, x, y, rfl⟩, .updPlayer w me fun _ => rfl⟩)
  | other w₁ =>
    obtain ⟨rfl, hok, hkeeps⟩ := hstep
    exact .inr (.inr ⟨rfl, hok, hkeeps⟩)

theorem tradesSound_of_run {C : History World TradeEvent → World → TradeEvent → Prop}
    (hrun : (tradeSystem Ok).RunWhere C h w) : TradesSound w := by
  refine hrun.invariant (I := fun _ w => TradesSound w) (fun w hw => ?_) ?_
  · refine ⟨hw.2.1, fun k hk => ?_⟩
    rw [hw.2.2 k hk]
    exact sound_empty
  · intro _ w e w' _ hs _ hstep
    rcases tradeSystem_cases hstep with ⟨me, packet, -, hpool, -, heff⟩ | ⟨-, hsame⟩ | ⟨-, -, hkeeps⟩
    · exact hs.step hpool heff
    · exact hs.same hsame
    · exact hs.other hkeeps

/-! ## Symmetry -/

/-- Whoever trades with a present player is that player's partner. -/
def Symmetric (w : World) : Prop :=
  ∀ a b, w.playerPool a = true → w.playerPool b = true → w.TradesWith a b → w.TradesWith b a

/-- A message cancels nobody's trade without that of the other party, if that one is present. -/
def Paired (w : World) : TradeEvent → Prop
  | .trade me packet => ∀ a ∈ w.drops me packet, (w.tradeOf a).bTrading = true →
      w.playerPool (w.tradeOf a).hTradeTarget = true →
      (w.tradeOf a).hTradeTarget ∈ w.drops me packet
  | _ => True

instance (w : World) : (e : TradeEvent) → Decidable (Paired w e)
  | .trade me packet => inferInstanceAs (Decidable (∀ a ∈ w.drops me packet,
      (w.tradeOf a).bTrading = true → w.playerPool (w.tradeOf a).hTradeTarget = true →
        (w.tradeOf a).hTradeTarget ∈ w.drops me packet))
  | .move _ _ _ _ | .other _ => inferInstanceAs (Decidable True)

/-- With everybody whose trade is cancelled, so is that of the partner. -/
theorem Cancelled.closed {gone : List Handle} (hsym : Symmetric w) (hs : TradesSound w)
    (hpaired : Paired w (.trade me packet)) (hme : w.playerPool me = true)
    (hgone : Cancelled w me packet gone) (ha : a ∈ gone) (hb : w.playerPool b = true)
    (hab : w.TradesWith a b) : b ∈ gone := by
  cases hgone with
  | dropped =>
    obtain ⟨htrading, rfl⟩ := hab
    exact hpaired a ha htrading hb
  | alone hnone =>
    obtain rfl := List.mem_singleton.mp ha
    rw [hab.getTradeTarget hs hb] at hnone
    cases hnone
  | @cancelled target htrading htarget =>
    have hmine := hs.trading hme htarget
    have htpool := (getTradeTarget_eq_some.mp htarget).2.2
    rcases List.mem_cons.mp ha with rfl | ha
    · rw [← hab.2, (hsym me a hme htpool hmine).2]
      simp
    · obtain rfl := List.mem_singleton.mp ha
      rw [← hab.2, hmine.2]
      simp
  | settled hacc _ =>
    have htpool := accepts_present hacc
    have htheirs := hs.trading htpool (tradeReady_iff.mp (accepts_ready hacc)).2.2.2.2
    rcases List.mem_cons.mp ha with rfl | ha
    · rw [← hab.2, (hsym _ a htpool hme htheirs).2]
      simp
    · obtain rfl := List.mem_singleton.mp ha
      rw [← hab.2, htheirs.2]
      simp

/-- A write to one side that keeps its partner keeps everybody's. -/
theorem tradesWith_setTrade {t : TradeInfo} (htrading : t.bTrading = (w.tradeOf me).bTrading)
    (htarget : t.hTradeTarget = (w.tradeOf me).hTradeTarget) :
    (w.setTrade me t).TradesWith a b ↔ w.TradesWith a b := by
  unfold TradesWith
  rw [setTrade_tradeOf]
  split_ifs with ha
  · rw [htrading, htarget, ha]
  · rfl

theorem Symmetric.congr (hsym : Symmetric w) (hpool : w'.playerPool = w.playerPool)
    (hwith : ∀ a b, w'.TradesWith a b ↔ w.TradesWith a b) : Symmetric w' := fun a b ha hb hab =>
  (hwith b a).mpr (hsym a b (hpool ▸ ha) (hpool ▸ hb) ((hwith a b).mp hab))

theorem Symmetric.step (hsym : Symmetric w) (hs : TradesSound w) (hme : w.playerPool me = true)
    (hpaired : Paired w (.trade me packet)) (heff : TradeEffect w w' me packet) : Symmetric w' := by
  cases heff with
  | same hsame =>
    exact hsym.congr hsame.playerPool fun a b => by rw [TradesWith, TradesWith, hsame.tradeOf]
  | @cancels gone hgone hcancels =>
    intro a b ha hb hab
    rw [hcancels.playerPool] at ha hb
    have hstays : ∀ {c d : Handle}, w'.TradesWith c d → c ∉ gone ∧ w.TradesWith c d := fun hcd => by
      have hc := hcancels.tradeOf
      by_contra hno
      rw [TradesWith, hc] at hcd
      split_ifs at hcd with hmem
      · exact absurd hcd.1 (by decide)
      · exact hno ⟨hmem, hcd⟩
    obtain ⟨hagone, hab'⟩ := hstays hab
    have hba := hsym a b ha hb hab'
    have hbgone : b ∉ gone := fun hmem => hagone (hgone.closed hsym hs hpaired hme hmem ha hba)
    rw [TradesWith, hcancels.tradeOf, if_neg hbgone]
    exact hba
  | starts hne htpool hidle htidle heq =>
    have hafter := startTrade_tradeOf hs hne hme htpool hidle htidle
    intro a b ha hb hab
    have hpools : w'.playerPool = w.playerPool := by
      rw [heq]
      unfold startTrade
      split_ifs <;> rfl
    rw [hpools] at ha hb
    rw [TradesWith, heq, hafter] at hab ⊢
    by_cases hat : a = packet.target_player
    · rw [if_pos hat] at hab
      obtain rfl : me = b := hab.2
      rw [if_neg (Ne.symm hne), if_pos rfl]
      exact ⟨rfl, hat.symm⟩
    · by_cases ham : a = me
      · rw [if_neg hat, if_pos ham] at hab
        obtain rfl : packet.target_player = b := hab.2
        rw [if_pos rfl]
        exact ⟨rfl, ham.symm⟩
      · -- a third player's partner was trading already
        rw [if_neg hat, if_neg ham] at hab
        have hba := hsym a b ha hb hab
        have hbt : b ≠ packet.target_player := by
          rintro rfl
          exact absurd (hba.1.symm.trans htidle) (by decide)
        have hbm : b ≠ me := by
          rintro rfl
          exact absurd (hba.1.symm.trans hidle) (by decide)
        rw [if_neg hbt, if_neg hbm]
        exact hba
  | offers _ ht heq =>
    refine hsym.congr (by rw [heq]; rfl) fun a b => ?_
    rw [heq]
    exact tradesWith_setTrade (by rw [ht]) (by rw [ht])
  | freezes _ heq =>
    refine hsym.congr (by rw [heq]; rfl) fun a b => ?_
    rw [heq]
    exact tradesWith_setTrade rfl rfl
  | accepts _ _ heq =>
    refine hsym.congr (by rw [heq]; rfl) fun a b => ?_
    rw [heq]
    exact tradesWith_setTrade rfl rfl

theorem Symmetric.other (hsym : Symmetric w) (hkeeps : w.KeepsTrades w') : Symmetric w' := by
  intro a b ha hb hab
  rcases hkeeps.trades a ha with ⟨ha', hsame⟩ | ⟨-, hnew, -⟩
  · have hab' : w.TradesWith a b := ⟨hsame.bTrading ▸ hab.1, hsame.hTradeTarget ▸ hab.2⟩
    rcases hkeeps.trades b hb with ⟨hb', hsame'⟩ | ⟨-, -, hfresh⟩
    · have hba := hsym a b ha' hb' hab'
      exact ⟨hsame'.bTrading.trans hba.1, hsame'.hTradeTarget.trans hba.2⟩
    · exact absurd hab'.2 (hfresh a ha')
  · exact absurd hab (tradesWith_empty hnew)

/-- **Trades are symmetric** in every state of a run whose messages are paired. -/
theorem symmetric_of_run (hrun : (tradeSystem Ok).RunWhere (fun _ => Paired) h w) :
    ∀ a b, w.playerPool a = true → w.playerPool b = true → w.TradesWith a b → w.TradesWith b a := by
  suffices Symmetric w from this
  refine hrun.invariant (I := fun _ w => Symmetric w) (fun w hw a b ha _ hab => ?_) ?_
  · exact absurd hab (tradesWith_empty (hw.2.2 a ha))
  · intro _ w e w' hr hsym hpaired hstep
    rcases tradeSystem_cases hstep with
      ⟨me, packet, rfl, hpool, -, heff⟩ | ⟨-, hsame⟩ | ⟨-, -, hkeeps⟩
    · exact hsym.step (tradesSound_of_run hr) hpool hpaired heff
    · exact hsym.congr hsame.playerPool fun a b => by rw [TradesWith, TradesWith, hsame.tradeOf]
    · exact hsym.other hkeeps

/-- Three players near each other, with nothing to trade yet. -/
def market : World where
  items _ := {}
  nextItem := 0
  itemPool _ := none
  nItemTop := 1
  nItemIndex := 0
  itemBase _ := none
  players h := { uid := h, inWorld := true }
  playerPool h := h == 1 || h == 2 || h == 3
  unitHasSkill _ _ := false
  mapRegionSize := 180

/-- A trade is begun, filled, frozen and cancelled, and another one begun. -/
theorem symmetric_market : ∃ (h : History World TradeEvent) (w : World), h.length = 6 ∧
    w.TradesWith 1 3 ∧ w.TradesWith 3 1 := by
  have hex : (System.exec (fun _ => Paired) tradeStep
      [.trade 1 ⟨.acceptTrade, 2, 0, 0⟩, .trade 1 ⟨.addGold, 2, 0, 5⟩, .trade 2 ⟨.freezeTrade, 1, 0, 0⟩,
        .trade 2 ⟨.cancelTrade, 1, 0, 0⟩, .move 2 true 7 7, .trade 3 ⟨.acceptTrade, 1, 0, 0⟩]
      [] market).map (fun x => (x.1.length, x.2.playerPool 1, x.2.playerPool 3,
        decide (x.2.TradesWith 1 3))) = some (6, true, true, true) := by decide +kernel
  obtain ⟨⟨h, w⟩, hrun, hfacts⟩ := Option.map_eq_some_iff.mp hex
  simp only [Prod.mk.injEq, decide_eq_true_eq] at hfacts
  obtain ⟨hlen, hone, hthree, htrade⟩ := hfacts
  have hstart : (tradeSystem fun _ => True).RunWhere (fun _ => Paired) [] market :=
    .init ⟨trivial, rfl, fun _ _ => rfl⟩
  exact ⟨h, w, hlen, htrade, symmetric_of_run (hstart.exec (fun _ _ _ => step_of_tradeStep) _ hrun) 1 3
    hone hthree htrade⟩

/-- A player who walks and then sends any trade message leaves the other one behind in the trade. -/
theorem not_symmetric : ¬ ∀ (h : History World TradeEvent) (w : World),
    (tradeSystem fun _ => True).Run h w →
    ∀ a b, w.playerPool a = true → w.playerPool b = true → w.TradesWith a b → w.TradesWith b a := by
  intro hall
  have hex : (System.exec (fun _ _ _ => True) tradeStep
      [.trade 1 ⟨.acceptTrade, 2, 0, 0⟩, .move 1 true 7 7, .trade 1 ⟨.addGold, 2, 0, 5⟩]
      [] market).map (fun x => (x.2.playerPool 1, x.2.playerPool 2, decide (x.2.TradesWith 2 1),
        decide (x.2.TradesWith 1 2))) = some (true, true, true, false) := by decide +kernel
  obtain ⟨⟨h, w⟩, hrun, hfacts⟩ := Option.map_eq_some_iff.mp hex
  simp only [Prod.mk.injEq, decide_eq_true_eq, decide_eq_false_iff_not] at hfacts
  obtain ⟨hone, htwo, hleft, hgone⟩ := hfacts
  have hstart : (tradeSystem fun _ => True).Run [] market := .init ⟨trivial, rfl, fun _ _ => rfl⟩
  exact hgone (hall h w (hstart.exec (fun _ _ _ => step_of_tradeStep) _ hrun) 2 1 htwo hone hleft)

end World

end RZEmulator.Chihiro
