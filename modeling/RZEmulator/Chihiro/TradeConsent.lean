import RZEmulator.Chihiro.TradeSymmetry

/-!
# Both parties have agreed

`Consent h w me target` says that `target` has confirmed its trade with `me` while they were trading with
each other, and that neither's offer nor partner has changed since. Together with the confirmation that is
being handled, which is the one of `me`, it is what a call of `ProcessTrade` should rest on.

`m_bTradeAccepted` does not say whose confirmation it was: `onConfirmTrade` sets it when the player it is
sent to trades with the sender, whether or not the sender trades with that player. As long as everybody
confirms to his own partner (`OwnPartner`), an accepted side has a partner that is frozen as well, so
nothing can change but by a cancellation.
-/

namespace RZEmulator.Chihiro.World

open Lib

variable {w w' : World} {me target a b : Handle} {packet : TradePacket} {e : TradeEvent}
  {Ok : World → Prop} {h : History World TradeEvent}

/-- A side makes the same offer to the same player. -/
structure SameOffer (t t' : TradeInfo) : Prop where
  hTradeTarget : t'.hTradeTarget = t.hTradeTarget
  nTradeGold : t'.nTradeGold = t.nTradeGold
  vTradeItemList : t'.vTradeItemList.Perm t.vTradeItemList

theorem SameOffer.refl (t : TradeInfo) : SameOffer t t := ⟨rfl, rfl, .refl _⟩

theorem SameOffer.trans {t t' t'' : TradeInfo} (h₁ : SameOffer t t') (h₂ : SameOffer t' t'') :
    SameOffer t t'' :=
  ⟨h₂.hTradeTarget.trans h₁.hTradeTarget, h₂.nTradeGold.trans h₁.nTradeGold,
    h₂.vTradeItemList.trans h₁.vTradeItemList⟩

/-- In `v` both sides offered what they offer in `w`. -/
def SameOffers (a b : Handle) (w v : World) : Prop :=
  SameOffer (v.tradeOf a) (w.tradeOf a) ∧ SameOffer (v.tradeOf b) (w.tradeOf b)

/-- `a` confirmed to `b`, while they traded with each other. -/
def Confirmed (a b : Handle) (t : Transition World TradeEvent) : Prop :=
  ∃ packet, t.event = .trade a packet ∧ packet.mode = .confirmTrade ∧ packet.target_player = b ∧
    t.before.TradesWith a b ∧ t.before.TradesWith b a

/-- `a` confirmed its trade with `b`, and nothing about it has changed since. -/
def Agreed (h : History World TradeEvent) (w : World) (a b : Handle) : Prop :=
  Since (SameOffers a b w) (Confirmed a b) h

/-- `me` and `target` trade with each other, and `target` agreed to what the trade is now. -/
structure Consent (h : History World TradeEvent) (w : World) (me target : Handle) : Prop where
  mine : w.TradesWith me target
  theirs : w.TradesWith target me
  agreed : Agreed h w target me

/-- A confirmation that is accepted as the first of the two names the sender's own partner. -/
def OwnPartner (w : World) : TradeEvent → Prop
  | .trade me packet => w.accepts me packet = true →
      (w.tradeOf packet.target_player).bTradeAccepted = false →
      (w.tradeOf me).hTradeTarget = packet.target_player
  | _ => True

instance (w : World) : (e : TradeEvent) → Decidable (OwnPartner w e)
  | .trade me packet => inferInstanceAs (Decidable (w.accepts me packet = true →
      (w.tradeOf packet.target_player).bTradeAccepted = false →
      (w.tradeOf me).hTradeTarget = packet.target_player))
  | .move _ _ _ _ | .other _ => inferInstanceAs (Decidable True)

/-! ## The invariant -/

/-- A side that has accepted, with a present partner that trades back, has agreed to the trade, and the
partner is frozen. -/
def AcceptedOk (h : History World TradeEvent) (w : World) : Prop :=
  ∀ a b, w.playerPool a = true → w.playerPool b = true → (w.tradeOf a).bTradeAccepted = true →
    w.TradesWith a b → w.TradesWith b a → (w.tradeOf b).bTradeFreezed = true ∧ Agreed h w a b

/-- What the two sides of an accepted trade are after a step that keeps both. -/
theorem AcceptedOk.keep (hi : AcceptedOk h w) (ha : w.playerPool a = true) (hb : w.playerPool b = true)
    (hacc : (w.tradeOf a).bTradeAccepted = true) (hab : w.TradesWith a b) (hba : w.TradesWith b a)
    (hsame : SameOffers a b w' w) (hfrozen : (w'.tradeOf b).bTradeFreezed = (w.tradeOf b).bTradeFreezed) :
    (w'.tradeOf b).bTradeFreezed = true ∧ Agreed (⟨w, e, w'⟩ :: h) w' a b := by
  obtain ⟨hf, hagreed⟩ := hi a b ha hb hacc hab hba
  refine ⟨hfrozen.trans hf, .keep ⟨.refl _, .refl _⟩ (hagreed.mono fun v hv => ?_)⟩
  exact ⟨hv.1.trans hsame.1, hv.2.trans hsame.2⟩

/-- Two sides whose windows stay as they are keep what has been agreed. -/
theorem AcceptedOk.stays (hi : AcceptedOk h w) (ha : w.playerPool a = true) (hb : w.playerPool b = true)
    (hacc : (w'.tradeOf a).bTradeAccepted = true) (hab : w'.TradesWith a b) (hba : w'.TradesWith b a)
    (hsa : w'.tradeOf a = w.tradeOf a) (hsb : w'.tradeOf b = w.tradeOf b) :
    (w'.tradeOf b).bTradeFreezed = true ∧ Agreed (⟨w, e, w'⟩ :: h) w' a b := by
  rw [hsa] at hacc
  rw [TradesWith, hsa] at hab
  rw [TradesWith, hsb] at hba
  refine hi.keep ha hb hacc hab hba ?_ (by rw [hsb])
  rw [SameOffers, hsa, hsb]
  exact ⟨.refl _, .refl _⟩

theorem AcceptedOk.same (hi : AcceptedOk h w) (hsame : SameTrades w w') :
    AcceptedOk (⟨w, e, w'⟩ :: h) w' := by
  intro a b ha hb hacc hab hba
  rw [hsame.playerPool] at ha hb
  exact hi.stays ha hb hacc hab hba (hsame.tradeOf a) (hsame.tradeOf b)

theorem AcceptedOk.other (hi : AcceptedOk h w) (hkeeps : w.KeepsTrades w') :
    AcceptedOk (⟨w, e, w'⟩ :: h) w' := by
  intro a b ha hb hacc hab hba
  rcases hkeeps.trades a ha with ⟨ha', hsa⟩ | ⟨-, hnew, -⟩
  · rcases hkeeps.trades b hb with ⟨hb', hsb⟩ | ⟨-, hnew, -⟩
    · refine hi.keep ha' hb' (hsa.bTradeAccepted ▸ hacc) ⟨hsa.bTrading ▸ hab.1, hsa.hTradeTarget ▸ hab.2⟩
        ⟨hsb.bTrading ▸ hba.1, hsb.hTradeTarget ▸ hba.2⟩ ⟨?_, ?_⟩ hsb.bTradeFreezed
      · exact ⟨hsa.hTradeTarget, hsa.nTradeGold, hsa.vTradeItemList⟩
      · exact ⟨hsb.hTradeTarget, hsb.nTradeGold, hsb.vTradeItemList⟩
    · exact absurd hba (tradesWith_empty hnew)
  · exact absurd hab (tradesWith_empty hnew)

/-- One side's window is written to, and its partner, its flag `m_bTradeAccepted` and, once it is frozen,
its offer stay. -/
theorem AcceptedOk.setTrade {t : TradeInfo} (hi : AcceptedOk h w) (hs : TradesSound w)
    (hme : w.playerPool me = true) (htrading : t.bTrading = (w.tradeOf me).bTrading)
    (htarget : t.hTradeTarget = (w.tradeOf me).hTradeTarget)
    (hacc : t.bTradeAccepted = (w.tradeOf me).bTradeAccepted)
    (hkeep : (w.tradeOf me).bTradeFreezed = true →
      t.bTradeFreezed = true ∧ SameOffer (w.tradeOf me) t) :
    AcceptedOk (⟨w, e, w.setTrade me t⟩ :: h) (w.setTrade me t) := by
  intro a b ha hb hacc' hab hba
  rw [tradesWith_setTrade htrading htarget] at hab hba
  have haccepted : (w.tradeOf a).bTradeAccepted = true := by
    rw [setTrade_tradeOf] at hacc'
    split_ifs at hacc' with ham
    · exact ham ▸ hacc.symm.trans hacc'
    · exact hacc'
  have hfrozen := (hi a b ha hb haccepted hab hba).1
  have hafrozen := (hs.sound a ha).frozen haccepted
  have hoffer : ∀ c, (w.tradeOf c).bTradeFreezed = true →
      SameOffer (w.tradeOf c) ((w.setTrade me t).tradeOf c) ∧
        ((w.setTrade me t).tradeOf c).bTradeFreezed = true := by
    intro c hc
    rw [setTrade_tradeOf]
    split_ifs with hcm
    · subst hcm
      exact ⟨(hkeep hc).2, (hkeep hc).1⟩
    · exact ⟨.refl _, hc⟩
  exact hi.keep ha hb haccepted hab hba ⟨(hoffer a hafrozen).1, (hoffer b hfrozen).1⟩
    ((hoffer b hfrozen).2.trans hfrozen.symm)

/-- A trade that begins is none of those that have been accepted. -/
theorem AcceptedOk.starts (hi : AcceptedOk h w) (hs : TradesSound w) (hme : w.playerPool me = true) (hne : target ≠ me)
    (htpool : w.playerPool target = true) (hidle : (w.tradeOf me).bTrading = false)
    (htidle : (w.tradeOf target).bTrading = false) (heq : w' = (w.startTrade me target).startTrade target me) :
    AcceptedOk (⟨w, e, w'⟩ :: h) w' := by
  have hafter := startTrade_tradeOf hs hne hme htpool hidle htidle
  intro a b ha hb hacc hab hba
  have hpools : w'.playerPool = w.playerPool := by
    rw [heq]
    unfold startTrade
    split_ifs <;> rfl
  rw [hpools] at ha hb
  -- the two who begin have not accepted, so this is a trade of two others
  have hstays : ∀ {c : Handle}, c ≠ target → c ≠ me → w'.tradeOf c = w.tradeOf c :=
    fun h₁ h₂ => by rw [heq, hafter, if_neg h₁, if_neg h₂]
  have hat : a ≠ target := by
    rintro rfl
    rw [heq, hafter, if_pos rfl] at hacc
    cases hacc
  have ham : a ≠ me := by
    rintro rfl
    rw [heq, hafter, if_neg (Ne.symm hne), if_pos rfl] at hacc
    cases hacc
  have hbt : b ≠ target := by
    rintro rfl
    rw [TradesWith, heq, hafter, if_pos rfl] at hba
    exact ham hba.2.symm
  have hbm : b ≠ me := by
    rintro rfl
    rw [TradesWith, heq, hafter, if_neg (Ne.symm hne), if_pos rfl] at hba
    exact hat hba.2.symm
  exact hi.stays ha hb hacc hab hba (hstays hat ham) (hstays hbt hbm)

/-- A side that accepts agrees to the trade as it is now. -/
theorem AcceptedOk.accepts (hi : AcceptedOk h w) (hown : OwnPartner w (.trade me packet)) (hacc : w.accepts me packet = true)
    (hfirst : (w.tradeOf packet.target_player).bTradeAccepted = false) (heq : w' = w.confirmTrade me) :
    AcceptedOk (⟨w, .trade me packet, w'⟩ :: h) w' := by
  obtain ⟨htrading, -, -, htfrozen, htheirs⟩ := tradeReady_iff.mp (accepts_ready hacc)
  have hother : ∀ c, c ≠ me → w'.tradeOf c = w.tradeOf c := fun c hc => by
    rw [heq, confirmTrade, setTrade_tradeOf, if_neg hc]
  have hmine : w'.tradeOf me = { w.tradeOf me with bTradeAccepted := true } := by
    rw [heq, confirmTrade, setTrade_tradeOf, if_pos rfl]
  have hoffer : ∀ c, SameOffer (w.tradeOf c) (w'.tradeOf c) := fun c => by
    by_cases hc : c = me
    · rw [hc, hmine]
      exact ⟨rfl, rfl, .refl _⟩
    · rw [hother c hc]
      exact .refl _
  have hwith : ∀ c d, w'.TradesWith c d ↔ w.TradesWith c d := fun c d => by
    rw [heq]
    exact tradesWith_setTrade rfl rfl
  intro a b ha hb hacc' hab hba
  rw [hwith] at hab hba
  have hpools : w'.playerPool = w.playerPool := by rw [heq]; rfl
  rw [hpools] at ha hb
  have hfrozen : (w'.tradeOf b).bTradeFreezed = (w.tradeOf b).bTradeFreezed := by
    by_cases hbm : b = me
    · rw [hbm, hmine]
    · rw [hother b hbm]
  by_cases ham : a = me
  · -- the sender accepts: it confirms to its own partner
    subst ham
    have hpartner : packet.target_player = b := (hown hacc hfirst).symm.trans hab.2
    refine ⟨hfrozen.trans (hpartner ▸ htfrozen), .now ⟨.refl _, .refl _⟩
      ⟨packet, rfl, ?_, hpartner, hab, hba⟩⟩
    unfold World.accepts at hacc
    simp only [Bool.and_eq_true, beq_iff_eq] at hacc
    exact hacc.1.1.1.2
  · rw [hother a ham] at hacc'
    exact hi.keep ha hb hacc' hab hba ⟨hoffer a, hoffer b⟩ hfrozen

theorem AcceptedOk.step (hi : AcceptedOk h w) (hs : TradesSound w) (hme : w.playerPool me = true)
    (hown : OwnPartner w (.trade me packet)) (heff : TradeEffect w w' me packet) :
    AcceptedOk (⟨w, .trade me packet, w'⟩ :: h) w' := by
  cases heff with
  | same hsame => exact hi.same hsame
  | @cancels gone _ hcancels =>
    intro a b ha hb hacc hab hba
    rw [hcancels.playerPool] at ha hb
    have hstays : ∀ {c d : Handle}, w'.TradesWith c d → w'.tradeOf c = w.tradeOf c := fun hcd => by
      have hc := hcancels.tradeOf
      rw [TradesWith, hc] at hcd
      rw [hc]
      split_ifs at hcd with hmem
      · exact absurd hcd.1 (by decide)
      · rw [if_neg hmem]
    exact hi.stays ha hb hacc hab hba (hstays hab) (hstays hba)
  | starts hne htpool hidle htidle heq => exact hi.starts hs hme hne htpool hidle htidle heq
  | offers hfree ht heq =>
    rw [heq]
    refine hi.setTrade hs hme (by rw [ht]) (by rw [ht]) (by rw [ht]) fun hfrozen => ?_
    rw [hfree] at hfrozen
    cases hfrozen
  | freezes _ heq =>
    rw [heq]
    exact hi.setTrade hs hme rfl rfl rfl fun _ => ⟨rfl, ⟨rfl, rfl, .refl _⟩⟩
  | accepts hacc hfirst heq => exact hi.accepts hown hacc hfirst heq

/-! ## Runs -/

theorem acceptedOk_of_run (hrun : (tradeSystem Ok).RunWhere (fun _ => OwnPartner) h w) :
    AcceptedOk h w := by
  refine hrun.invariant (I := AcceptedOk) (fun w hw a b ha _ _ hab _ => ?_) ?_
  · exact absurd hab (tradesWith_empty (hw.2.2 a ha))
  · intro _ w e w' hr hi hown hstep
    rcases tradeSystem_cases hstep with
      ⟨me, packet, rfl, hpool, -, heff⟩ | ⟨-, hsame⟩ | ⟨-, -, hkeeps⟩
    · exact hi.step (tradesSound_of_run hr) hpool hown heff
    · exact hi.same hsame
    · exact hi.other hkeeps

theorem tradePasses_partner (hpasses : w.tradePasses me target = some true) :
    w.getTradeTarget me = some target := by
  obtain ⟨light, -, hpasses⟩ := Option.bind_eq_some_iff.mp hpasses
  split_ifs at hpasses
  · cases hpasses
  · obtain ⟨_, -, hpasses⟩ := Option.bind_eq_some_iff.mp hpasses
    obtain ⟨_, -, hpasses⟩ := Option.map_eq_some_iff.mp hpasses
    exact (of_decide_eq_true hpasses).2.2

theorem getTradeTarget_confirmTrade : (w.confirmTrade me).getTradeTarget a = w.getTradeTarget a := by
  have htarget : ((w.confirmTrade me).tradeOf a).hTradeTarget = (w.tradeOf a).hTradeTarget := by
    rw [confirmTrade, setTrade_tradeOf]
    split_ifs with ha
    · rw [ha]
    · rfl
  rw [getTradeTarget, htarget]
  rfl

theorem processCall_eq_some {w₁ : World} (hcall : w.processCall me packet = some w₁) :
    w.accepts me packet = true ∧ (w.tradeOf packet.target_player).bTradeAccepted = true ∧
      (w.confirmTrade me).tradePasses me packet.target_player = some true ∧ w₁ = w.confirmTrade me := by
  unfold processCall at hcall
  split_ifs at hcall with hall
  exact ⟨hall.1, hall.2.1, hall.2.2, (Option.some.inj hcall).symm⟩

/-- **Consent**: in every state of a run in which everybody confirms to his own partner, a confirmation
that reaches `ProcessTrade` completes a trade both sides have confirmed as it is. -/
theorem consent_of_run (hrun : (tradeSystem Ok).RunWhere (fun _ => OwnPartner) h w)
    (hme : w.playerPool me = true) (hcall : (w.processCall me packet).isSome) :
    Consent h w me packet.target_player := by
  obtain ⟨w₁, hcall⟩ := Option.isSome_iff_exists.mp hcall
  obtain ⟨hacc, haccepted, hpasses, -⟩ := processCall_eq_some hcall
  have hs := tradesSound_of_run hrun
  have htpool := accepts_present hacc
  have htheirs := hs.trading htpool (tradeReady_iff.mp (accepts_ready hacc)).2.2.2.2
  have hmine := hs.trading hme (getTradeTarget_confirmTrade ▸ tradePasses_partner hpasses)
  exact ⟨hmine, htheirs, (acceptedOk_of_run hrun _ _ htpool hme haccepted htheirs hmine).2⟩

/-- Two players agree on a trade of gold for nothing. -/
theorem consent_market : ∃ (h : History World TradeEvent) (w : World), Consent h w 2 1 := by
  have hex : (System.exec (fun _ => OwnPartner) tradeStep
      [.trade 1 ⟨.acceptTrade, 2, 0, 0⟩, .trade 1 ⟨.addGold, 2, 0, 5⟩, .trade 1 ⟨.freezeTrade, 2, 0, 0⟩,
        .trade 2 ⟨.freezeTrade, 1, 0, 0⟩, .trade 1 ⟨.confirmTrade, 2, 0, 0⟩]
      [] market).map (fun x => (x.2.playerPool 2, (x.2.processCall 2 ⟨.confirmTrade, 1, 0, 0⟩).isSome)) =
      some (true, true) := by decide +kernel
  obtain ⟨⟨h, w⟩, hrun, hfacts⟩ := Option.map_eq_some_iff.mp hex
  obtain ⟨hme, hcall⟩ := Prod.mk.inj hfacts
  have hstart : (tradeSystem fun _ => True).RunWhere (fun _ => OwnPartner) [] market :=
    .init ⟨trivial, rfl, fun _ _ => rfl⟩
  exact ⟨h, w, consent_of_run (hstart.exec (fun _ _ _ => step_of_tradeStep) _ hrun) hme hcall⟩

/-- Player 3 is left behind in a trade with player 2, who then trades with player 1 and confirms to
player 3. Player 1 changes the offer after that and completes the trade. -/
def staleEvents : List TradeEvent :=
  [.trade 3 ⟨.acceptTrade, 2, 0, 0⟩, .trade 3 ⟨.freezeTrade, 2, 0, 0⟩, .move 2 true 0 0,
    .trade 2 ⟨.requestTrade, 3, 0, 0⟩, .move 2 false 0 0, .trade 1 ⟨.acceptTrade, 2, 0, 0⟩,
    .trade 1 ⟨.addGold, 2, 0, 50⟩, .trade 2 ⟨.freezeTrade, 1, 0, 0⟩, .trade 2 ⟨.confirmTrade, 3, 0, 0⟩,
    .trade 1 ⟨.addGold, 2, 0, 1⟩, .trade 1 ⟨.freezeTrade, 2, 0, 0⟩]

theorem not_consent : ¬ ∀ (h : History World TradeEvent) (w : World),
    (tradeSystem fun _ => True).Run h w → ∀ me packet, w.playerPool me = true →
      (w.processCall me packet).isSome → Consent h w me packet.target_player := by
  intro hall
  have hex : (System.exec (fun _ _ _ => True) tradeStep staleEvents [] market).map (fun x =>
      (x.2.playerPool 1, (x.2.processCall 1 ⟨.confirmTrade, 2, 0, 0⟩).isSome,
        x.1.map fun t => match t.event with
          | .trade me packet => me == 2 && packet.mode == .confirmTrade && packet.target_player == 1
          | _ => false)) =
      some (true, true, List.replicate 11 false) := by decide +kernel
  obtain ⟨⟨h, w⟩, hrun, hfacts⟩ := Option.map_eq_some_iff.mp hex
  simp only [Prod.mk.injEq] at hfacts
  obtain ⟨hme, hcall, hnever⟩ := hfacts
  have hstart : (tradeSystem fun _ => True).Run [] market := .init ⟨trivial, rfl, fun _ _ => rfl⟩
  obtain ⟨-, -, hagreed⟩ := hall h w (hstart.exec (fun _ _ _ => step_of_tradeStep) _ hrun) 1
    ⟨.confirmTrade, 2, 0, 0⟩ hme hcall
  -- player 2 never confirmed to player 1
  obtain ⟨t, ht, packet, hevent, hmode, htarget, -⟩ := hagreed.exists_mem
  have hfalse := List.eq_of_mem_replicate (hnever ▸ List.mem_map_of_mem ht)
  rw [hevent] at hfalse
  simp [hmode, htarget] at hfalse

end RZEmulator.Chihiro.World
