import RZEmulator.Chihiro.PickUpGoods

/-!
# Requests to take an item up

`takenRight_iff` says for which requests nothing is lost: where the item is refused before it has left the world, or all of
it comes to somebody.
-/

namespace RZEmulator.Chihiro

open Lib

/-! ## The request -/

namespace Taker

variable {x : Taker} {ct : Nat} {item : DroppedItem}

/-- Only an item with an owner is left without an answer. -/
theorem onTakeItem_eq_silent_iff :
    x.onTakeItem ct (some item) = .silent ↔ item.isInWorld = true ∧ item.OwnerHandle ≠ 0 := by
  simp only [onTakeItem]
  constructor
  · intro h
    split_ifs at h with hworld howner
    exact ⟨by simpa using hworld, howner⟩
  · rintro ⟨hworld, howner⟩
    rw [if_neg (by rw [hworld]; exact Bool.noConfusion), if_pos howner]

end Taker

namespace PickUpScene

open World

variable {N : Type} {w : World} (S : PickUpScene N w) {G : List ItemPtr} {h k : Handle} {p : ItemPtr} {d : ℚ}

theorem getNearMember_pool (hk : k ∈ S.getNearMember h d) : w.playerPool k = true := by
  unfold getNearMember at hk
  cases hinfo : S.getPartyInfo (S.partyID h) with
  | none =>
    rw [hinfo] at hk
    cases hk
  | some info =>
    rw [hinfo] at hk
    obtain ⟨name, -, hname⟩ := List.mem_filterMap.mp (List.mem_of_mem_filter hk)
    exact S.findPlayer_pool name k hname

theorem drawn_isSome : (S.drawn h).isSome ↔ S.getNearMember h 500 ≠ [] := by
  unfold drawn
  rw [isSome_getElem?, ← List.length_pos_iff]
  exact ⟨fun hlt => (Nat.zero_le _).trans_lt hlt, S.irand_lt _⟩

/-- The item of a party, by the way in which it shares. -/
theorem procPartyShare_iff (hok : WorldOk w) (hx : Loose w p) {P : Finset Handle → Prop} (hP : P {h})
    (hnear : ∀ k ∈ S.getNearMember h 500, P {k}) :
    (∃ w', S.procPartyShare h p = some w' ∧
      ∃ T, P T ∧ Received w w' T (w.items p).inst.Code (w.items p).inst.nCount) ↔
      if S.getShareMode (S.partyID h) = ItemShareMode.ITEM_SHARE_MONOPOLY then w.ItemComes h p
      else if S.getShareMode (S.partyID h) = ItemShareMode.ITEM_SHARE_RANDOM then
        S.getNearMember h 500 ≠ [] ∧ ∀ k ∈ S.drawn h, w.ItemComes k p
      else (w.items p).inst.nCount = 0 := by
  unfold procPartyShare
  split_ifs with hmonopoly hrandom
  · exact procAddItem_received_iff hok hx hP
  · rw [← S.drawn_isSome]
    constructor
    · rintro ⟨w', hrun, hreceived⟩
      obtain ⟨k, hk, hrun⟩ := Option.bind_eq_some_iff.mp hrun
      refine ⟨by rw [hk]; rfl, fun k' hk' => ?_⟩
      obtain rfl := Option.some.inj (hk.symm.trans hk')
      exact (procAddItem_received_iff hok hx (hnear k (List.mem_of_getElem? hk))).mp ⟨w', hrun, hreceived⟩
    · rintro ⟨hsome, hcomes⟩
      obtain ⟨k, hk⟩ := Option.isSome_iff_exists.mp hsome
      rw [hk, Option.bind_some]
      exact (procAddItem_received_iff hok hx (hnear k (List.mem_of_getElem? hk))).mpr (hcomes k hk)
  · constructor
    · rintro ⟨w', heq, T, -, hr⟩
      obtain rfl := Option.some.inj heq
      exact (SameHoldings.refl w).received_iff.mp hr
    · intro hzero
      exact ⟨w, rfl, {h}, hP, (SameHoldings.refl w).received_iff.mpr hzero⟩

/-- **After the removal**: all of it is received if and only if all of it comes to somebody. -/
theorem bringIn_iff (hl : Laid w G) (hp : p ∈ G) (hh : w.playerPool h = true)
    (hpurse : (w.items p).inst.Code = 0 → S.partyID h = 0 →
      (w.players h).nGold + (w.items p).inst.nCount ≤ MAX_GOLD_FOR_INVENTORY) :
    (∃ answer w', S.bringIn h p = some (answer, w') ∧
      ∃ T, S.MayGet h p T ∧ Received w w' T (w.items p).inst.Code (w.items p).inst.nCount) ↔ S.Comes h p := by
  have hok := hl.goods.toWorldOk
  have hx := hl.lying p hp
  unfold bringIn MayGet Comes
  by_cases hparty : S.partyID h = 0
  · simp only [if_neg (not_not.mpr hparty), if_pos hparty]
    rw [exists_answer_iff fun w' => exists_congr fun T => and_congr_right fun _ => Received.congr (.free w' p)]
    by_cases hcode : (w.items p).inst.Code = 0
    · rw [if_pos hcode, hcode, ← procAddItem_gold_iff hcode hx.count (hok.gold h hh).1 (hpurse hcode hparty)]
      simp only [exists_eq_left]
    · rw [if_neg hcode, ← procAddItem_received_iff hok (hx.toLoose hcode) (P := fun T => T = {h}) rfl]
  · simp only [if_pos hparty, if_neg hparty]
    by_cases hcode : (w.items p).inst.Code = 0
    · simp only [if_neg (not_not.mpr hcode), if_pos hcode]
      rw [← shareGold_received_iff hx.count fun k hk => hok.gold k (S.getNearMember_pool hk), hcode]
      constructor
      · rintro ⟨answer, w', heq, T, rfl, hr⟩
        obtain ⟨w₁, hrun, hw₁⟩ := Option.map_eq_some_iff.mp heq
        obtain ⟨-, rfl⟩ := Prod.mk.inj hw₁
        exact ⟨w₁, hrun, (Received.congr (.free w₁ p)).mp hr⟩
      · rintro ⟨w', hrun, hr⟩
        exact ⟨.taken, _, by rw [hrun]; rfl, _, rfl, (Received.congr (.free w' p)).mpr hr⟩
    · simp only [if_pos hcode, if_neg hcode]
      rw [← S.procPartyShare_iff hok (hx.toLoose hcode)
        (P := fun T => ∃ k, T = {k} ∧ (k = h ∨ k ∈ S.getNearMember h 500)) ⟨h, rfl, .inl rfl⟩
        fun k hk => ⟨k, rfl, .inr hk⟩]
      constructor
      · rintro ⟨answer, w', heq, hreceived⟩
        obtain ⟨w₁, hrun, hw₁⟩ := Option.map_eq_some_iff.mp heq
        obtain ⟨-, rfl⟩ := Prod.mk.inj hw₁
        exact ⟨w₁, hrun, hreceived⟩
      · rintro ⟨w', hrun, hreceived⟩
        exact ⟨.taken, w', by rw [hrun]; rfl, hreceived⟩

end PickUpScene

namespace Floor

open World

variable {N : Type} {s s' : Floor} {S : PickUpScene N s.world} {h item_handle : Handle} {p : ItemPtr}

theorem filter_ne_self (hp : p ∈ s.ground) : s.ground.filter (· ≠ p) ≠ s.ground := by
  intro heq
  rw [← heq] at hp
  simp at hp

/-- For the item that is named. -/
theorem takeable_iff (hpool : s.world.itemPool item_handle = some p) (hp : p ∈ s.ground) :
    s.Takeable S h item_handle ↔ (s.world.items p).inst.OwnerHandle = 0 ∧
      match (S.taker h p).onTakeItem S.ct (some (S.droppedItem p)) with
      | .taken => S.Comes h p
      | .tooMuchMoney => IsInt64 ((s.world.players h).nGold + (s.world.items p).inst.nCount)
      | _ => True := by
  constructor
  · intro hall
    exact hall p hp hpool
  · intro hone q _ hq
    obtain rfl := Option.some.inj (hpool.symm.trans hq)
    exact hone

/-- A request that ends without an item taken. -/
theorem takenRight_of_error {answer : TakeAnswer} (hrun : s.onTakeItem S h item_handle = some (answer, s)) :
    s.TakenRight S h item_handle ↔ answer.isError = true := by
  constructor
  · rintro ⟨answer', s', hrun', hright⟩
    obtain ⟨rfl, rfl⟩ := Prod.mk.inj (Option.some.inj (hrun.symm.trans hrun'))
    rcases hright with ⟨herror, -⟩ | ⟨q, hq, -, hground, -⟩
    · exact herror
    · exact absurd hground.symm (filter_ne_self hq)
  · intro herror
    exact ⟨answer, s, hrun, .inl ⟨herror, rfl⟩⟩

theorem onTakeItem_found (hpool : s.world.itemPool item_handle = some p) (hp : p ∈ s.ground) :
    s.onTakeItem S h item_handle = match (S.taker h p).onTakeItem S.ct (some (S.droppedItem p)) with
      | .taken => (S.bringIn h p).map fun (answer, w) => (answer, ⟨w, s.ground.filter (· ≠ p)⟩)
      | .tooMuchMoney =>
        (add64 (s.world.players h).nGold (s.world.items p).inst.nCount).map fun _ => (.tooMuchMoney, s)
      | answer => some (answer, s) := by
  rewrite [onTakeItem, hpool, Option.filter_some, if_pos (by simpa using hp)]
  rfl

/-- A request that passes the checks is right if and only if what follows the removal is. -/
theorem takenRight_of_taken (hpool : s.world.itemPool item_handle = some p) (hp : p ∈ s.ground)
    (hanswer : (S.taker h p).onTakeItem S.ct (some (S.droppedItem p)) = .taken) :
    s.TakenRight S h item_handle ↔ ∃ answer w', S.bringIn h p = some (answer, w') ∧
      ∃ T, S.MayGet h p T ∧ Received s.world w' T (s.world.items p).inst.Code (s.world.items p).inst.nCount := by
  have hrun := onTakeItem_found (S := S) (h := h) hpool hp
  rw [hanswer] at hrun
  dsimp only at hrun
  constructor
  · rintro ⟨answer, s', hrun', hright⟩
    rw [hrun] at hrun'
    obtain ⟨⟨answer', w'⟩, hbring, heq⟩ := Option.map_eq_some_iff.mp hrun'
    obtain ⟨rfl, rfl⟩ := Prod.mk.inj heq
    rcases hright with ⟨-, hsame⟩ | ⟨q, -, hq, -, hreceived⟩
    · exact absurd (congrArg Floor.ground hsame) (filter_ne_self hp)
    · obtain rfl := Option.some.inj (hpool.symm.trans hq)
      exact ⟨answer', w', hbring, hreceived⟩
  · rintro ⟨answer, w', hbring, hreceived⟩
    refine ⟨answer, ⟨w', s.ground.filter (· ≠ p)⟩, ?_, .inr ⟨p, hp, hpool, rfl, hreceived⟩⟩
    rw [hrun, hbring]
    rfl

/-- **Nothing is lost in taking an item up** if and only if it is `Takeable`. -/
theorem takenRight_iff (hl : Laid s.world s.ground) (hh : s.world.playerPool h = true) :
    s.TakenRight S h item_handle ↔ s.Takeable S h item_handle := by
  cases hfind : (s.world.itemPool item_handle).filter (· ∈ s.ground) with
  | none =>
    refine iff_of_true ⟨.notExist, s, ?_, .inl ⟨rfl, rfl⟩⟩ fun p hp hpool => ?_
    · rw [onTakeItem, hfind]
    · rw [hpool, Option.filter_some, if_pos (by simpa using hp)] at hfind
      cases hfind
  | some p =>
    obtain ⟨hpool, hp⟩ := Option.filter_eq_some_iff.mp hfind
    rw [decide_eq_true_eq] at hp
    rw [takeable_iff hpool hp]
    have hsilent : (S.taker h p).onTakeItem S.ct (some (S.droppedItem p)) = .silent ↔
        (S.droppedItem p).isInWorld = true ∧ (s.world.items p).inst.OwnerHandle ≠ 0 := Taker.onTakeItem_eq_silent_iff
    have howner : (S.taker h p).onTakeItem S.ct (some (S.droppedItem p)) ≠ .silent →
        (s.world.items p).inst.OwnerHandle = 0 := fun hne => by
      by_contra hnot
      exact hne (hsilent.mpr ⟨rfl, hnot⟩)
    have hrun := onTakeItem_found (S := S) (h := h) hpool hp
    cases hanswer : (S.taker h p).onTakeItem S.ct (some (S.droppedItem p)) with
    | silent =>
      rw [hanswer] at hrun
      refine iff_of_false (fun hright => ?_) fun hall => (hsilent.mp hanswer).2 hall.1
      exact Bool.noConfusion ((takenRight_of_error hrun).mp hright)
    | notExist =>
      rw [hanswer] at hrun howner
      exact iff_of_true ((takenRight_of_error hrun).mpr rfl) ⟨howner nofun, trivial⟩
    | tooFar =>
      rw [hanswer] at hrun howner
      exact iff_of_true ((takenRight_of_error hrun).mpr rfl) ⟨howner nofun, trivial⟩
    | accessDenied =>
      rw [hanswer] at hrun howner
      exact iff_of_true ((takenRight_of_error hrun).mpr rfl) ⟨howner nofun, trivial⟩
    | tooMuchMoney =>
      rw [hanswer] at hrun howner
      dsimp only at hrun ⊢
      by_cases hfit : IsInt64 ((s.world.players h).nGold + (s.world.items p).inst.nCount)
      · rw [add64_of_isInt64 hfit] at hrun
        exact iff_of_true ((takenRight_of_error hrun).mpr rfl) ⟨howner nofun, hfit⟩
      · rw [show add64 (s.world.players h).nGold (s.world.items p).inst.nCount = none from if_neg hfit] at hrun
        refine iff_of_false ?_ fun hall => hfit hall.2
        rintro ⟨answer, s', hrun', -⟩
        exact nomatch hrun.symm.trans hrun'
    | taken =>
      have hpurse := ((S.taker h p).onTakeItem_eq_taken_iff (S.droppedItem p) S.ct).mp hanswer
      rw [takenRight_of_taken hpool hp hanswer, S.bringIn_iff hl hp hh hpurse.1.purse]
      exact (and_iff_right (howner (by rw [hanswer]; exact nofun))).symm

/-! ## A pile in the market -/

/-- Nobody is in a party, and everything may be taken up. -/
def alone (w : World) : PickUpScene Unit w where
  ct := 0
  isTooFar _ _ := false
  m_nDropTime _ := 0
  m_pPickupOrder _ := ⟨fun _ => 0, fun _ => 0⟩
  partyID _ := 0
  getPartyInfo _ := none
  findPlayer _ := none
  findPlayer_pool _ _ hfind := nomatch hfind
  getExactDist2d _ _ := 0
  irand _ := 0
  irand_lt _ hpos := hpos

theorem market_pile (cnt : Int) (hcnt : IsInt64 cnt) : Laid (market.lootItem 0 cnt).world (market.lootItem 0 cnt).ground :=
  (move_laid (m := .loot 0 cnt) market_tidy hcnt rfl).1

/-- A pile that a purse has room for. -/
theorem takenRight_pile : (market.lootItem 0 5).TakenRight (alone _) 1 1 := by
  refine (takenRight_iff (market_pile 5 (by decide)) rfl).mpr fun p hp _ => ?_
  obtain rfl := List.mem_singleton.mp hp
  refine ⟨by decide, ?_⟩
  have hanswer : ((alone (market.lootItem 0 5).world).taker 1 market.world.nextItem).onTakeItem
      (alone (market.lootItem 0 5).world).ct
      (some ((alone (market.lootItem 0 5).world).droppedItem market.world.nextItem)) = .taken := by decide +kernel
  rw [hanswer]
  exact .inr ⟨by decide, by decide, by decide⟩

/-- **Failing input**: the player has no gold and takes up a pile that would just fill his purse. The pile is gone, and
his purse is empty. -/
theorem not_takenRight : ¬∀ (N : Type) (s : Floor) (S : PickUpScene N s.world) (h item_handle : Handle),
    Laid s.world s.ground → s.world.playerPool h = true → s.TakenRight S h item_handle := by
  intro hall
  obtain ⟨answer, s', hrun, hright⟩ :=
    hall Unit (market.lootItem 0 100000000000) (alone _) 1 1 (market_pile _ (by decide)) rfl
  have hex : ((market.lootItem 0 100000000000).onTakeItem (alone _) 1 1).map
      (fun x => (x.1.isError, (x.2.world.players 1).nGold)) = some (false, 0) := by decide +kernel
  rw [hrun, Option.map_some, Option.some.injEq, Prod.mk.injEq] at hex
  rcases hright with ⟨herror, -⟩ | ⟨p, hp, -, -, T, hT, hr⟩
  · exact Bool.noConfusion (hex.1.symm.trans herror)
  · obtain rfl := List.mem_singleton.mp hp
    obtain rfl : T = {1} := hT
    have htogether := hr.together
    rw [Finset.sum_singleton, Finset.sum_singleton] at htogether
    have hgold : (s'.world.players 1).nGold = 0 + 100000000000 := htogether
    rw [hex.2] at hgold
    exact absurd hgold (by decide)

end Floor

end RZEmulator.Chihiro
