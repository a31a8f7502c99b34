import RZEmulator.Chihiro.InventoryPiles
import RZEmulator.Chihiro.PickUp

/-!
# What a player receives

An item that `procAddItem` pushes, a pile of gold for one player and the shares of a pile for a party: for each of them
when the whole of it is received.
-/

namespace RZEmulator.Chihiro

open Lib

/-! ## Holdings -/

namespace World

variable {w w' w₁ : World} {T : Finset Handle} {r : InvRef} {p : ItemPtr} {h k : Handle} {code c n : Int}

/-- Nobody's inventories have other units in them and nobody has other gold. -/
structure SameHoldings (w w' : World) : Prop where
  units : ∀ code r, World.units code w' r = World.units code w r
  nGold : ∀ h, (w'.players h).nGold = (w.players h).nGold

namespace SameHoldings

theorem refl (w : World) : SameHoldings w w := ⟨fun _ _ => rfl, fun _ => rfl⟩

theorem trans (h₁ : SameHoldings w w₁) (h₂ : SameHoldings w₁ w') : SameHoldings w w' :=
  ⟨fun code r => (h₂.units code r).trans (h₁.units code r), fun h => (h₂.nGold h).trans (h₁.nGold h)⟩

theorem holding (hs : SameHoldings w w') (code : Int) (h : Handle) : holding code w' h = holding code w h := by
  unfold World.holding
  rw [hs.units, hs.nGold]

theorem updItem (w : World) (p : ItemPtr) {f : Item → Item} (hf : ∀ i, (f i).stack = i.stack) :
    SameHoldings w (w.updItem p f) :=
  ⟨fun _ _ => total_quiet _ (QuietAt.updItem w p hf).toQuiet, fun _ => rfl⟩

theorem free (w : World) (p : ItemPtr) : SameHoldings w (w.updItem p (·.pendFreeItem)) := .updItem w p fun _ => rfl

theorem freeJoined (w : World) (p : ItemPtr) (o : Option ItemPtr) : SameHoldings w (w.freeJoined p o) := by
  unfold World.freeJoined
  cases o with
  | none => exact .refl w
  | some q =>
    dsimp only
    split_ifs
    · exact .free w p
    · exact .refl w

end SameHoldings

theorem Received.congr (hs : SameHoldings w₁ w') : Received w w' T code n ↔ Received w w₁ T code n := by
  have hsum : ∑ h ∈ T, holding code w' h = ∑ h ∈ T, holding code w₁ h :=
    Finset.sum_congr rfl fun h _ => hs.holding code h
  constructor
  · rintro ⟨htogether, hothers, hcodes, hstored⟩
    refine ⟨hsum.symm.trans htogether, fun h hT => ?_, fun c hc h => ?_, fun c h => ?_⟩
    · rw [← hs.holding, hothers h hT]
    · rw [← hs.holding, hcodes c hc h]
    · rw [← hs.units, hstored]
  · rintro ⟨htogether, hothers, hcodes, hstored⟩
    refine ⟨hsum.trans htogether, fun h hT => ?_, fun c hc h => ?_, fun c h => ?_⟩
    · rw [hs.holding, hothers h hT]
    · rw [hs.holding, hcodes c hc h]
    · rw [hs.units, hstored]

/-- Where nobody has other holdings, nothing has been received. -/
theorem SameHoldings.received_iff (hs : SameHoldings w w') : Received w w' T code n ↔ n = 0 := by
  constructor
  · intro hr
    have htogether := hr.together
    rw [Finset.sum_congr rfl fun h _ => hs.holding code h] at htogether
    exact left_eq_add.mp htogether
  · rintro rfl
    refine ⟨?_, fun h _ => hs.holding code h, fun c _ h => hs.holding c h, fun c h => hs.units c _⟩
    rw [add_zero]
    exact Finset.sum_congr rfl fun h _ => hs.holding code h

/-- One inventory has got `n` units. -/
theorem received_units (hcode : code ≠ 0)
    (hunits : ∀ c r, units c w' r = units c w r + if r = bag k ∧ code = c then n else 0)
    (hgold : ∀ h, (w'.players h).nGold = (w.players h).nGold) : Received w w' {k} code n := by
  have hother : ∀ c h, ¬(bag h = bag k ∧ code = c) → holding c w' h = holding c w h := by
    intro c h hne
    unfold holding
    rw [hgold, hunits, if_neg hne, add_zero]
  refine ⟨?_, fun h hT => hother code h fun heq => ?_, fun c hc h => hother c h fun heq => hc heq.2.symm,
    fun c h => ?_⟩
  · rw [Finset.sum_singleton, Finset.sum_singleton]
    unfold holding
    rw [if_neg hcode, if_neg hcode, hunits, if_pos ⟨rfl, rfl⟩]
  · exact hT (Finset.mem_singleton.mpr (congrArg InvRef.owner heq.1))
  · have hne : locker h ≠ bag k := fun heq => InventoryKind.noConfusion (congrArg InvRef.kind heq)
    rw [hunits, if_neg fun heq => hne heq.1, add_zero]

/-- Only gold has moved. -/
theorem received_gold (hunits : ∀ c r, units c w' r = units c w r)
    (hothers : ∀ h ∉ T, (w'.players h).nGold = (w.players h).nGold) :
    Received w w' T 0 n ↔ ∑ h ∈ T, (w'.players h).nGold = ∑ h ∈ T, (w.players h).nGold + n := by
  constructor
  · intro hr
    exact hr.together
  · intro hsum
    refine ⟨hsum, hothers, fun c hc h => ?_, fun c h => hunits c _⟩
    unfold holding
    rw [if_neg hc, if_neg hc, hunits]

/-! ## An item for a player -/

theorem joinTarget_touched (ht : Touched p w w') (hloose : ∀ r, p ∉ (w.inv r).vList) (r : InvRef) :
    w'.joinTarget r p = w.joinTarget r p := by
  have hlot := ht.quiet.lot p
  have hbase : (w'.items p).itemBase = (w.items p).itemBase := congrArg Item.Lot.itemBase hlot
  have hcode : (w'.items p).inst.Code = (w.items p).inst.Code := congrArg Item.Lot.Code hlot
  unfold joinTarget Item.isJoinable
  rw [hbase, hcode, findByCode_congr (ht.quiet.vList r) fun a ha => ?_]
  rw [ht.quiet.other a fun heq => hloose r (heq ▸ ha)]

/-- The item without its index, as it is pushed. -/
theorem touched_clear (w : World) (p : ItemPtr) : Touched p w (w.updItem p (·.setIdx 0)) :=
  .updItem w p (fun _ => rfl) fun _ => rfl

theorem procAddItem_item (hcode : (w.items p).inst.Code ≠ 0) : w.procAddItem k p =
    ((w.updItem p (·.setIdx 0)).pushItem k p (w.items p).inst.nCount).map fun (o, w) => w.freeJoined p o := by
  unfold procAddItem
  rw [if_pos hcode]
  rfl

/-- `PushItem` has a result for an item that is not the player's if it can be taken in, and only then. -/
theorem pushItem_isSome_iff (hok : WorldOk w) (hx : Loose w p)
    (hforeign : (w.items p).inst.nOwnerUID % 2 ^ 32 ≠ (w.players k).uid) :
    (w.pushItem k p (w.items p).inst.nCount).isSome ↔ w.Accepts k p := by
  have ht := Touched.assignIdx w k p
  have hbase : ((w.assignIdx k p).items p).itemBase = (w.items p).itemBase :=
    congrArg Item.Lot.itemBase (ht.quiet.lot p)
  have hjoin := joinTarget_touched ht hx.loose (bag k)
  have hother : ∀ e, w.joinTarget (bag k) p = some e → (w.assignIdx k p).items e = w.items e := fun e he =>
    ht.quiet.other e fun heq => hx.loose _ (heq ▸ (joinTarget_eq_some he).1)
  rw [pushItem, if_neg hforeign, if_neg hx.coded, Option.isSome_map]
  constructor
  · intro hsome
    obtain ⟨⟨q, w₁⟩, hpush⟩ := Option.isSome_iff_exists.mp hsome
    rcases push_eq_some hpush with ⟨hnone, -, hb, -⟩ | ⟨hsome, -, hfit, -⟩
    · refine ⟨hforeign, hbase ▸ hb, fun e he => ?_⟩
      rw [hjoin, he] at hnone
      cases hnone
    · rw [hjoin] at hsome
      refine ⟨hforeign, ?_, fun e he => ?_⟩
      · have hjoinable : (w.items p).isJoinable = true := by
          by_contra hnot
          rw [joinTarget, if_neg hnot] at hsome
          cases hsome
        unfold Item.isJoinable at hjoinable
        cases hb : (w.items p).itemBase with
        | none =>
          rw [hb] at hjoinable
          cases hjoinable
        | some base => rfl
      · obtain rfl := Option.some.inj (hsome.symm.trans he)
        rw [hother q hsome] at hfit
        exact hfit
  · rintro ⟨-, hb, hfits⟩
    refine push_isSome (hbase ▸ hb) fun e he => ?_
    rw [hjoin] at he
    rw [hother e he]
    exact ⟨(hok.stocked _).based e (joinTarget_eq_some he).1, hfits e he⟩

theorem accepts_clear (hx : Loose w p) : (w.updItem p (·.setIdx 0)).Accepts k p ↔ w.Accepts k p := by
  have ht := touched_clear w p
  have hbase : ((w.updItem p (·.setIdx 0)).items p).itemBase = (w.items p).itemBase :=
    congrArg Item.Lot.itemBase (ht.quiet.lot p)
  have hcount : ((w.updItem p (·.setIdx 0)).items p).inst.nCount = (w.items p).inst.nCount :=
    congrArg Item.Lot.nCount (ht.quiet.lot p)
  have huid : ((w.updItem p (·.setIdx 0)).items p).inst.nOwnerUID = (w.items p).inst.nOwnerUID :=
    congrArg Item.Tag.nOwnerUID ht.tags.tag
  have hother : ∀ e, w.joinTarget (bag k) p = some e → (w.updItem p (·.setIdx 0)).items e = w.items e := fun e he =>
    ht.quiet.other e fun heq => hx.loose _ (heq ▸ (joinTarget_eq_some he).1)
  constructor
  · rintro ⟨hforeign, hb, hfits⟩
    refine ⟨huid ▸ hforeign, hbase ▸ hb, fun e he => ?_⟩
    have hfit := hfits e ((joinTarget_touched ht hx.loose _).trans he)
    rwa [hother e he, hcount] at hfit
  · rintro ⟨hforeign, hb, hfits⟩
    refine ⟨huid.symm ▸ hforeign, hbase.symm ▸ hb, fun e he => ?_⟩
    rw [joinTarget_touched ht hx.loose] at he
    rw [hother e he, hcount]
    exact hfits e he

/-- **An item for a player**: he receives all of it if and only if it can be taken in, or is refused as his own and counts
nothing. -/
theorem procAddItem_received_iff (hok : WorldOk w) (hx : Loose w p) {P : Finset Handle → Prop} (hP : P {k}) :
    (∃ w', w.procAddItem k p = some w' ∧
      ∃ T, P T ∧ Received w w' T (w.items p).inst.Code (w.items p).inst.nCount) ↔ w.ItemComes k p := by
  have ht := touched_clear w p
  have huid : ((w.updItem p (·.setIdx 0)).items p).inst.nOwnerUID = (w.items p).inst.nOwnerUID :=
    congrArg Item.Tag.nOwnerUID ht.tags.tag
  have hcount : ((w.updItem p (·.setIdx 0)).items p).inst.nCount = (w.items p).inst.nCount :=
    congrArg Item.Lot.nCount (ht.quiet.lot p)
  rw [procAddItem_item hx.coded]
  by_cases hown : (w.items p).inst.nOwnerUID % 2 ^ 32 = (w.players k).uid
  · have hpush : (w.updItem p (·.setIdx 0)).pushItem k p (w.items p).inst.nCount =
        some (none, w.updItem p (·.setIdx 0)) := by
      rw [pushItem, if_pos (huid.symm ▸ hown)]
    have hsame : SameHoldings w (w.updItem p (·.setIdx 0)) := .updItem w p fun _ => rfl
    have hnot : w.ItemComes k p ↔ (w.items p).inst.nCount = 0 :=
      ⟨fun h => h.elim (fun h => absurd hown h.foreign) fun h => h.2, fun h => .inr ⟨hown, h⟩⟩
    rw [hpush, hnot]
    constructor
    · rintro ⟨w', hrun, T, -, hr⟩
      obtain rfl := Option.some.inj hrun
      exact hsame.received_iff.mp hr
    · intro hzero
      exact ⟨_, rfl, _, hP, hsame.received_iff.mpr hzero⟩
  · have hforeign : ((w.updItem p (·.setIdx 0)).items p).inst.nOwnerUID % 2 ^ 32 ≠
        ((w.updItem p (·.setIdx 0)).players k).uid := huid.symm ▸ hown
    have hok₁ := ht.worldOk hok hx.loose
    have hx₁ := ht.loose hx
    have hsome := pushItem_isSome_iff hok₁ hx₁ hforeign
    rw [accepts_clear hx, hcount] at hsome
    have hcomes : w.ItemComes k p ↔ w.Accepts k p :=
      ⟨fun h => h.elim id fun h => absurd h.1 hown, .inl⟩
    rw [hcomes, ← hsome]
    constructor
    · rintro ⟨w', hrun, -⟩
      obtain ⟨x, hpush, -⟩ := Option.map_eq_some_iff.mp hrun
      rw [hpush]
      rfl
    · intro hpush
      obtain ⟨⟨o, w₁⟩, hpush⟩ := Option.isSome_iff_exists.mp hpush
      refine ⟨_, by rw [hpush]; rfl, {k}, hP, (Received.congr (.freeJoined w₁ p o)).mpr ?_⟩
      rw [← hcount] at hpush
      obtain ⟨q, -, hpushed, -⟩ := pushItem_pushed hok₁ hx₁ hforeign hpush
      rw [hcount] at hpushed
      have hmoved := hpushed.after_touch hx.loose ht
      exact received_units hx.coded (fun c r => hmoved.units c r) hmoved.later.nGold

/-! ## Gold -/

theorem purses_changeGold (w : World) (k : Handle) (n : Int) : (w.changeGold k n).2.purses =
    if 0 ≤ n ∧ n ≤ MAX_GOLD_FOR_INVENTORY then Function.update w.purses k n else w.purses := by
  unfold changeGold
  split_ifs with hne hmax hneg hroom hroom hroom
  · omega
  · rfl
  · omega
  · rfl
  · funext h
    rw [Function.update_apply, purses, setGold_nGold]
    rfl
  · omega
  · rw [not_not.mp hne]
    exact (Function.update_eq_self k w.purses).symm
  · rfl

theorem changeGold_sameGoods (w : World) (k : Handle) (n : Int) : SameGoods w (w.changeGold k n).2 := by
  rcases changeGold_snd w k n with heq | ⟨-, -, heq⟩
  · rw [heq]
    exact .refl w
  · rw [heq]
    exact setGold_sameGoods w k n

/-- The loop over the members credits their purses. -/
theorem shareGold_credit {s : Int} {l : List Handle} (hrun : w.shareGold s l = some w') :
    w'.purses = credit MAX_GOLD_FOR_INVENTORY s l w.purses ∧ SameGoods w w' := by
  induction l generalizing w with
  | nil =>
    obtain rfl := Option.some.inj hrun
    exact ⟨rfl, .refl _⟩
  | cons k l ih =>
    obtain ⟨n, hn, hrun⟩ := Option.bind_eq_some_iff.mp hrun
    obtain ⟨-, rfl⟩ := add64_eq_some.mp hn
    obtain ⟨hpurses, hgoods⟩ := ih hrun
    refine ⟨?_, (changeGold_sameGoods w k _).trans hgoods⟩
    rw [hpurses, purses_changeGold, credit, add_comm s]
    rfl

/-- It overflows for no share that a purse could hold. -/
theorem shareGold_isSome {s : Int} {l : List Handle} (hlow : -MAX_GOLD_FOR_INVENTORY ≤ s)
    (hhigh : s ≤ MAX_GOLD_FOR_INVENTORY)
    (hgold : ∀ i ∈ l, 0 ≤ w.purses i ∧ w.purses i ≤ MAX_GOLD_FOR_INVENTORY) : (w.shareGold s l).isSome := by
  induction l generalizing w with
  | nil => rfl
  | cons k l ih =>
    have hk := hgold k List.mem_cons_self
    have hfit : IsInt64 (s + (w.players k).nGold) := by
      unfold purses MAX_GOLD_FOR_INVENTORY at *
      unfold IsInt64
      omega
    rw [shareGold, add64_of_isInt64 hfit, Option.bind_some]
    refine ih fun i hi => ?_
    have hi' := hgold i (List.mem_cons_of_mem k hi)
    rw [purses_changeGold]
    split_ifs with hroom
    · rw [Function.update_apply]
      split_ifs
      · exact hroom
      · exact hi'
    · exact hi'

/-- A share that fits is one that a purse could hold. -/
theorem share_fits {l : List Handle} (hgold : ∀ i ∈ l, 0 ≤ w.purses i ∧ w.purses i ≤ MAX_GOLD_FOR_INVENTORY)
    (hd : Divides MAX_GOLD_FOR_INVENTORY n l w.purses) :
    -MAX_GOLD_FOR_INVENTORY ≤ n / l.length ∧ n / l.length ≤ MAX_GOLD_FOR_INVENTORY := by
  obtain ⟨i, hi⟩ := List.exists_mem_of_ne_nil l hd.nonempty
  obtain ⟨hlow, hhigh⟩ := hgold i hi
  obtain ⟨hlow', hhigh'⟩ := hd.room i hi
  have hcount : (1 : Int) ≤ l.count i := by exact_mod_cast List.one_le_count_iff.mpr hi
  rcases le_total 0 (n / (l.length : Int)) with hs | hs
  · have := le_mul_of_one_le_right hs hcount
    constructor <;> omega
  · have := mul_le_of_one_le_right hs hcount
    constructor <;> omega

/-- **Gold for a party**: the members nearby receive all of it if and only if there is none or it can be shared out in
full. -/
theorem shareGold_received_iff {l : List Handle} (hn : IsInt64 n)
    (hgold : ∀ i ∈ l, 0 ≤ w.purses i ∧ w.purses i ≤ MAX_GOLD_FOR_INVENTORY) :
    (∃ w', w.shareGold (equalShare n l.length) l = some w' ∧ Received w w' l.toFinset 0 n) ↔
      n = 0 ∨ Divides MAX_GOLD_FOR_INVENTORY n l w.purses := by
  have hiff := sum_credit_iff hn hgold
  constructor
  · rintro ⟨w', hrun, hr⟩
    have htogether : ∑ i ∈ l.toFinset, w'.purses i = ∑ i ∈ l.toFinset, w.purses i + n := hr.together
    rw [(shareGold_credit hrun).1] at htogether
    exact hiff.mp htogether
  · intro hall
    have hshare : -MAX_GOLD_FOR_INVENTORY ≤ equalShare n l.length ∧
        equalShare n l.length ≤ MAX_GOLD_FOR_INVENTORY := by
      rcases hall with rfl | hd
      · rw [equalShare_zero]
        decide
      · rw [hd.share hn]
        exact share_fits hgold hd
    obtain ⟨w', hrun⟩ := Option.isSome_iff_exists.mp (shareGold_isSome hshare.1 hshare.2 hgold)
    obtain ⟨hpurses, hgoods⟩ := shareGold_credit hrun
    obtain ⟨taken, hle, heq⟩ := exists_taken MAX_GOLD_FOR_INVENTORY (equalShare n l.length) l w.purses
    refine ⟨w', hrun, (received_gold hgoods.units fun h hh => ?_).mpr ?_⟩
    · have hzero : taken h = 0 :=
        Nat.le_zero.mp ((hle h).trans (List.count_eq_zero_of_not_mem fun hmem => hh (List.mem_toFinset.mpr hmem)).le)
      have hcredit : w'.purses h = w.purses h := by
        rw [hpurses, heq, hzero, Nat.cast_zero, mul_zero, add_zero]
      exact hcredit
    · have hsum := hiff.mpr hall
      rw [← hpurses] at hsum
      exact hsum

theorem SameHoldings.setGold (hs : SameHoldings w w') (k : Handle) (n : Int) :
    SameHoldings (w.setGold k n) (w'.setGold k n) := by
  refine ⟨fun code r => ?_, fun h => ?_⟩
  · rw [(setGold_sameGoods w' k n).units, (setGold_sameGoods w k n).units, hs.units]
  · rw [setGold_nGold, setGold_nGold, hs.nGold]

theorem sameHoldings_changeGold (hlow : 0 ≤ n) (hhigh : n ≤ MAX_GOLD_FOR_INVENTORY) :
    SameHoldings (w.setGold k n) (w.changeGold k n).2 := by
  refine ⟨fun code r => ?_, fun h => ?_⟩
  · rw [(changeGold_sameGoods w k n).units, (setGold_sameGoods w k n).units]
  · have hpurses := congrFun (purses_changeGold w k n) h
    rw [if_pos ⟨hlow, hhigh⟩, Function.update_apply] at hpurses
    rw [setGold_nGold]
    exact hpurses

theorem received_setGold (w : World) (h : Handle) (n : Int) :
    Received w (w.setGold h ((w.players h).nGold + n)) {h} 0 n := by
  refine (received_gold (setGold_sameGoods w h _).units fun k hk => ?_).mpr ?_
  · rw [setGold_nGold, if_neg fun heq => hk (Finset.mem_singleton.mpr heq)]
  · rw [Finset.sum_singleton, Finset.sum_singleton, setGold_nGold, if_pos rfl]

/-- The pile goes to the purse, or to nobody: `ChangeGold` may refuse it, and `procAddItem` does not offer it to a purse
that it would fill. -/
theorem procAddItem_gold (hcode : (w.items p).inst.Code = 0)
    (hfit : IsInt64 ((w.players h).nGold + (w.items p).inst.nCount)) :
    ∃ w', w.procAddItem h p = some w' ∧
      (w.PurseTakes h p ∧ SameHoldings (w.setGold h ((w.players h).nGold + (w.items p).inst.nCount)) w' ∨
        ¬w.PurseTakes h p ∧ SameHoldings w w') := by
  have hclear : (w.updItem p (·.setIdx 0)).items p = (w.items p).setIdx 0 := updItem_items_same ..
  have hsame : SameHoldings w (w.updItem p (·.setIdx 0)) := .updItem w p fun _ => rfl
  have hrun : w.procAddItem h p = if (w.players h).nGold + (w.items p).inst.nCount < MAX_GOLD_FOR_INVENTORY then
      ((w.updItem p (·.setIdx 0)).pushItem h p (w.items p).inst.nCount).map fun (o, w) => w.freeJoined p o
      else some w := by
    unfold procAddItem
    rw [if_neg (not_not.mpr hcode), add64_of_isInt64 hfit]
    simp only [Option.map_some, Option.bind_some, decide_eq_true_eq]
  by_cases hroom : (w.players h).nGold + (w.items p).inst.nCount < MAX_GOLD_FOR_INVENTORY
  swap
  · exact ⟨w, hrun.trans (if_neg hroom), .inr ⟨fun hp => hroom hp.room, .refl w⟩⟩
  rw [if_pos hroom] at hrun
  by_cases hown : (w.items p).inst.nOwnerUID % 2 ^ 32 = (w.players h).uid
  · refine ⟨w.updItem p (·.setIdx 0), ?_, .inr ⟨fun hp => hp.foreign hown, hsame⟩⟩
    rw [hrun, pushItem, if_pos (by rw [hclear]; exact hown)]
    rfl
  have hsum : add64 ((w.updItem p (·.setIdx 0)).players h).nGold ((w.updItem p (·.setIdx 0)).items p).inst.nCount =
      some ((w.players h).nGold + (w.items p).inst.nCount) := by
    rw [hclear]
    exact add64_of_isInt64 hfit
  refine ⟨((w.updItem p (·.setIdx 0)).changeGold h ((w.players h).nGold + (w.items p).inst.nCount)).2.updItem p
    (·.pendFreeItem), ?_, ?_⟩
  · rw [hrun, pushItem, if_neg (by rw [hclear]; exact hown), if_pos (by rw [hclear]; exact hcode), hsum]
    rfl
  by_cases hnonneg : 0 ≤ (w.players h).nGold + (w.items p).inst.nCount
  · refine .inl ⟨⟨hown, hnonneg, hroom⟩, ?_⟩
    exact ((hsame.setGold h _).trans (sameHoldings_changeGold hnonneg hroom.le)).trans (.free _ p)
  · refine .inr ⟨fun hp => hnonneg hp.nonneg, ?_⟩
    rcases changeGold_snd (w.updItem p (·.setIdx 0)) h ((w.players h).nGold + (w.items p).inst.nCount) with
      heq | ⟨hlow, -⟩
    · rw [heq]
      exact hsame.trans (.free _ p)
    · exact absurd hlow hnonneg

/-- **Gold for one player**: he receives all of it if and only if there is none or his purse takes it in and is not full
then. -/
theorem procAddItem_gold_iff (hcode : (w.items p).inst.Code = 0) (hn : IsInt64 (w.items p).inst.nCount)
    (hgold : 0 ≤ (w.players h).nGold)
    (hle : (w.players h).nGold + (w.items p).inst.nCount ≤ MAX_GOLD_FOR_INVENTORY) :
    (∃ w', w.procAddItem h p = some w' ∧ Received w w' {h} 0 (w.items p).inst.nCount) ↔
      (w.items p).inst.nCount = 0 ∨ w.PurseTakes h p := by
  have hfit : IsInt64 ((w.players h).nGold + (w.items p).inst.nCount) := by
    unfold IsInt64 MAX_GOLD_FOR_INVENTORY at *
    omega
  obtain ⟨w₁, hrun, hcases⟩ := procAddItem_gold hcode hfit
  have honly : (∃ w', w.procAddItem h p = some w' ∧ Received w w' {h} 0 (w.items p).inst.nCount) ↔
      Received w w₁ {h} 0 (w.items p).inst.nCount :=
    ⟨fun ⟨w', heq, hr⟩ => Option.some.inj (hrun.symm.trans heq) ▸ hr, fun hr => ⟨w₁, hrun, hr⟩⟩
  rw [honly]
  rcases hcases with ⟨htakes, hsame⟩ | ⟨hnot, hsame⟩
  · exact iff_of_true ((Received.congr hsame).mpr (received_setGold w h _)) (.inr htakes)
  · rw [hsame.received_iff, or_iff_left hnot]

/-! ## The answer of `procAddItem` -/

theorem procAddItemHandle_snd (w : World) (h : Handle) (p : ItemPtr) :
    (w.procAddItemHandle h p).map Prod.snd = w.procAddItem h p := by
  unfold procAddItemHandle procAddItem
  rw [Option.map_bind]
  refine Option.bind_congr fun room _ => ?_
  cases room with
  | false => rfl
  | true =>
    show Option.map Prod.snd (Option.map _ _) = Option.map _ _
    rw [Option.map_map]
    rfl

/-- What the handler makes of the answer is no matter to what has been received. -/
theorem exists_answer_iff {Q : World → Prop} (hfree : ∀ w', Q (w'.updItem p (·.pendFreeItem)) ↔ Q w') :
    (∃ answer w', ((w.procAddItemHandle h p).map fun (nih, w) =>
        if nih ≠ 0 then (TakeAnswer.taken, w) else (.accessDenied, w.updItem p (·.pendFreeItem))) =
          some (answer, w') ∧ Q w') ↔ ∃ w', w.procAddItem h p = some w' ∧ Q w' := by
  rw [← procAddItemHandle_snd]
  cases hadd : w.procAddItemHandle h p with
  | none => exact iff_of_false (fun ⟨_, _, heq, _⟩ => nomatch heq) fun ⟨_, heq, _⟩ => nomatch heq
  | some added =>
    obtain ⟨nih, w₁⟩ := added
    have hQ : (∃ w', Option.map Prod.snd (some (nih, w₁)) = some w' ∧ Q w') ↔ Q w₁ :=
      ⟨fun ⟨_, heq, hq⟩ => (show w₁ = _ from Option.some.inj heq) ▸ hq, fun hq => ⟨w₁, rfl, hq⟩⟩
    rw [hQ, Option.map_some]
    dsimp only
    split_ifs with hnih
    · constructor
      · rintro ⟨answer, w', heq, hq⟩
        obtain ⟨-, rfl⟩ := Prod.mk.inj (Option.some.inj heq)
        exact hq
      · intro hq
        exact ⟨.taken, w₁, rfl, hq⟩
    · constructor
      · rintro ⟨answer, w', heq, hq⟩
        obtain ⟨-, rfl⟩ := Prod.mk.inj (Option.some.inj heq)
        exact (hfree w₁).mp hq
      · intro hq
        exact ⟨.accessDenied, _, rfl, (hfree w₁).mpr hq⟩

end World

end RZEmulator.Chihiro
