import RZEmulator.Chihiro.ItemMove
import RZEmulator.Lib.Stacks

/-!
# An inventory as piles

`piles w r` keeps of an inventory the codes and counts of its items. The operations of an inventory are those of
`Lib.Stacks` on them: erasing from the first item of a code takes units, a new item joins the stack of its code
or becomes one.
-/

namespace RZEmulator.Chihiro.World

open Lib

variable {w w' : World} {r : InvRef} {p x : ItemPtr} {h : Handle} {code n : Int} {d : ℚ}

def piles (w : World) (r : InvRef) : Stacks Int :=
  (w.inv r).vList.map fun p => ((w.items p).inst.Code, (w.items p).inst.nCount)

theorem units_piles (code : Int) (w : World) (r : InvRef) : (w.piles r).units code = units code w r := by
  unfold piles Stacks.units World.units total
  rw [List.map_map]
  rfl

theorem piles_congr (hlist : (w'.inv r).vList = (w.inv r).vList)
    (hlot : ∀ a ∈ (w.inv r).vList, (w'.items a).lot = (w.items a).lot) : w'.piles r = w.piles r := by
  unfold piles
  rw [hlist]
  refine List.map_congr_left fun a ha => Prod.ext ?_ ?_
  · exact congrArg Item.Lot.Code (hlot a ha)
  · exact congrArg Item.Lot.nCount (hlot a ha)

theorem Quiet.piles (hq : Quiet w w') (r : InvRef) : w'.piles r = w.piles r :=
  piles_congr (hq.vList r) fun a _ => hq.lot a

/-- The first item of a code is the first stack of its kind. -/
theorem first_piles (hpos : Indexed (w.inv r).vList w.position) (code : Int) :
    (w.piles r).first code = (w.findByCode r code).map fun p => (w.position p, (w.items p).inst.nCount) := by
  unfold Stacks.first piles findByCode
  rw [List.findIdx?_map, List.find?_eq_bind_findIdx?_getElem?]
  have hpred : ((fun s : Int × Int => decide (s.1 = code)) ∘ fun p => ((w.items p).inst.Code, (w.items p).inst.nCount)) =
      fun p => (w.items p).inst.Code == code := by
    funext p
    rw [Bool.eq_iff_iff, beq_iff_eq]
    exact decide_eq_true_iff
  rw [hpred]
  cases hidx : (w.inv r).vList.findIdx? fun p => (w.items p).inst.Code == code with
  | none => rfl
  | some i =>
    obtain ⟨hlt, -, -⟩ := List.findIdx?_eq_some_iff_getElem.mp hidx
    have hi := hpos i _ (List.getElem?_eq_getElem hlt)
    rw [Option.bind_some, Option.bind_some, List.getElem?_map, List.getElem?_eq_getElem hlt, Option.map_some,
      Option.map_some, Option.map_some, hi]

/-- One stack is counted anew. -/
theorem piles_set (hpos : Indexed (w.inv r).vList w.position) (hp : p ∈ (w.inv r).vList)
    (hlist : (w'.inv r).vList = (w.inv r).vList)
    (hitems : ∀ a, w'.items a = if a = p then (w.items p).setCount n else w.items a) :
    w'.piles r = (w.piles r).set (w.position p) ((w.items p).inst.Code, n) := by
  unfold piles
  rw [hlist]
  have hget := hpos.getElem? hp
  have hlt := (List.getElem?_eq_some_iff.mp hget).1
  apply List.ext_getElem?
  intro i
  rw [List.getElem?_set, List.getElem?_map, List.getElem?_map, List.length_map, if_pos hlt]
  by_cases hi : w.position p = i
  · rw [if_pos hi, ← hi, hget, Option.map_some, hitems, if_pos rfl]
    rfl
  · rw [if_neg hi]
    cases ha : (w.inv r).vList[i]? with
    | none => rfl
    | some a =>
      have hne : a ≠ p := fun heq => hi (heq ▸ hpos i a ha)
      rw [Option.map_some, Option.map_some, hitems, if_neg hne]

theorem swapRemove_map {α β : Type} (f : α → β) (l : List α) (i : Nat) :
    swapRemove (l.map f) i = (swapRemove l i).map f := by
  unfold swapRemove
  rw [List.getLast?_map]
  cases l.getLast? with
  | none => rfl
  | some b =>
    rw [Option.map_some]
    dsimp only
    rw [List.map_dropLast, List.map_set]

theorem piles_detach (w : World) (r : InvRef) (p : ItemPtr) (d : ℚ) :
    (w.detach r p d).piles r = swapRemove (w.piles r) (w.position p) := by
  unfold piles
  rw [detach_vList, swapRemove_map]
  refine List.map_congr_left fun a _ => Prod.ext ?_ ?_
  · exact congrArg Item.Lot.Code (detach_lot w r p d a)
  · exact congrArg Item.Lot.nCount (detach_lot w r p d a)

theorem piles_attach (w : World) (r : InvRef) (p : ItemPtr) (d : ℚ) :
    (w.attach r p d).piles r = w.piles r ++ [((w.items p).inst.Code, (w.items p).inst.nCount)] := by
  unfold piles
  rw [attach_vList, List.map_append, List.map_singleton]
  have hsame : ∀ a, ((w.attach r p d).items a).inst.Code = (w.items a).inst.Code ∧
      ((w.attach r p d).items a).inst.nCount = (w.items a).inst.nCount := fun a =>
    ⟨congrArg Item.Lot.Code (attach_lot w r p d a), congrArg Item.Lot.nCount (attach_lot w r p d a)⟩
  simp only [hsame]

theorem code_of_findByCode (h : w.findByCode r code = some p) :
    p ∈ (w.inv r).vList ∧ (w.items p).inst.Code = code :=
  ⟨List.mem_of_find?_eq_some h, by simpa using List.find?_some h⟩

/-- `Erase` on the first item of a code. -/
theorem erase_piles (hok : WorldOk w) (hfind : w.findByCode r code = some p) (hrun : w.erase r p n = some w') :
    w'.piles r = (w.piles r).take code n := by
  have hpos := (hok.stocked r).position
  obtain ⟨hp, hcode⟩ := code_of_findByCode hfind
  unfold Stacks.take
  rw [first_piles hpos, hfind, Option.map_some]
  dsimp only
  obtain ⟨-, -, ⟨hlt, hq⟩ | ⟨hle, hq⟩⟩ := erase_eq_some hpos hrun
  · rw [if_pos hlt, hq.toQuiet.piles, piles_set hpos hp (recount_vList ..) (recount_items _ _ _ _ _), hcode]
  · rw [if_neg (not_lt.mpr hle), hq.toQuiet.piles, piles_detach]

/-! ## New items -/

/-- A new item of the code joins the stack there is. -/
def joins (w : World) (code : Int) : Bool :=
  match w.itemBase code with
  | none => false
  | some base => base.flaglist .duplicate != 0

/-- `AllocItem` of an item of a level, and `PushItem`. Where its units have joined a stack, the object stays. -/
def rewardItem (w : World) (h : Handle) (code level cnt : Int) : Option (Option ItemPtr × World) :=
  (((w.allocItem 0 code cnt GenerateCode.BY_QUEST).2.updItem w.nextItem (·.setLevel level))).pushItem h w.nextItem cnt

/-- The new item before it is pushed. -/
structure Rewarded (w w' : World) (code cnt : Int) : Prop where
  goods : GoodsOk w'
  later : Later w w'
  loose : Loose w' w.nextItem
  free : (w'.items w.nextItem).isFree = true
  lot : (w'.items w.nextItem).lot = ⟨w.itemBase code, code, cnt⟩
  vList : ∀ r, (w'.inv r).vList = (w.inv r).vList
  items : ∀ r, ∀ a ∈ (w.inv r).vList, w'.items a = w.items a
  nOwnerUID : (w'.items w.nextItem).inst.nOwnerUID = 0

theorem rewarded_allocItem (hok : GoodsOk w) (hcode : code ≠ 0) (hn : IsInt64 n) (level : Int) :
    Rewarded w ((w.allocItem 0 code n GenerateCode.BY_QUEST).2.updItem w.nextItem (·.setLevel level)) code n := by
  have hnew := allocItem_items_new w code n GenerateCode.BY_QUEST
  have hlot : ((w.allocItem 0 code n GenerateCode.BY_QUEST).2.items w.nextItem).lot = ⟨w.itemBase code, code, n⟩ := by
    rw [hnew, Item.lot_alloc]
  have hfree : ((w.allocItem 0 code n GenerateCode.BY_QUEST).2.items w.nextItem).isFree = true := by
    rw [hnew]
    cases w.itemBase code <;> rfl
  have hheap : ∀ r, w.nextItem ∉ (w.inv r).vList := fun r hx => Nat.lt_irrefl _ ((hok.stocked r).heap _ hx)
  have htouch : Touched w.nextItem (w.allocItem 0 code n GenerateCode.BY_QUEST).2
      ((w.allocItem 0 code n GenerateCode.BY_QUEST).2.updItem w.nextItem (·.setLevel level)) :=
    .updItem _ _ (fun _ => rfl) fun _ => rfl
  have hloose : Loose (w.allocItem 0 code n GenerateCode.BY_QUEST).2 w.nextItem := by
    refine ⟨hheap, Nat.lt_succ_self _, ?_, ?_, ?_, ?_⟩
    · rw [hnew]
      refine if_pos ?_
      cases w.itemBase code <;> rfl
    · have hbase := congrArg Item.Lot.itemBase hlot
      have hcode := congrArg Item.Lot.Code hlot
      rw [Item.lot_itemBase] at hbase
      rw [Item.lot_Code] at hcode
      rw [hbase, hcode]
      rfl
    · exact (congrArg Item.Lot.Code hlot).trans_ne hcode
    · have hcount := congrArg Item.Lot.nCount hlot
      rw [Item.lot_nCount] at hcount
      rw [hcount]
      exact hn
  refine ⟨(hok.allocItem code n _).touched hheap hfree htouch, (allocItem_later w code n _).trans htouch.later,
    htouch.loose hloose, htouch.isFree.trans hfree, (htouch.quiet.lot _).trans hlot, fun r => rfl, fun r a ha => ?_, ?_⟩
  · have hne : a ≠ w.nextItem := fun heq => hheap r (heq ▸ ha)
    rw [updItem_items_of_ne _ _ _ hne, allocItem_items_of_ne _ _ _ _ _ hne]
  · rw [updItem_items_same, hnew]
    cases w.itemBase code <;> rfl

theorem findByCode_congr (hlist : (w'.inv r).vList = (w.inv r).vList)
    (hitems : ∀ a ∈ (w.inv r).vList, (w'.items a).inst.Code = (w.items a).inst.Code) (code : Int) :
    w'.findByCode r code = w.findByCode r code := by
  unfold findByCode
  rw [hlist]
  exact List.find?_congr fun a ha => by rw [hitems a ha]

namespace Rewarded

variable (hr : Rewarded w w' code n)

include hr

theorem findByCode (h : Handle) :
    (w'.assignIdx h w.nextItem).findByCode (bag h) code = w.findByCode (bag h) code := by
  have ht := Touched.assignIdx w' h w.nextItem
  refine findByCode_congr ((ht.quiet.vList _).trans (hr.vList _)) (fun a ha => ?_) code
  rw [← hr.items (bag h) a ha]
  exact congrArg Item.Lot.Code (ht.quiet.lot a)

theorem lot_assignIdx (h : Handle) :
    ((w'.assignIdx h w.nextItem).items w.nextItem).lot = ⟨w.itemBase code, code, n⟩ :=
  ((Touched.assignIdx w' h w.nextItem).quiet.lot _).trans hr.lot

/-- The item joins the first stack of its code, if it joins one. -/
theorem joinTarget (h : Handle) : (w'.assignIdx h w.nextItem).joinTarget (bag h) w.nextItem =
    if w.joins code then w.findByCode (bag h) code else none := by
  have hbase : ((w'.assignIdx h w.nextItem).items w.nextItem).itemBase = w.itemBase code :=
    congrArg Item.Lot.itemBase (hr.lot_assignIdx h)
  have hcode : ((w'.assignIdx h w.nextItem).items w.nextItem).inst.Code = code :=
    congrArg Item.Lot.Code (hr.lot_assignIdx h)
  unfold World.joinTarget Item.isJoinable joins
  rewrite [hbase, hcode, hr.findByCode h]
  rfl

theorem piles_assignIdx (h : Handle) : (w'.assignIdx h w.nextItem).piles (bag h) = w.piles (bag h) := by
  rw [(Touched.assignIdx w' h w.nextItem).quiet.toQuiet.piles]
  exact piles_congr (hr.vList _) fun a ha => by rw [hr.items _ a ha]

theorem goods_assignIdx (h : Handle) : GoodsOk (w'.assignIdx h w.nextItem) :=
  hr.goods.touched hr.loose.loose hr.free (.assignIdx w' h w.nextItem)

/-- The item is not the player's yet. -/
theorem pushItem_eq (hok : GoodsOk w) (hh : w.playerPool h = true) : w'.pushItem h w.nextItem n =
    ((w'.assignIdx h w.nextItem).push (bag h) w.nextItem n).map fun s => (some s.1, s.2) := by
  have huid : (w'.items w.nextItem).inst.nOwnerUID % 2 ^ 32 ≠ (w'.players h).uid := by
    rw [hr.nOwnerUID, hr.later.uid]
    have := (hok.uid h hh).1
    omega
  rw [pushItem, if_neg huid, if_neg hr.loose.coded]

/-- `Push` on the item. -/
theorem piles_push {q : ItemPtr} {w₂ : World}
    (hpush : (w'.assignIdx h w.nextItem).push (bag h) w.nextItem n = some (q, w₂)) :
    w₂.piles (bag h) = (w.piles (bag h)).put (w.joins code) code n := by
  have hjoin := hr.joinTarget h
  have hpos := ((hr.goods_assignIdx h).stocked (bag h)).position
  have hfirst := first_piles hpos code
  rw [hr.piles_assignIdx, hr.findByCode] at hfirst
  have hattach : (w'.assignIdx h w.nextItem).joinTarget (bag h) w.nextItem = none →
      w₂.piles (bag h) = w.piles (bag h) ++ [(code, n)] := by
    intro hnone
    obtain ⟨rfl, -, ⟨d, hq⟩, -⟩ := push_attach hpush hnone
    have hlot := hr.lot_assignIdx h
    have hcode : ((w'.assignIdx h w.nextItem).items w.nextItem).inst.Code = code := congrArg Item.Lot.Code hlot
    have hcount : ((w'.assignIdx h w.nextItem).items w.nextItem).inst.nCount = n := congrArg Item.Lot.nCount hlot
    rw [hq.toQuiet.piles, piles_attach, hr.piles_assignIdx, hcode, hcount]
  unfold Stacks.put
  split_ifs at hjoin ⊢ with hj
  · unfold Stacks.join
    rw [hfirst]
    cases hfind : w.findByCode (bag h) code with
    | none => exact hattach (hjoin.trans hfind)
    | some e =>
      rw [hfind] at hjoin
      obtain ⟨rfl, -, hs⟩ := push_join hpush hjoin
      obtain ⟨he, hcode⟩ := code_of_findByCode ((hr.findByCode h).trans hfind)
      rw [piles_set hpos he (hs.vList _) hs.items, hr.piles_assignIdx, hcode]
      rfl
  · exact hattach hjoin

end Rewarded

/-- A reward in the inventory. -/
theorem rewardItem_spec {o : Option ItemPtr} {level : Int} (hok : GoodsOk w) (hh : w.playerPool h = true)
    (hcode : code ≠ 0) (hn : IsInt64 n) (hrun : w.rewardItem h code level n = some (o, w')) :
    GoodsOk w' ∧ Later w w' ∧ (∃ q, o = some q ∧ (w'.items q).inst.Code = code) ∧
      w'.piles (bag h) = (w.piles (bag h)).put (w.joins code) code n := by
  have hr := rewarded_allocItem hok hcode hn level
  unfold rewardItem at hrun
  rw [hr.pushItem_eq hok hh] at hrun
  obtain ⟨⟨q, w₂⟩, hpush, heq⟩ := Option.map_eq_some_iff.mp hrun
  obtain ⟨rfl, rfl⟩ := Prod.mk.inj heq
  generalize ((w.allocItem 0 code n GenerateCode.BY_QUEST).2.updItem w.nextItem (·.setLevel level)) = w₁ at hr hpush
  have ht := Touched.assignIdx w₁ h w.nextItem
  have hgoods := hr.goods_assignIdx h
  have hcode₁ : ((w₁.assignIdx h w.nextItem).items w.nextItem).inst.Code = code :=
    congrArg Item.Lot.Code (hr.lot_assignIdx h)
  have hcount : ((w₁.assignIdx h w.nextItem).items w.nextItem).inst.nCount = n :=
    congrArg Item.Lot.nCount (hr.lot_assignIdx h)
  have hput := push_putInto hgoods.toWorldOk (ht.loose hr.loose) (by rw [hcount]; exact hpush)
  refine ⟨hgoods.putInto (ht.isFree.trans hr.free) hput, (hr.later.trans ht.later).trans hput.later,
    ⟨q, rfl, ?_⟩, hr.piles_push hpush⟩
  by_cases hq : q = w.nextItem
  · rw [hq, hput.later.Code _ (ht.quiet.nextItem ▸ hr.loose.heap), hcode₁]
  · obtain ⟨hmem, hsame, -⟩ := hput.joined hq
    rw [hput.later.Code _ ((hgoods.stocked _).heap q hmem), hsame, hcode₁]

/-- A reward needs a template, and room on the stack that it joins. -/
theorem rewardItem_isSome_iff {level : Int} (hok : GoodsOk w) (hh : w.playerPool h = true) (hcode : code ≠ 0)
    (hn : IsInt64 n) : (w.rewardItem h code level n).isSome ↔ (w.itemBase code).isSome ∧
      (w.joins code → ∀ s, (w.piles (bag h)).first code = some s → IsInt64 (s.2 + n)) := by
  have hr := rewarded_allocItem hok hcode hn level
  unfold rewardItem
  rw [hr.pushItem_eq hok hh, Option.isSome_map]
  generalize ((w.allocItem 0 code n GenerateCode.BY_QUEST).2.updItem w.nextItem (·.setLevel level)) = w₁ at hr
  have hjoin := hr.joinTarget h
  have hgoods := hr.goods_assignIdx h
  have hfirst := first_piles (hgoods.stocked (bag h)).position code
  rw [hr.piles_assignIdx, hr.findByCode] at hfirst
  have hbase : ((w₁.assignIdx h w.nextItem).items w.nextItem).itemBase = w.itemBase code :=
    congrArg Item.Lot.itemBase (hr.lot_assignIdx h)
  constructor
  · intro hsome
    obtain ⟨⟨q, w₂⟩, hpush⟩ := Option.isSome_iff_exists.mp hsome
    rcases push_eq_some hpush with ⟨hnone, -, hb, -⟩ | ⟨htarget, hb, hfit, -⟩
    · refine ⟨hbase ▸ hb, fun hj s hs => ?_⟩
      rw [if_pos hj, hnone] at hjoin
      rw [hfirst, ← hjoin] at hs
      cases hs
    · rw [htarget] at hjoin
      split_ifs at hjoin with hj
      rw [← hjoin] at hfirst
      refine ⟨?_, fun _ s hs => ?_⟩
      · unfold joins at hj
        cases hb : w.itemBase code with
        | none => rw [hb] at hj; cases hj
        | some base => rfl
      · obtain rfl := Option.some.inj (hfirst.symm.trans hs)
        exact hfit
  · rintro ⟨hb, hroom⟩
    refine push_isSome (hbase ▸ hb) fun e he => ?_
    rw [he] at hjoin
    split_ifs at hjoin with hj
    rw [← hjoin] at hfirst
    refine ⟨(hgoods.stocked (bag h)).based e ?_, hroom hj _ hfirst⟩
    exact (code_of_findByCode ((hr.findByCode h).trans hjoin.symm)).1

end RZEmulator.Chihiro.World
