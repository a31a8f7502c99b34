import RZEmulator.Chihiro.ItemIndex
import RZEmulator.Chihiro.StorageRun

/-!
# Items that lie in the world

A `Floor` is a world together with the items that lie in it: `onDropItem` and a monster's loot put items
there, `procAddItem` and `PushItem` bring them to a player. `Tidy` is what every move of an item keeps: the
world is well-formed, what lies in it is in no inventory, and in every inventory the indices of the items are
distinct and were issued (`Numbered`). A move comes down to taking an item out, giving it another index and
pushing it; only the push can break the numbering, and `push_numbered_iff` says when it does not.
-/

namespace RZEmulator.Chihiro

structure Floor where
  world : World
  ground : List ItemPtr

def ITEM_FLAG_SUMMON : Int := 0x80000000

namespace World

variable {w w' w₁ w₂ : World} {r r' : InvRef} {p q x : ItemPtr} {h : Handle} {c : Int} {G : List ItemPtr}

/-! ## The functions -/

/-- The checks of `onDropItem`. -/
def mayDrop (i : Item) (count : Int) : Bool :=
  i.isDropable && decide (0 < count) &&
    (i.getItemGroup != ItemGroup.GROUP_SUMMONCARD || i.inst.Flag / ITEM_FLAG_SUMMON % 2 != 1)

/-- An object whose units have joined a stack is freed. -/
def freeJoined (w : World) (x : ItemPtr) : Option ItemPtr → World
  | none => w
  | some q => if (w.items q).handle ≠ (w.items x).handle then w.updItem x (·.pendFreeItem) else w

/-- `World::procAddItem`. -/
def procAddItem (w : World) (h : Handle) (p : ItemPtr) : Option World :=
  (if (w.items p).inst.Code ≠ 0 then some true
    else (Lib.add64 (w.players h).nGold (w.items p).inst.nCount).map fun sum =>
      decide (sum < MAX_GOLD_FOR_INVENTORY)).bind fun room =>
    if room then
      ((w.updItem p (·.setIdx 0)).pushItem h p (w.items p).inst.nCount).map fun (o, w) => w.freeJoined p o
    else some w

/-- A new item for a player, as the shop, a quest, a prop or a script makes it. -/
def gainItem (w : World) (h : Handle) (code cnt : Int) : Option World :=
  ((w.allocItem 0 code cnt GenerateCode.BY_BASIC).2.pushItem h w.nextItem cnt).map fun (o, w') =>
    w'.freeJoined w.nextItem o

/-! ## What is kept -/

/-- The items of an inventory have distinct indices, none of which exceeds the last one issued. -/
structure Numbered (w : World) (r : InvRef) : Prop where
  distinct : ∀ p ∈ (w.inv r).vList, ∀ q ∈ (w.inv r).vList,
    (w.items p).inst.nIdx = (w.items q).inst.nIdx → p = q
  issued : ∀ p ∈ (w.inv r).vList, (w.items p).inst.nIdx ≤ (w.inv r).nIndex

/-- A registered item in no inventory that names nobody as its holder; it may be a pile of gold. -/
structure Lying (w : World) (x : ItemPtr) : Prop where
  loose : ∀ r, x ∉ (w.inv r).vList
  heap : x < w.nextItem
  pooled : w.itemPool (w.items x).handle = some x
  template : (w.items x).itemBase = w.itemBase (w.items x).inst.Code
  count : Lib.IsInt64 (w.items x).inst.nCount
  free : (w.items x).isFree = true

/-- The world is well-formed and `G` lies in it. -/
structure Laid (w : World) (G : List ItemPtr) : Prop where
  goods : GoodsOk w
  lying : ∀ x ∈ G, Lying w x

structure Tidy (w : World) (G : List ItemPtr) : Prop extends Laid w G where
  numbered : ∀ r, Numbered w r

/-- The item `x` lies nowhere and is in no inventory: it is on its way from one place to another. -/
structure OnTheWay (w : World) (G : List ItemPtr) (x : ItemPtr) : Prop extends Lying w x where
  notMem : x ∉ G

theorem Lying.toLoose (hx : Lying w x) (hcode : (w.items x).inst.Code ≠ 0) : Loose w x :=
  ⟨hx.loose, hx.heap, hx.pooled, hx.template, hcode, hx.count⟩

theorem Loose.lying (hx : Loose w x) (hfree : (w.items x).isFree = true) : Lying w x :=
  ⟨hx.loose, hx.heap, hx.pooled, hx.template, hx.count, hfree⟩

/-- What lies in the world still does, where only other things have changed. -/
theorem Lying.later (hok : WorldOk w) (hx : Lying w x) (hl : Later w w') (halike : Item.Alike (w.items x) (w'.items x))
    (hcount : (w'.items x).inst.nCount = (w.items x).inst.nCount) (hloose : ∀ r, x ∉ (w'.inv r).vList) :
    Lying w' x := by
  have hlt : (w.items x).handle < w.nItemTop := by
    by_contra hge
    have hpool := hx.pooled
    rw [hok.fresh _ (Nat.not_lt.mp hge)] at hpool
    cases hpool
  refine ⟨hloose, hx.heap.trans_le hl.nextItem, ?_, ?_, hcount ▸ hx.count, halike.isFree ▸ hx.free⟩
  · rw [halike.handle, hl.itemPool _ hlt]
    exact hx.pooled
  · rw [halike.itemBase, halike.Code, hl.itemBase]
    exact hx.template

/-- A numbering depends on the list, the indices of its items and the counter only; the counter may rise. -/
theorem Numbered.congr (hn : Numbered w r) (hlist : ∀ p ∈ (w'.inv r).vList, p ∈ (w.inv r).vList)
    (hidx : ∀ p ∈ (w'.inv r).vList, (w'.items p).inst.nIdx = (w.items p).inst.nIdx)
    (hindex : (w.inv r).nIndex ≤ (w'.inv r).nIndex) : Numbered w' r := by
  refine ⟨fun p hp q hq heq => ?_, fun p hp => ?_⟩
  · rw [hidx p hp, hidx q hq] at heq
    exact hn.distinct p (hlist p hp) q (hlist q hq) heq
  · rw [hidx p hp]
    exact (hn.issued p (hlist p hp)).trans hindex

/-! ## Taking out -/

/-- What `Pop` gives of an item is on its way, with the index of the item. -/
theorem Tidy.pop {o : Option ItemPtr} (ht : Tidy w G) (hr : w.playerPool r.owner = true)
    (hp : p ∈ (w.inv r).vList) (hcode : (w.items p).inst.Code ≠ 0) (hc : Lib.IsInt64 c)
    (hle : c ≤ (w.items p).inst.nCount) (hrun : w.pop r p c = some (o, w')) :
    ∃ x, o = some x ∧ TakenFrom w w' r p x c ∧ Tidy w' G ∧ OnTheWay w' G x ∧ (w'.items x).inst.Code ≠ 0 ∧
      (w'.items x).inst.nIdx = (w.items p).inst.nIdx := by
  obtain ⟨hgoods, hlying⟩ := ht.toLaid
  obtain ⟨x, rfl, htaken⟩ := pop_takenFrom hgoods.toWorldOk hp hle hrun
  obtain ⟨hidx, hidxx, hindex⟩ := pop_numbers hrun
  have hloose := htaken.looseItem hgoods.toWorldOk hp hcode hc
  have hfree := htaken.free (hgoods.login hr)
  have hne : ∀ y, Lying w y → y ≠ x ∧ y ≠ p := fun y hy => by
    have hyp : y ≠ p := fun heq => hy.loose r (heq ▸ hp)
    refine ⟨?_, hyp⟩
    rcases htaken.source with rfl | rfl
    · exact hyp
    · exact hy.heap.ne
  refine ⟨x, rfl, htaken, ⟨⟨hgoods.takenFrom hr htaken, fun y hy => ?_⟩, fun r' => ?_⟩,
    ⟨hloose.lying hfree, fun hx => (hne x (hlying x hx)).1 rfl⟩, hloose.coded, hidxx x rfl⟩
  · have hy' := hlying y hy
    obtain ⟨hyx, hyp⟩ := hne y hy'
    refine hy'.later hgoods.toWorldOk htaken.later (htaken.alike y hyx) ?_ fun r' hmem => ?_
    · rw [htaken.count y hyx, if_neg hyp, sub_zero]
    · exact hy'.loose r' ((htaken.mem r' y).mp hmem).1
  · refine (ht.numbered r').congr (fun q hq => ((htaken.mem r' q).mp hq).1) (fun q hq => ?_) (hindex r').ge
    exact hidx q ((hgoods.stocked r').heap q ((htaken.mem r' q).mp hq).1).ne

/-- `Erase` leaves the other items as they are. -/
theorem Tidy.erase (ht : Tidy w G) (hr : w.playerPool r.owner = true) (hp : p ∈ (w.inv r).vList)
    (hrun : w.erase r p c = some w') : Tidy w' G := by
  obtain ⟨hgoods, hlying⟩ := ht.toLaid
  have herased := erase_erasedFrom hgoods.toWorldOk hp hrun
  have hsame := erase_sameNumbers hrun
  refine ⟨⟨hgoods.erasedFrom hr herased, fun y hy => ?_⟩, fun r' => ?_⟩
  · have hy' := hlying y hy
    have hyp : y ≠ p := fun heq => hy'.loose r (heq ▸ hp)
    refine hy'.later hgoods.toWorldOk herased.later (herased.alike y fun heq => absurd heq hyp) ?_ fun r' hmem => ?_
    · rw [herased.count y fun heq => absurd heq hyp, if_neg hyp, sub_zero]
    · exact hy'.loose r' ((herased.mem r' y).mp hmem).1
  · exact (ht.numbered r').congr (fun q hq => ((herased.mem r' q).mp hq).1) (fun q _ => hsame.nIdx q)
      (hsame.nIndex r').ge

/-! ## On the way -/

/-- A change of an item on its way that neither goods nor tags take note of; indices may be issued. -/
theorem Touched.onTheWay (ht : Touched x w w') (hx : OnTheWay w G x) : OnTheWay w' G x := by
  have hlot := ht.quiet.lot x
  have hcode : (w'.items x).inst.Code = (w.items x).inst.Code := congrArg Item.Lot.Code hlot
  refine ⟨⟨fun r => ?_, ?_, ?_, ?_, ?_, ht.isFree ▸ hx.free⟩, hx.notMem⟩
  · rw [ht.quiet.vList]
    exact hx.loose r
  · rw [ht.quiet.nextItem]
    exact hx.heap
  · rw [ht.tags.itemPool, ht.handle]
    exact hx.pooled
  · rw [ht.quiet.itemBase, hcode, ← hx.template]
    exact congrArg Item.Lot.itemBase hlot
  · rw [show (w'.items x).inst.nCount = _ from congrArg Item.Lot.nCount hlot]
    exact hx.count

theorem Laid.touched (hl : Laid w G) (hx : OnTheWay w G x) (ht : Touched x w w') : Laid w' G := by
  refine ⟨hl.goods.touched hx.loose hx.free ht, fun y hy => ?_⟩
  have hy' := hl.lying y hy
  have hyx : y ≠ x := fun heq => hx.notMem (heq ▸ hy)
  have hsame := ht.quiet.other y hyx
  refine hy'.later hl.goods.toWorldOk ht.later (hsame ▸ .refl _) (by rw [hsame]) fun r => ?_
  rw [ht.quiet.vList]
  exact hy'.loose r

theorem Numbered.touched (hn : Numbered w r) (hx : x ∉ (w.inv r).vList) (ht : Touched x w w')
    (hindex : (w.inv r).nIndex ≤ (w'.inv r).nIndex) : Numbered w' r := by
  have hlist := ht.quiet.vList r
  refine hn.congr (fun p hp => hlist ▸ hp) (fun p hp => ?_) hindex
  rw [hlist] at hp
  rw [ht.quiet.other p fun heq => hx (heq ▸ hp)]

theorem Tidy.touched (ht : Tidy w G) (hx : OnTheWay w G x) (htouch : Touched x w w')
    (hindex : ∀ r, (w.inv r).nIndex ≤ (w'.inv r).nIndex) : Tidy w' G :=
  ⟨ht.toLaid.touched hx htouch, fun r => (ht.numbered r).touched (hx.loose r) htouch (hindex r)⟩

/-- A new index is one that no item of the inventory has. -/
def Fresh (w : World) (r : InvRef) (x : ItemPtr) : Prop :=
  w.joinTarget r x = none → ∀ a ∈ (w.inv r).vList, (w.items a).inst.nIdx ≠ (w.items x).inst.nIdx

theorem Tidy.setNewIdx (ht : Tidy w G) (hx : OnTheWay w G x) (r : InvRef) :
    Tidy (w.setNewIdx r x) G ∧ OnTheWay (w.setNewIdx r x) G x ∧ Fresh (w.setNewIdx r x) r x := by
  have htouch := Touched.setNewIdx w r x
  have hindex : ∀ r', ((w.setNewIdx r x).inv r').nIndex =
      if r' = r then (w.inv r).nIndex + 1 else (w.inv r').nIndex := fun r' => by
    rw [World.setNewIdx, updItem_inv, updInv_inv]
    split_ifs <;> rfl
  refine ⟨ht.touched hx htouch fun r' => ?_, htouch.onTheWay hx, fun _ a ha => ?_⟩
  · rw [hindex]
    split_ifs with hr
    · rw [hr]
      omega
    · exact le_refl _
  · rw [htouch.quiet.vList] at ha
    have hax : a ≠ x := fun heq => hx.loose r (heq ▸ ha)
    have hnew : ((w.setNewIdx r x).items x).inst.nIdx = (w.inv r).nIndex + 1 := by
      rw [World.setNewIdx, updItem_items_same]
      rfl
    have hissued := (ht.numbered r).issued a ha
    rw [htouch.quiet.other a hax, hnew]
    omega

/-- An item without an index is given a new one by `PushItem`. -/
theorem assignIdx_eq (hzero : (w.items x).inst.nIdx = 0) : w.assignIdx h x = w.setNewIdx (bag h) x := by
  rw [assignIdx, if_pos hzero]
  rfl

/-! ## Pushing -/

/-- **When a push keeps the numbering**: the item joins a stack, or its index is none of those in the
inventory. -/
theorem Tidy.push (ht : Tidy w G) (hx : OnTheWay w G x) (hcode : (w.items x).inst.Code ≠ 0)
    (hrun : w.push r x (w.items x).inst.nCount = some (q, w')) :
    Laid w' G ∧ (q ≠ x → OnTheWay w' G x) ∧ ((∀ r', Numbered w' r') ↔ Fresh w r x) := by
  obtain ⟨hgoods, hlying⟩ := ht.toLaid
  have hput := push_putInto hgoods.toWorldOk (hx.toLying.toLoose hcode) hrun
  obtain ⟨hidx, hindex⟩ := push_numbers hrun
  have hjoin : w.joinTarget r x = none ↔ q = x := by
    cases hjoin : w.joinTarget r x with
    | none => exact iff_of_true rfl (push_attach hrun hjoin).1
    | some e =>
      obtain ⟨rfl, -, -⟩ := push_join hrun hjoin
      refine iff_of_false (by simp) fun heq => hx.loose r ?_
      exact heq ▸ (joinTarget_eq_some hjoin).1
  refine ⟨⟨hgoods.putInto hx.free hput, fun y hy => ?_⟩, fun hqx => ?_, fun hnum hnone a ha heq => ?_,
    fun hfresh r' => ?_⟩
  · have hy' := hlying y hy
    have hyx : y ≠ x := fun heq => hx.notMem (heq ▸ hy)
    refine hy'.later hgoods.toWorldOk hput.later (hput.alike y hyx) ?_ fun r' hmem => ?_
    · rw [hput.count, if_neg ?_, add_zero]
      rintro ⟨rfl, hqx⟩
      exact hy'.loose r (hput.joined hqx).1
    · exact ((hput.mem r' y).mp hmem).elim (hy'.loose r') fun h => hyx h.2.1
  · have hsame := (hput.joined hqx).2.2
    refine ⟨hx.toLying.later hgoods.toWorldOk hput.later (hsame ▸ .refl _) (by rw [hsame]) fun r' hmem => ?_,
      hx.notMem⟩
    exact ((hput.mem r' x).mp hmem).elim (hx.loose r') fun h => hqx h.2.2
  · have hqx := hjoin.mp hnone
    have ha' : a ∈ (w'.inv r).vList := (hput.mem r a).mpr (.inl ha)
    have hx' : x ∈ (w'.inv r).vList := (hput.mem r x).mpr (.inr ⟨rfl, rfl, hqx⟩)
    have hax := (hnum r).distinct a ha' x hx' (by rw [hidx, hidx, heq])
    exact hx.loose r (hax ▸ ha)
  · have hn := ht.numbered r'
    by_cases hattach : r' = r ∧ w.joinTarget r x = none
    · obtain ⟨rfl, hnone⟩ := hattach
      have hnew := hfresh hnone
      have hcases : ∀ a ∈ (w'.inv r').vList, a ∈ (w.inv r').vList ∨ a = x := fun a ha =>
        ((hput.mem r' a).mp ha).imp_right fun h => h.2.1
      refine ⟨fun a ha b hb heq => ?_, fun a ha => ?_⟩
      · rw [hidx, hidx] at heq
        rcases hcases a ha with ha | rfl
        · rcases hcases b hb with hb | rfl
          · exact hn.distinct a ha b hb heq
          · exact absurd heq (hnew a ha)
        · rcases hcases b hb with hb | rfl
          · exact absurd heq.symm (hnew b hb)
          · rfl
      · rw [hidx, hindex, if_pos ⟨rfl, hnone⟩]
        rcases hcases a ha with ha | rfl
        · exact (hn.issued a ha).trans (le_max_left _ _)
        · exact le_max_right _ _
    · refine hn.congr (fun a ha => ?_) (fun a _ => hidx a) ?_
      · refine ((hput.mem r' a).mp ha).resolve_right fun h => hattach ⟨h.1, hjoin.mpr h.2.2⟩
      · rw [hindex, if_neg hattach]

end World

end RZEmulator.Chihiro
