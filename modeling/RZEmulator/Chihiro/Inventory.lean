import RZEmulator.Chihiro.Equipment
import RZEmulator.Lib.SwapRemove

/-!
# The inventory

`Inventory.cpp`, with the player as its event receiver. Two of the source's names differ by case only:
the public `Push` and `Pop` are `push` and `pop` here, the private `push` and `pop` that they end in
are `rawPush` and `rawPop`.

Each operation has one lemma that says what it can do (`push_eq_some`, `pop_eq_some`, `erase_eq_some`):
up to what its receiver does quietly, it is one of three explicit changes, `attach`, `detach` and
`recount`, a split being a recount next to a new item. Everything later is proved about those three.
-/

namespace RZEmulator.Chihiro

namespace Inventory

/-- `emplace_back` on the list and, for an item that expires, on the expire list. -/
def enter (i : Inventory) (p : ItemPtr) (expires : Bool) : Inventory :=
  { i with
    vList := i.vList ++ [p]
    vExpireItemList := if expires then i.vExpireItemList ++ [p] else i.vExpireItemList }

/-- The element at `idx` is taken out by a swap, and `p` out of the expire list. -/
def leave (i : Inventory) (p : ItemPtr) (idx : Nat) : Inventory :=
  { i with
    vList := Lib.swapRemove i.vList idx
    vExpireItemList := i.vExpireItemList.erase p }

variable {i j : Inventory}

theorem goods_enter_congr (h : i.goods = j.goods) (p : ItemPtr) (expires : Bool) :
    (i.enter p expires).goods = (j.enter p expires).goods := by
  simp only [goods, Goods.mk.injEq] at h
  simp only [goods, enter, h]

theorem goods_leave_congr (h : i.goods = j.goods) (p : ItemPtr) (idx : Nat) :
    (i.leave p idx).goods = (j.leave p idx).goods := by
  simp only [goods, Goods.mk.injEq] at h
  simp only [goods, leave, h]

end Inventory

namespace World

/-! ## The event receiver -/

/-- The receiver becomes the owner; a mount is put on at once where the slot for it is free. -/
def takeOver (w : World) (r : InvRef) (p : ItemPtr) : Option World :=
  match r.kind with
  | .inventory =>
    if (w.items p).getWearType = ItemWearType.WEAR_RIDE_ITEM ∧ (w.players r.owner).loginComplete ∧
        (w.players r.owner).anWear ItemWearType.WEAR_RIDE_ITEM = none then
      (w.updItem p (·.setOwnerInfo r.owner (w.players r.owner).uid 0)).putonItem r.owner
        ItemWearType.WEAR_RIDE_ITEM p
    else some (w.updItem p (·.setOwnerInfo r.owner (w.players r.owner).uid 0))
  | .storage => some (w.updItem p (·.setOwnerInfo r.owner 0 (w.players r.owner).accountId))

/-- An item without a unique id gets one, and a new handle with it. -/
def identify (w : World) (p : ItemPtr) : World :=
  if (w.items p).inst.UID = 0 then w.allocItemHandle p else w

/-- `Player::onAdd`. -/
def onAdd (w : World) (r : InvRef) (p : ItemPtr) : Option World :=
  (w.takeOver r p).map fun w => (w.identify p).updateWeightWithInventory r.owner

/-- The skill card's part of `onRemove`: a unit that is bound to the card lets go of it. -/
def unBindSkillCard (w : World) (p : ItemPtr) : World :=
  match (w.items p).itemBase with
  | none => w
  | some base =>
    if (w.items p).isSkillCard ∧ (w.items p).hBindedTarget ≠ 0 ∧
        w.unitHasSkill (w.items p).hBindedTarget base.skillId then
      w.updItem p (·.clearBindTarget)
    else w

/-- The receiver's part in a removal, which only a player who is logged in takes. -/
def giveUp (w : World) (r : InvRef) (p : ItemPtr) : World :=
  if (w.players r.owner).loginComplete then
    match r.kind with
    | .inventory => (w.updItem p (·.setOwnerInfo 0 0 0)).unBindSkillCard p
    | .storage => w.updItem p (·.setOwnerInfo 0 0 0)
  else w

/-- `Player::onRemove`. -/
def onRemove (w : World) (r : InvRef) (p : ItemPtr) : World :=
  (w.giveUp r p).updateWeightWithInventory r.owner

/-! ## The operations -/

/-- `setCount`, with the receiver's `onChangeCount`. -/
def setCount (w : World) (r : InvRef) (p : ItemPtr) (newCnt : Int) : World :=
  (w.updItem p (·.setCount newCnt)).updateWeightWithInventory r.owner

/-- The private `push`. -/
def rawPush (w : World) (r : InvRef) (p : ItemPtr) : Option World :=
  (w.items p).isExpireItem.bind fun expires =>
    ((w.updInv r (·.enter p expires)).updItem p (·.setStorageIndex (w.inv r).vList.length)).onAdd r p

/-- The removal itself: `back` takes the place of `p`, then the last element is dropped. -/
def takeOut (w : World) (r : InvRef) (p back : ItemPtr) : World :=
  if back ≠ p then
    (w.updItem back (·.setStorageIndex (w.items p).unInventoryIndex)).updInv r fun i =>
      { i with
        vList := (i.vList.set (w.items p).unInventoryIndex back).dropLast
        vExpireItemList := i.vExpireItemList.erase p }
  else
    w.updInv r fun i =>
      { i with vList := i.vList.dropLast, vExpireItemList := i.vExpireItemList.erase p }

/-- The private `pop`. -/
def rawPop (w : World) (r : InvRef) (p : ItemPtr) : Option World :=
  ((w.onRemove r p).inv r).vList.getLast?.map fun back => (w.onRemove r p).takeOut r p back

/-- `check`: both of its assertions hold. -/
def check (w : World) (r : InvRef) (p : ItemPtr) : Prop :=
  (w.inv r).vList[(w.items p).unInventoryIndex]? = some p

instance (w : World) (r : InvRef) (p : ItemPtr) : Decidable (w.check r p) :=
  inferInstanceAs (Decidable (_ = _))

def findByCode (w : World) (r : InvRef) (code : Int) : Option ItemPtr :=
  (w.inv r).vList.find? fun p => (w.items p).inst.Code == code

def findByHandle (w : World) (r : InvRef) (handle : Handle) : Option ItemPtr :=
  (w.inv r).vList.find? fun p => (w.items p).handle == handle

/-- `m_fWeight += d`, and `m_fWeightModifier -= d` where the item is worn. -/
def carry (w : World) (r : InvRef) (p : ItemPtr) (d : ℚ) : World :=
  if (w.items p).inst.nWearInfo ≠ ItemWearType.WEAR_NONE then
    w.updInv r fun i => (i.addWeight d).addWeightModifier (-d)
  else w.updInv r (·.addWeight d)

/-- The stack that `Push` would join an item to. -/
def joinTarget (w : World) (r : InvRef) (p : ItemPtr) : Option ItemPtr :=
  if (w.items p).isJoinable then w.findByCode r (w.items p).inst.Code else none

/-- `Inventory::Push`. A joined stack's whole weight is added, before its count changes. -/
def push (w : World) (r : InvRef) (p : ItemPtr) (cnt : Int) : Option (ItemPtr × World) :=
  match w.joinTarget r p with
  | none => do
    let weight ← (w.items p).getWeight
    let w ← (w.carry r p weight).rawPush r p
    return (p, w.updInv r fun i => { i with nIndex := max i.nIndex (w.items p).inst.nIdx })
  | some e => do
    let weight ← (w.items e).getWeight
    let n ← Lib.add64 (w.items e).inst.nCount cnt
    return (e, (w.carry r e weight).setCount r e n)

/-- The new item of a split: `AllocItem`, `CopyFrom` and `SetCount`. -/
def divide (w : World) (p : ItemPtr) (cnt : Int) : World :=
  let w' := (w.allocItem 0 (w.items p).inst.Code 1 GenerateCode.BY_DIVIDE).2
  w'.updItem w.nextItem fun i => (i.copyFrom (w.items p)).setCount cnt

/-- `Inventory::Pop`. A split takes the whole stack's weight away, before its count changes. -/
def pop (w : World) (r : InvRef) (p : ItemPtr) (cnt : Int) : Option (Option ItemPtr × World) :=
  if w.check r p then
    if cnt < (w.items p).inst.nCount then do
      let weight ← (w.items p).getWeight
      let n ← Lib.add64 (w.items p).inst.nCount (-cnt)
      return (some w.nextItem, ((w.divide p cnt).carry r p (-weight)).setCount r p n)
    else if (w.items p).inst.nCount = cnt then do
      let weight ← (w.items p).getWeight
      let w ← (w.carry r p (-weight)).rawPop r p
      return (some p, w)
    else some (none, w)
  else none

/-- `Inventory::Erase`. A partial erase takes the whole stack's weight away as well. -/
def erase (w : World) (r : InvRef) (p : ItemPtr) (cnt : Int) : Option World :=
  if w.check r p then
    if cnt < (w.items p).inst.nCount then do
      let weight ← (w.items p).getWeight
      let n ← Lib.add64 (w.items p).inst.nCount (-cnt)
      return (w.carry r p (-weight)).setCount r p n
    else do
      let weight ← (w.items p).getWeight
      let w ← (w.carry r p (-weight)).rawPop r p
      return w.updItem p (·.pendFreeItem)
  else none

/-! ## The three changes -/

/-- `p` enters at the end of the list, with the weight `d`. -/
def attach (w : World) (r : InvRef) (p : ItemPtr) (d : ℚ) : World :=
  ((w.updInv r (·.addWeight d)).updInv r (·.enter p (w.items p).lot.expires)).updItem p
    (·.setStorageIndex (w.inv r).vList.length)

/-- The last element, if it is not `p`, is given the position of `p`. -/
def moveBack (w : World) (r : InvRef) (p : ItemPtr) : World :=
  match (w.inv r).vList.getLast? with
  | none => w
  | some back => if back ≠ p then w.updItem back (·.setStorageIndex (w.items p).unInventoryIndex) else w

/-- `p` leaves the list, with the weight `d`. -/
def detach (w : World) (r : InvRef) (p : ItemPtr) (d : ℚ) : World :=
  ((w.updInv r (·.addWeight d)).moveBack r p).updInv r (·.leave p (w.items p).unInventoryIndex)

/-- The stack `p` counts `n` units, the inventory weighs `d` more. -/
def recount (w : World) (r : InvRef) (p : ItemPtr) (n : Int) (d : ℚ) : World :=
  (w.updInv r (·.addWeight d)).updItem p (·.setCount n)

namespace QuietAt

variable {p : ItemPtr} {w w' : World}

/-- A change of an item that depends on its stack only may be made before or after. -/
theorem comp_updItem (h : QuietAt p w w') (q : ItemPtr) {f : Item → Item}
    (hf : ∀ i j : Item, i.stack = j.stack → (f i).stack = (f j).stack) :
    QuietAt p (w.updItem q f) (w'.updItem q f) where
  stack a := by
    simp only [updItem_items]
    split_ifs
    · exact hf _ _ (h.stack q)
    · exact h.stack a
  goods := h.goods
  persona := h.persona
  nextItem := h.nextItem
  itemBase := h.itemBase
  playerPool := h.playerPool
  mapRegionSize := h.mapRegionSize
  other a ha := by
    simp only [updItem_items]
    split_ifs with haq
    · rw [h.other q (haq ▸ ha)]
    · exact h.other a ha

/-- A change of an inventory that depends on its goods only may be made before or after. -/
theorem comp_updInv (h : QuietAt p w w') (r : InvRef) {u : Inventory → Inventory}
    (hu : ∀ i j : Inventory, i.goods = j.goods → (u i).goods = (u j).goods) :
    QuietAt p (w.updInv r u) (w'.updInv r u) where
  stack := h.stack
  goods r' := by
    simp only [updInv_inv]
    split_ifs
    · exact hu _ _ (h.goods r)
    · exact h.goods r'
  persona k := by rw [updInv_persona, updInv_persona, h.persona]
  nextItem := h.nextItem
  itemBase := h.itemBase
  playerPool := h.playerPool
  mapRegionSize := h.mapRegionSize
  other := h.other

end QuietAt

/-! ## What the parts do -/

variable {w w' : World} {r : InvRef} {p q : ItemPtr} {cnt : Int}

@[simp] theorem carry_items (w : World) (r : InvRef) (p : ItemPtr) (d : ℚ) :
    (w.carry r p d).items = w.items := by
  unfold carry
  split_ifs <;> rfl

theorem carry_quietAt (q : ItemPtr) (w : World) (r : InvRef) (p : ItemPtr) (d : ℚ) :
    QuietAt q (w.updInv r (·.addWeight d)) (w.carry r p d) := by
  unfold carry
  split_ifs
  · refine ⟨⟨fun _ => rfl, fun r' => ?_, fun k => ?_, rfl, rfl, rfl, rfl⟩, fun _ _ => rfl⟩
    · simp only [updInv_inv]
      split_ifs <;> rfl
    · rw [updInv_persona, updInv_persona]
  · exact .refl q _

theorem takeOver_quietAt (hrun : w.takeOver r p = some w') : QuietAt p w w' := by
  have howner : ∀ uid acc, QuietAt p w (w.updItem p (·.setOwnerInfo r.owner uid acc)) :=
    fun uid acc => .updItem w p fun i => i.stack_setOwnerInfo _ uid acc
  unfold takeOver at hrun
  split at hrun
  · split_ifs at hrun
    · exact (howner _ _).trans (putonItem_quietAt hrun)
    · obtain rfl := Option.some.inj hrun
      exact howner _ _
  · obtain rfl := Option.some.inj hrun
    exact howner _ _

theorem identify_quietAt (w : World) (p : ItemPtr) : QuietAt p w (w.identify p) := by
  unfold identify
  split_ifs
  · exact .allocItemHandle w p
  · exact .refl p w

theorem onAdd_quietAt (hrun : w.onAdd r p = some w') : QuietAt p w w' := by
  obtain ⟨w₁, hw₁, rfl⟩ := Option.map_eq_some_iff.mp hrun
  exact ((takeOver_quietAt hw₁).trans (identify_quietAt w₁ p)).trans
    (updateWeightWithInventory_quietAt p _ _)

theorem unBindSkillCard_quietAt (w : World) (p : ItemPtr) : QuietAt p w (w.unBindSkillCard p) := by
  unfold unBindSkillCard
  split
  · exact .refl p w
  · split_ifs
    · exact .updItem w p fun i => i.stack_clearBindTarget
    · exact .refl p w

theorem onRemove_quietAt (w : World) (r : InvRef) (p : ItemPtr) : QuietAt p w (w.onRemove r p) := by
  refine QuietAt.trans ?_ (updateWeightWithInventory_quietAt p _ _)
  have howner : QuietAt p w (w.updItem p (·.setOwnerInfo 0 0 0)) :=
    .updItem w p fun i => i.stack_setOwnerInfo _ _ _
  unfold giveUp
  split_ifs
  · split
    · exact howner.trans (unBindSkillCard_quietAt _ p)
    · exact howner
  · exact .refl p w

theorem carry_setCount_quietAt (w : World) (r : InvRef) (p : ItemPtr) (n : Int) (d : ℚ) :
    QuietAt p (w.recount r p n d) ((w.carry r p d).setCount r p n) := by
  refine QuietAt.trans ?_ (updateWeightWithInventory_quietAt p _ _)
  refine (carry_quietAt p w r p d).comp_updItem p fun i j hij => ?_
  simp only [Item.stack, Item.setCount, Item.Stack.mk.injEq, Item.Lot.mk.injEq] at hij ⊢
  simp [hij]

theorem stack_setStorageIndex_congr {i j : Item} (h : i.stack = j.stack) (n : Nat) :
    (i.setStorageIndex n).stack = (j.setStorageIndex n).stack := by
  simp only [Item.stack, Item.setStorageIndex, Item.Stack.mk.injEq] at h ⊢
  simp [h]

theorem rawPush_quietAt {d : ℚ} (hrun : (w.carry r p d).rawPush r p = some w') :
    (w.items p).itemBase.isSome ∧ QuietAt p (w.attach r p d) w' := by
  obtain ⟨expires, hexp, hadd⟩ := Option.bind_eq_some_iff.mp hrun
  rw [carry_items, Item.isExpireItem_eq_some] at hexp
  obtain ⟨hbase, rfl⟩ := hexp
  have hcarry := carry_quietAt p w r p d
  have hlen : ((w.carry r p d).inv r).vList.length = (w.inv r).vList.length := by
    rw [hcarry.vList, updInv_inv_same]
    rfl
  rw [hlen] at hadd
  refine ⟨hbase, QuietAt.trans ?_ (onAdd_quietAt hadd)⟩
  exact (hcarry.comp_updInv r fun _ _ h => Inventory.goods_enter_congr h p _).comp_updItem p
    fun _ _ h => stack_setStorageIndex_congr h _

/-- The position an item believes it has. -/
abbrev position (w : World) (p : ItemPtr) : Nat := (w.items p).unInventoryIndex

/-- On a list that knows its positions the removal of the private `pop` is `swapRemove`. -/
theorem takeOut_eq {back : ItemPtr} (hpos : Lib.Indexed (w.inv r).vList w.position)
    (hback : (w.inv r).vList.getLast? = some back) :
    w.takeOut r p back = (w.moveBack r p).updInv r (·.leave p (w.position p)) := by
  unfold takeOut moveBack
  rw [hback]
  dsimp only
  split_ifs with hne
  · refine updInv_congr _ r ?_
    simp only [Inventory.leave, Lib.swapRemove, updItem_inv, hback]
  · refine updInv_congr _ r ?_
    obtain rfl : back = p := not_not.mp hne
    obtain ⟨l, hl⟩ := List.getLast?_eq_some_iff.mp hback
    have hlast : w.position back = l.length := hpos _ _ (by simp [hl])
    simp only [Inventory.leave, hl, hlast, Lib.swapRemove_concat_length, List.dropLast_concat]

theorem moveBack_of_getLast? {back : ItemPtr} (hback : (w.inv r).vList.getLast? = some back) :
    w.moveBack r p = if back ≠ p then w.updItem back (·.setStorageIndex (w.position p)) else w := by
  simp only [moveBack, hback, position]

theorem moveBack_quietAt (h : QuietAt p w w') : QuietAt p (w.moveBack r p) (w'.moveBack r p) := by
  have hidx : w'.position p = w.position p := congrArg Item.Stack.unInventoryIndex (h.stack p)
  unfold moveBack
  rw [h.vList r]
  split
  · exact h
  · split_ifs
    · rw [show (w'.items _).unInventoryIndex = _ from hidx]
      exact h.comp_updItem _ fun _ _ hij => stack_setStorageIndex_congr hij _
    · exact h

theorem rawPop_quietAt {d : ℚ} (hpos : Lib.Indexed (w.inv r).vList w.position)
    (hrun : (w.carry r p d).rawPop r p = some w') : QuietAt p (w.detach r p d) w' := by
  obtain ⟨back, hback, rfl⟩ := Option.map_eq_some_iff.mp hrun
  have hq : QuietAt p (w.updInv r (·.addWeight d)) ((w.carry r p d).onRemove r p) :=
    (carry_quietAt p w r p d).trans (onRemove_quietAt _ r p)
  have hidx : ∀ a, ((w.carry r p d).onRemove r p).position a = w.position a := fun a =>
    congrArg Item.Stack.unInventoryIndex (hq.stack a)
  have hlist : (((w.carry r p d).onRemove r p).inv r).vList = (w.inv r).vList := by
    rw [hq.vList, updInv_inv_same]
    rfl
  rw [takeOut_eq (by rw [hlist]; exact hpos.congr fun a _ => hidx a) hback, hidx p]
  exact (moveBack_quietAt hq).comp_updInv r fun _ _ h => Inventory.goods_leave_congr h p _

/-! ## What each operation can do -/

theorem joinTarget_eq_some {e : ItemPtr} (h : w.joinTarget r p = some e) :
    e ∈ (w.inv r).vList ∧ (w.items e).inst.Code = (w.items p).inst.Code := by
  unfold joinTarget at h
  split_ifs at h
  have hcode := List.find?_some h
  exact ⟨List.mem_of_find?_eq_some h, by simpa using hcode⟩

/-- `Push` appends the item or joins it to a stack of its code. -/
theorem push_eq_some (hrun : w.push r p cnt = some (q, w')) :
    (w.joinTarget r p = none ∧ q = p ∧ (w.items p).itemBase.isSome ∧
      QuietAt p (w.attach r p (w.items p).lot.weight) w') ∨
    (w.joinTarget r p = some q ∧ (w.items q).itemBase.isSome ∧
      Lib.IsInt64 ((w.items q).inst.nCount + cnt) ∧
      QuietAt q (w.recount r q ((w.items q).inst.nCount + cnt) (w.items q).lot.weight) w') := by
  unfold push at hrun
  split at hrun
  · rename_i hnone
    simp only [Option.bind_eq_bind, Option.bind_eq_some_iff, Option.pure_def, Option.some.injEq,
      Prod.mk.injEq, Item.getWeight_eq_some] at hrun
    obtain ⟨_, ⟨hbase, rfl⟩, w₁, hw₁, rfl, rfl⟩ := hrun
    exact .inl ⟨hnone, rfl, hbase, (rawPush_quietAt hw₁).2.trans (.updInv p w₁ r fun _ => rfl)⟩
  · rename_i e hjoin
    simp only [Option.bind_eq_bind, Option.bind_eq_some_iff, Option.pure_def, Option.some.injEq,
      Prod.mk.injEq, Item.getWeight_eq_some, Lib.add64_eq_some] at hrun
    obtain ⟨_, ⟨hbase, rfl⟩, _, ⟨hfit, rfl⟩, rfl, rfl⟩ := hrun
    exact .inr ⟨hjoin, hbase, hfit, carry_setCount_quietAt w r e _ _⟩

/-- `Pop` splits a stack, takes a whole stack out, or is asked for more than there is. -/
theorem pop_eq_some {o : Option ItemPtr} (hpos : Lib.Indexed (w.inv r).vList w.position)
    (hrun : w.pop r p cnt = some (o, w')) :
    w.check r p ∧
    ((cnt < (w.items p).inst.nCount ∧ o = some w.nextItem ∧ (w.items p).itemBase.isSome ∧
      QuietAt p ((w.divide p cnt).recount r p ((w.items p).inst.nCount - cnt) (-(w.items p).lot.weight)) w') ∨
    ((w.items p).inst.nCount = cnt ∧ o = some p ∧ (w.items p).itemBase.isSome ∧
      QuietAt p (w.detach r p (-(w.items p).lot.weight)) w') ∨
    ((w.items p).inst.nCount < cnt ∧ o = none ∧ w' = w)) := by
  unfold pop at hrun
  split_ifs at hrun with hcheck hlt heq
  · simp only [Option.bind_eq_bind, Option.bind_eq_some_iff, Option.pure_def, Option.some.injEq,
      Prod.mk.injEq, Item.getWeight_eq_some, Lib.add64_eq_some] at hrun
    obtain ⟨_, ⟨hbase, rfl⟩, _, ⟨hfit, rfl⟩, rfl, rfl⟩ := hrun
    exact ⟨hcheck, .inl ⟨hlt, rfl, hbase, carry_setCount_quietAt _ r p _ _⟩⟩
  · simp only [Option.bind_eq_bind, Option.bind_eq_some_iff, Option.pure_def, Option.some.injEq,
      Prod.mk.injEq, Item.getWeight_eq_some] at hrun
    obtain ⟨_, ⟨hbase, rfl⟩, w₁, hw₁, rfl, rfl⟩ := hrun
    exact ⟨hcheck, .inr (.inl ⟨heq, rfl, hbase, rawPop_quietAt hpos hw₁⟩)⟩
  · obtain ⟨rfl, rfl⟩ := Prod.mk.inj (Option.some.inj hrun)
    exact ⟨hcheck, .inr (.inr ⟨by omega, rfl, rfl⟩)⟩

/-- `Erase` lessens a stack or takes a whole stack out. -/
theorem erase_eq_some (hpos : Lib.Indexed (w.inv r).vList w.position)
    (hrun : w.erase r p cnt = some w') :
    w.check r p ∧ (w.items p).itemBase.isSome ∧
    ((cnt < (w.items p).inst.nCount ∧
      QuietAt p (w.recount r p ((w.items p).inst.nCount - cnt) (-(w.items p).lot.weight)) w') ∨
    ((w.items p).inst.nCount ≤ cnt ∧ QuietAt p (w.detach r p (-(w.items p).lot.weight)) w')) := by
  unfold erase at hrun
  split_ifs at hrun with hcheck hlt
  · simp only [Option.bind_eq_bind, Option.bind_eq_some_iff, Option.pure_def, Option.some.injEq,
      Item.getWeight_eq_some, Lib.add64_eq_some] at hrun
    obtain ⟨_, ⟨hbase, rfl⟩, _, ⟨hfit, rfl⟩, rfl⟩ := hrun
    exact ⟨hcheck, hbase, .inl ⟨hlt, carry_setCount_quietAt w r p _ _⟩⟩
  · simp only [Option.bind_eq_bind, Option.bind_eq_some_iff, Option.pure_def, Option.some.injEq,
      Item.getWeight_eq_some] at hrun
    obtain ⟨_, ⟨hbase, rfl⟩, w₁, hw₁, rfl⟩ := hrun
    exact ⟨hcheck, hbase, .inr ⟨by omega, (rawPop_quietAt hpos hw₁).trans
      (.updItem w₁ p fun i => i.stack_pendFreeItem)⟩⟩

/-! ## When an operation has a result -/

theorem takeOver_isSome (hbase : (w.items p).itemBase.isSome) : (w.takeOver r p).isSome := by
  unfold takeOver
  split
  · split_ifs with hride
    · exact putonItem_isSome (by decide) hride.2.2 (by simpa [Item.setOwnerInfo] using hbase)
    · rfl
  · rfl

theorem rawPush_isSome (hbase : (w.items p).itemBase.isSome) : (w.rawPush r p).isSome := by
  have hexp : (w.items p).isExpireItem = some (w.items p).lot.expires :=
    Item.isExpireItem_eq_some.mpr ⟨hbase, rfl⟩
  rw [rawPush, hexp, Option.bind_some, onAdd, Option.isSome_map]
  exact takeOver_isSome (by simpa [Item.setStorageIndex] using hbase)

theorem rawPop_isSome (hp : p ∈ (w.inv r).vList) : (w.rawPop r p).isSome := by
  rw [rawPop, Option.isSome_map, (onRemove_quietAt w r p).vList r,
    List.getLast?_eq_some_getLast (List.ne_nil_of_mem hp)]
  rfl

theorem carry_vList (w : World) (r : InvRef) (p : ItemPtr) (d : ℚ) :
    ((w.carry r p d).inv r).vList = (w.inv r).vList := by
  rw [(carry_quietAt p w r p d).vList, updInv_inv_same]
  rfl

/-- `Push` fails on an item without a template and when the joined count overflows, and nowhere
else. -/
theorem push_isSome (hbase : (w.items p).itemBase.isSome)
    (hjoin : ∀ e, w.joinTarget r p = some e →
      (w.items e).itemBase.isSome ∧ Lib.IsInt64 ((w.items e).inst.nCount + cnt)) :
    (w.push r p cnt).isSome := by
  unfold push
  split
  · have hweight := Item.getWeight_eq_some.mpr ⟨hbase, rfl⟩
    obtain ⟨w₁, hw₁⟩ := Option.isSome_iff_exists.mp
      (rawPush_isSome (w := w.carry r p (w.items p).lot.weight) (r := r) (by rwa [carry_items]))
    simp only [hweight, Option.bind_eq_bind, Option.bind_some, hw₁]
    rfl
  · rename_i e he
    obtain ⟨hb, hfit⟩ := hjoin e he
    have hweight := Item.getWeight_eq_some.mpr ⟨hb, rfl⟩
    simp only [hweight, Lib.add64_of_isInt64 hfit, Option.bind_eq_bind, Option.bind_some]
    rfl

/-- `Pop` has a result on every item that `check` accepts. -/
theorem pop_isSome (hcheck : w.check r p) (hbase : (w.items p).itemBase.isSome)
    (hfit : Lib.IsInt64 (w.items p).inst.nCount) (hcnt : 0 ≤ cnt) : (w.pop r p cnt).isSome := by
  have hweight := Item.getWeight_eq_some.mpr ⟨hbase, rfl⟩
  unfold pop
  rw [if_pos hcheck]
  split_ifs with hlt heq
  · have hsub : Lib.IsInt64 ((w.items p).inst.nCount + -cnt) := by
      unfold Lib.IsInt64 at *
      omega
    simp only [hweight, Lib.add64_of_isInt64 hsub, Option.bind_eq_bind, Option.bind_some]
    rfl
  · obtain ⟨w₁, hw₁⟩ := Option.isSome_iff_exists.mp
      (rawPop_isSome (w := w.carry r p (-(w.items p).lot.weight)) (r := r) (p := p)
        (by rw [carry_vList]; exact List.mem_of_getElem? hcheck))
    simp only [hweight, Option.bind_eq_bind, Option.bind_some, hw₁]
    rfl
  · rfl

/-- So has `Erase`. -/
theorem erase_isSome (hcheck : w.check r p) (hbase : (w.items p).itemBase.isSome)
    (hfit : Lib.IsInt64 (w.items p).inst.nCount) (hcnt : 0 ≤ cnt) : (w.erase r p cnt).isSome := by
  have hweight := Item.getWeight_eq_some.mpr ⟨hbase, rfl⟩
  unfold erase
  rw [if_pos hcheck]
  split_ifs with hlt
  · have hsub : Lib.IsInt64 ((w.items p).inst.nCount + -cnt) := by
      unfold Lib.IsInt64 at *
      omega
    simp only [hweight, Lib.add64_of_isInt64 hsub, Option.bind_eq_bind, Option.bind_some]
    rfl
  · obtain ⟨w₁, hw₁⟩ := Option.isSome_iff_exists.mp
      (rawPop_isSome (w := w.carry r p (-(w.items p).lot.weight)) (r := r) (p := p)
        (by rw [carry_vList]; exact List.mem_of_getElem? hcheck))
    simp only [hweight, Option.bind_eq_bind, Option.bind_some, hw₁]
    rfl

end World

end RZEmulator.Chihiro
