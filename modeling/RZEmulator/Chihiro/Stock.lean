import Mathlib.Algebra.BigOperators.Group.List.Basic
import Mathlib.Tactic.Abel
import RZEmulator.Chihiro.Inventory

/-!
# The books of an inventory

`Stocked w r` says that the representation of the inventory `r` is in order: every element knows its
position, the expire list holds the elements that expire, and every element has a template.
`total f w r` adds up a measure of lots over the inventory; its carried weight and its units of an item
code are two such totals. Both are followed through the three changes an operation can make, for any
measure at once.
-/

namespace RZEmulator.Chihiro.World

/-- The representation of an inventory is in order. -/
structure Stocked (w : World) (r : InvRef) : Prop where
  position : Lib.Indexed (w.inv r).vList w.position
  expire : (w.inv r).vExpireItemList.Perm ((w.inv r).vList.filter fun p => (w.items p).lot.expires)
  based : ∀ p ∈ (w.inv r).vList, (w.items p).itemBase.isSome
  heap : ∀ p ∈ (w.inv r).vList, p < w.nextItem

/-- A measure of lots, added up over an inventory. -/
def total {M : Type*} [AddCommMonoid M] (f : Item.Lot → M) (w : World) (r : InvRef) : M :=
  ((w.inv r).vList.map fun p => f (w.items p).lot).sum

variable {w w' : World} {r r' : InvRef} {p : ItemPtr} {n : Int} {d : ℚ}

namespace Stocked

theorem nodup (h : Stocked w r) : (w.inv r).vList.Nodup := h.position.nodup

theorem check (h : Stocked w r) (hp : p ∈ (w.inv r).vList) : w.check r p := h.position.getElem? hp

/-- Only the list, the expire list and the stacks on the list matter. -/
theorem congr (h : Stocked w r) (hlist : (w'.inv r).vList = (w.inv r).vList)
    (hexp : (w'.inv r).vExpireItemList = (w.inv r).vExpireItemList)
    (hstack : ∀ a ∈ (w.inv r).vList, (w'.items a).stack = (w.items a).stack)
    (hnext : w.nextItem ≤ w'.nextItem) : Stocked w' r where
  position := by
    rw [hlist]
    exact h.position.congr fun a ha => congrArg Item.Stack.unInventoryIndex (hstack a ha)
  expire := by
    have hlot : ∀ a ∈ (w.inv r).vList, (w'.items a).lot.expires = (w.items a).lot.expires :=
      fun a ha => congrArg (Item.Lot.expires ·.toLot) (hstack a ha)
    rw [hlist, hexp, List.filter_congr hlot]
    exact h.expire
  based a ha := by
    rw [hlist] at ha
    rw [← Item.lot_itemBase, Item.lot, hstack a ha]
    exact h.based a ha
  heap a ha := by
    rw [hlist] at ha
    exact (h.heap a ha).trans_le hnext

theorem quiet (h : Stocked w r) (hq : Quiet w w') : Stocked w' r :=
  h.congr (hq.vList r) (hq.vExpireItemList r) (fun a _ => hq.stack a) hq.nextItem.ge

end Stocked

theorem check.mem (h : w.check r p) : p ∈ (w.inv r).vList := List.mem_of_getElem? h

theorem Quiet.lot (hq : Quiet w w') (a : ItemPtr) : (w'.items a).lot = (w.items a).lot :=
  congrArg Item.Stack.toLot (hq.stack a)

theorem Quiet.base (hq : Quiet w w') (a : ItemPtr) : (w'.items a).itemBase = (w.items a).itemBase := by
  rw [← Item.lot_itemBase, hq.lot, Item.lot_itemBase]

section Total

variable {M : Type*} [AddCommMonoid M] (f : Item.Lot → M)

theorem total_congr (hlist : (w'.inv r).vList = (w.inv r).vList)
    (hlot : ∀ a ∈ (w.inv r).vList, (w'.items a).lot = (w.items a).lot) :
    total f w' r = total f w r := by
  unfold total
  rw [hlist, List.map_congr_left fun a ha => by rw [hlot a ha]]

theorem total_quiet (hq : Quiet w w') : total f w' r = total f w r :=
  total_congr f (hq.vList r) fun a _ => hq.lot a

end Total

/-! ## Entering -/

section Attach

@[simp] theorem attach_vList (w : World) (r : InvRef) (p : ItemPtr) (d : ℚ) :
    ((w.attach r p d).inv r).vList = (w.inv r).vList ++ [p] := by
  simp [attach, Inventory.enter, Inventory.addWeight]

@[simp] theorem attach_fWeight (w : World) (r : InvRef) (p : ItemPtr) (d : ℚ) :
    ((w.attach r p d).inv r).fWeight = (w.inv r).fWeight + d := by
  simp [attach, Inventory.enter, Inventory.addWeight]

@[simp] theorem attach_lot (w : World) (r : InvRef) (p : ItemPtr) (d : ℚ) (a : ItemPtr) :
    ((w.attach r p d).items a).lot = (w.items a).lot := by
  simp only [attach, updItem_items, updInv_items]
  split_ifs with ha
  · rw [ha, Item.lot_setStorageIndex]
  · rfl

theorem attach_items_of_ne (w : World) (r : InvRef) (d : ℚ) {a : ItemPtr} (ha : a ≠ p) :
    (w.attach r p d).items a = w.items a := updItem_items_of_ne _ _ _ ha

@[simp] theorem attach_position (w : World) (r : InvRef) (p : ItemPtr) (d : ℚ) :
    (w.attach r p d).position p = (w.inv r).vList.length := by
  simp [position, attach, Item.setStorageIndex]

theorem attach_inv_of_ne (w : World) (p : ItemPtr) (d : ℚ) (hr : r' ≠ r) :
    (w.attach r p d).inv r' = w.inv r' := by
  simp [attach, updInv_inv_of_ne _ _ _ hr]

theorem Stocked.attach (h : Stocked w r) (hp : p ∉ (w.inv r).vList) (hheap : p < w.nextItem)
    (hbase : (w.items p).itemBase.isSome) (d : ℚ) : Stocked (w.attach r p d) r where
  position := by
    rw [attach_vList]
    refine h.position.concat (fun b hb => ?_) (attach_position w r p d)
    have hne : b ≠ p := fun he => hp (he ▸ hb)
    simp only [World.position, attach_items_of_ne w r d hne]
  expire := by
    have hexp : ((w.attach r p d).inv r).vExpireItemList =
        if (w.items p).lot.expires then (w.inv r).vExpireItemList ++ [p]
        else (w.inv r).vExpireItemList := by
      simp [World.attach, Inventory.enter, Inventory.addWeight]
    rw [hexp, attach_vList, List.filter_append]
    simp only [attach_lot]
    split_ifs with hx
    · simpa [hx] using h.expire.append_right [p]
    · simpa [hx] using h.expire
  based a ha := by
    rw [← Item.lot_itemBase, attach_lot]
    rw [attach_vList, List.mem_append, List.mem_singleton] at ha
    rcases ha with ha | rfl
    · exact h.based a ha
    · exact hbase
  heap a ha := by
    rw [attach_vList, List.mem_append, List.mem_singleton] at ha
    rcases ha with ha | rfl
    · exact h.heap a ha
    · exact hheap

theorem total_attach {M : Type*} [AddCommMonoid M] (f : Item.Lot → M) (w : World) (r : InvRef)
    (p : ItemPtr) (d : ℚ) : total f (w.attach r p d) r = total f w r + f (w.items p).lot := by
  simp [total]

end Attach

/-! ## Leaving -/

section Detach

@[simp] theorem moveBack_inv (w : World) (r : InvRef) (p : ItemPtr) :
    (w.moveBack r p).inv = w.inv := by
  unfold moveBack
  split
  · rfl
  · split_ifs <;> rfl

@[simp] theorem moveBack_lot (w : World) (r : InvRef) (p a : ItemPtr) :
    ((w.moveBack r p).items a).lot = (w.items a).lot := by
  unfold moveBack
  split
  · rfl
  · split_ifs
    · rw [updItem_items]
      split_ifs with ha
      · rw [ha, Item.lot_setStorageIndex]
      · rfl
    · rfl

@[simp] theorem detach_vList (w : World) (r : InvRef) (p : ItemPtr) (d : ℚ) :
    ((w.detach r p d).inv r).vList = Lib.swapRemove (w.inv r).vList (w.position p) := by
  simp [detach, Inventory.leave, Inventory.addWeight]

@[simp] theorem detach_fWeight (w : World) (r : InvRef) (p : ItemPtr) (d : ℚ) :
    ((w.detach r p d).inv r).fWeight = (w.inv r).fWeight + d := by
  simp [detach, Inventory.leave, Inventory.addWeight]

@[simp] theorem detach_lot (w : World) (r : InvRef) (p : ItemPtr) (d : ℚ) (a : ItemPtr) :
    ((w.detach r p d).items a).lot = (w.items a).lot := by
  simp [detach]

theorem detach_inv_of_ne (w : World) (p : ItemPtr) (d : ℚ) (hr : r' ≠ r) :
    (w.detach r p d).inv r' = w.inv r' := by
  simp [detach, updInv_inv_of_ne _ _ _ hr]

/-- Outside the inventory nothing is moved. -/
theorem detach_items_of_notMem (w : World) (r : InvRef) (p : ItemPtr) (d : ℚ) {a : ItemPtr}
    (ha : a ∉ (w.inv r).vList) : (w.detach r p d).items a = w.items a := by
  simp only [detach, updInv_items, moveBack]
  split
  · rfl
  · rename_i back hback
    split_ifs
    · refine updItem_items_of_ne _ _ _ fun he => ha ?_
      simp only [updInv_inv_same, Inventory.addWeight] at hback
      exact he ▸ List.mem_of_getLast? hback
    · rfl

theorem Stocked.detach (h : Stocked w r) (hp : p ∈ (w.inv r).vList) (d : ℚ) :
    Stocked (w.detach r p d) r where
  position := by
    obtain ⟨back, hback⟩ : ∃ back, (w.inv r).vList.getLast? = some back :=
      ⟨_, List.getLast?_eq_some_getLast (List.ne_nil_of_mem hp)⟩
    have hback' : ((w.updInv r (·.addWeight d)).inv r).vList.getLast? = some back := by
      rw [updInv_inv_same]
      exact hback
    rw [detach_vList]
    refine h.position.swapRemove hp hback (fun hne => ?_) fun b _ hb _ => ?_
    · rw [World.position, World.detach, updInv_items, moveBack_of_getLast? hback', if_pos hne,
        updItem_items_same]
      rfl
    · rw [World.position, World.detach, updInv_items, moveBack_of_getLast? hback']
      split_ifs
      · rw [updItem_items_of_ne _ _ _ hb, updInv_items]
      · rfl
  expire := by
    have hexp : ((w.detach r p d).inv r).vExpireItemList = (w.inv r).vExpireItemList.erase p := by
      simp [World.detach, Inventory.leave, Inventory.addWeight]
    simp only [hexp, detach_vList, detach_lot]
    have hperm := (Lib.cons_swapRemove_perm (h.position.getElem? hp)).filter
      fun a => (w.items a).lot.expires
    have hcons := (h.expire.trans hperm.symm).erase p
    rw [List.filter_cons] at hcons
    split_ifs at hcons with hx
    · simpa using hcons
    · -- an item that does not expire is not on the expire list
      refine hcons.trans (List.Perm.of_eq (List.erase_of_not_mem fun hmem => hx ?_))
      simpa using (List.mem_filter.mp hmem).2
  based a ha := by
    rw [← Item.lot_itemBase, detach_lot]
    rw [detach_vList, h.position.mem_swapRemove hp] at ha
    exact h.based a ha.1
  heap a ha := by
    rw [detach_vList, h.position.mem_swapRemove hp] at ha
    have hnext : (w.detach r p d).nextItem = w.nextItem := by
      simp only [World.detach, updInv_nextItem, moveBack]
      split
      · rfl
      · split_ifs <;> rfl
    exact hnext ▸ h.heap a ha.1

theorem total_detach {M : Type*} [AddCommMonoid M] (f : Item.Lot → M) (h : Stocked w r)
    (hp : p ∈ (w.inv r).vList) (d : ℚ) :
    f (w.items p).lot + total f (w.detach r p d) r = total f w r := by
  have hperm := (Lib.cons_swapRemove_perm (h.position.getElem? hp)).map fun a => f (w.items a).lot
  have hsum := hperm.sum_eq
  rw [List.map_cons, List.sum_cons] at hsum
  simpa [total] using hsum

end Detach

/-! ## Counting anew -/

section Recount

@[simp] theorem recount_vList (w : World) (r r' : InvRef) (p : ItemPtr) (n : Int) (d : ℚ) :
    ((w.recount r p n d).inv r').vList = (w.inv r').vList := by
  simp only [recount, updItem_inv, updInv_inv]
  split_ifs with hr
  · rw [hr]; rfl
  · rfl

@[simp] theorem recount_fWeight (w : World) (r : InvRef) (p : ItemPtr) (n : Int) (d : ℚ) :
    ((w.recount r p n d).inv r).fWeight = (w.inv r).fWeight + d := by
  simp [recount, Inventory.addWeight]

@[simp] theorem recount_vExpireItemList (w : World) (r r' : InvRef) (p : ItemPtr) (n : Int) (d : ℚ) :
    ((w.recount r p n d).inv r').vExpireItemList = (w.inv r').vExpireItemList := by
  simp only [recount, updItem_inv, updInv_inv]
  split_ifs with hr
  · rw [hr]; rfl
  · rfl

theorem recount_items (w : World) (r : InvRef) (p : ItemPtr) (n : Int) (d : ℚ) (a : ItemPtr) :
    (w.recount r p n d).items a = if a = p then (w.items p).setCount n else w.items a := rfl

/-- A count does not decide whether an item expires, nor where it is. -/
theorem Stocked.recount (h : Stocked w r) (r' : InvRef) (p : ItemPtr) (n : Int) (d : ℚ) :
    Stocked (w.recount r' p n d) r where
  position := by
    rw [recount_vList]
    refine h.position.congr fun a _ => ?_
    simp only [World.position, recount_items]
    split_ifs with ha
    · rw [ha]; rfl
    · rfl
  expire := by
    rw [recount_vList, recount_vExpireItemList, List.filter_congr fun a _ => ?_]
    · exact h.expire
    · rw [recount_items]
      split_ifs with ha
      · rw [ha]; rfl
      · rfl
  based a ha := by
    rw [recount_vList] at ha
    rw [recount_items]
    split_ifs with hap
    · exact h.based p (hap ▸ ha)
    · exact h.based a ha
  heap a ha := h.heap a (by rwa [recount_vList] at ha)

theorem total_recount {M : Type*} [AddCommMonoid M] (f : Item.Lot → M) (h : Stocked w r)
    (hp : p ∈ (w.inv r).vList) (n : Int) (d : ℚ) :
    f (w.items p).lot + total f (w.recount r p n d) r =
      total f w r + f ((w.items p).lot.withCount n) := by
  have hperm := Lib.cons_swapRemove_perm (h.position.getElem? hp)
  have hnotin : ∀ a ∈ Lib.swapRemove (w.inv r).vList (w.position p), a ≠ p := fun a ha =>
    ((h.position.mem_swapRemove hp).mp ha).2
  have hrest : (Lib.swapRemove (w.inv r).vList (w.position p)).map
      (fun a => f ((w.recount r p n d).items a).lot) =
      (Lib.swapRemove (w.inv r).vList (w.position p)).map fun a => f (w.items a).lot :=
    List.map_congr_left fun a ha => by rw [recount_items, if_neg (hnotin a ha)]
  have hbefore := (hperm.map fun a => f (w.items a).lot).sum_eq
  have hafter := (hperm.map fun a => f ((w.recount r p n d).items a).lot).sum_eq
  rw [List.map_cons, List.sum_cons] at hbefore hafter
  rw [hrest, recount_items, if_pos rfl, Item.lot_setCount] at hafter
  unfold total
  rw [recount_vList, ← hbefore, ← hafter]
  abel

end Recount

/-! ## Splitting -/

section Divide

@[simp] theorem divide_inv (w : World) (p : ItemPtr) (cnt : Int) : (w.divide p cnt).inv = w.inv := rfl

theorem divide_items_of_ne (w : World) (p : ItemPtr) (cnt : Int) {a : ItemPtr} (ha : a ≠ w.nextItem) :
    (w.divide p cnt).items a = w.items a := by
  simp [divide, updItem_items_of_ne _ _ _ ha, allocItem, ha]

theorem Stocked.divide (h : Stocked w r) (p : ItemPtr) (cnt : Int) : Stocked (w.divide p cnt) r :=
  h.congr rfl rfl (fun a ha => by rw [divide_items_of_ne w p cnt (h.heap a ha).ne])
    (Nat.le_succ _)

theorem total_divide {M : Type*} [AddCommMonoid M] (f : Item.Lot → M) (h : Stocked w r) (p : ItemPtr)
    (cnt : Int) : total f (w.divide p cnt) r = total f w r :=
  total_congr f rfl fun a ha => by rw [divide_items_of_ne w p cnt (h.heap a ha).ne]

end Divide

end RZEmulator.Chihiro.World
