import Mathlib.Tactic.LinearCombination
import RZEmulator.Chihiro.Stock
import RZEmulator.Lib.Run

/-!
# Runs of one inventory

The operations of an inventory as events, in any order and mixed with wearing and taking off items.
`change_of_step` sums up what an event can do: nothing to the goods, an attach, a detach or a recount,
in the last case possibly next to a divided item. From it follow the two books of an inventory:

* **the representation and the units are exact** (`inventory_represented`): whatever the run, the list,
  the positions and the expire list agree, and the units of every item code are those pushed less those
  popped and erased;
* **the carried weight is not**: `m_fWeight` moves by the weight of the whole stack where a stack is
  joined, split or partly erased. `fWeight_step_iff` says exactly when a step is right, and
  `fWeight_eq_total` that a run of such steps is.
-/

namespace RZEmulator.Chihiro

inductive InventoryEvent
  | push (item : ItemPtr) (cnt : Int)
  | pop (item : ItemPtr) (cnt : Int)
  | erase (item : ItemPtr) (cnt : Int)
  | puton (pos : Nat) (item : ItemPtr)
  | putoff (pos : Nat)

namespace World

open Lib

def inventoryStep (r : InvRef) (w : World) : InventoryEvent → Option World
  | .push p cnt => (w.push r p cnt).map (·.2)
  | .pop p cnt => (w.pop r p cnt).map (·.2)
  | .erase p cnt => w.erase r p cnt
  | .puton pos p => w.putonItem r.owner pos p
  | .putoff pos => (w.putoffItem r.owner pos).map (·.2)

/-- What a caller owes: a pushed item is on the heap, not in the list yet, and pushed with its own
count; a popped or erased item passes `check` and has the units asked for. -/
def Admissible (r : InvRef) (w : World) : InventoryEvent → Prop
  | .push p cnt => p < w.nextItem ∧ p ∉ (w.inv r).vList ∧ 1 ≤ cnt ∧ cnt = (w.items p).inst.nCount
  | .pop p cnt => w.check r p ∧ 1 ≤ cnt ∧ cnt ≤ (w.items p).inst.nCount
  | .erase p cnt => w.check r p ∧ 1 ≤ cnt ∧ cnt ≤ (w.items p).inst.nCount
  | .puton _ _ => True
  | .putoff _ => True

instance (r : InvRef) (w : World) : (e : InventoryEvent) → Decidable (Admissible r w e)
  | .push p cnt => inferInstanceAs (Decidable (p < w.nextItem ∧ p ∉ (w.inv r).vList ∧ 1 ≤ cnt ∧
      cnt = (w.items p).inst.nCount))
  | .pop p cnt => inferInstanceAs (Decidable (w.check r p ∧ 1 ≤ cnt ∧ cnt ≤ (w.items p).inst.nCount))
  | .erase p cnt =>
    inferInstanceAs (Decidable (w.check r p ∧ 1 ≤ cnt ∧ cnt ≤ (w.items p).inst.nCount))
  | .puton _ _ => inferInstanceAs (Decidable True)
  | .putoff _ => inferInstanceAs (Decidable True)

/-- The inventory `r` starts without items; the rest of the world is arbitrary. -/
def EmptyInventory (r : InvRef) (w : World) : Prop :=
  (w.inv r).vList = [] ∧ (w.inv r).vExpireItemList = [] ∧ (w.inv r).fWeight = 0

def inventorySystem (r : InvRef) : System World InventoryEvent :=
  .ofFun (EmptyInventory r) (inventoryStep r)

/-! ## What an event can do -/

/-- The change that an admissible event makes to an inventory: the lots it takes in and gives out, and
the weight it books for that. -/
inductive Change (r : InvRef) (w : World) : InventoryEvent → World → Prop
  | none {e : InventoryEvent} {w' : World} (hevent : ∀ p cnt, e ≠ .push p cnt ∧ e ≠ .pop p cnt ∧ e ≠ .erase p cnt)
      (hq : Quiet w w') : Change r w e w'
  | attach {p : ItemPtr} {w' : World} (hjoin : w.joinTarget r p = none)
      (hbase : (w.items p).itemBase.isSome)
      (hq : Quiet (w.attach r p (w.items p).lot.weight) w') :
      Change r w (.push p (w.items p).inst.nCount) w'
  | join {p e : ItemPtr} {cnt : Int} {w' : World} (hjoin : w.joinTarget r p = some e)
      (hq : Quiet (w.recount r e ((w.items e).inst.nCount + cnt) (w.items e).lot.weight) w') :
      Change r w (.push p cnt) w'
  | split {p : ItemPtr} {cnt : Int} {w' : World} (hlt : cnt < (w.items p).inst.nCount)
      (hq : Quiet ((w.divide p cnt).recount r p ((w.items p).inst.nCount - cnt)
        (-(w.items p).lot.weight)) w') :
      Change r w (.pop p cnt) w'
  | lessen {p : ItemPtr} {cnt : Int} {w' : World} (hlt : cnt < (w.items p).inst.nCount)
      (hq : Quiet (w.recount r p ((w.items p).inst.nCount - cnt) (-(w.items p).lot.weight)) w') :
      Change r w (.erase p cnt) w'
  | detach {p : ItemPtr} {e : InventoryEvent} {w' : World}
      (hevent : e = .pop p (w.items p).inst.nCount ∨ e = .erase p (w.items p).inst.nCount)
      (hq : Quiet (w.detach r p (-(w.items p).lot.weight)) w') :
      Change r w e w'

variable {r : InvRef} {w w' : World} {e : InventoryEvent}

theorem change_of_step (hst : Stocked w r) (hadm : Admissible r w e)
    (hstep : inventoryStep r w e = some w') : Change r w e w' := by
  cases e with
  | push p cnt =>
    obtain ⟨-, -, -, rfl⟩ := hadm
    obtain ⟨⟨q, w₁⟩, hpush, rfl⟩ := Option.map_eq_some_iff.mp hstep
    rcases push_eq_some hpush with ⟨hnone, -, hbase, hq⟩ | ⟨hjoin, -, -, hq⟩
    · exact .attach hnone hbase hq.toQuiet
    · exact .join hjoin hq.toQuiet
  | pop p cnt =>
    obtain ⟨-, -, hle⟩ := hadm
    obtain ⟨⟨o, w₁⟩, hpop, rfl⟩ := Option.map_eq_some_iff.mp hstep
    rcases (pop_eq_some hst.position hpop).2 with ⟨hlt, -, -, hq⟩ | ⟨heq, -, -, hq⟩ | ⟨hgt, -, -⟩
    · exact .split hlt hq.toQuiet
    · exact .detach (.inl (by rw [heq])) hq.toQuiet
    · omega
  | erase p cnt =>
    obtain ⟨-, -, hle⟩ := hadm
    rcases (erase_eq_some hst.position hstep).2.2 with ⟨hlt, hq⟩ | ⟨hge, hq⟩
    · exact .lessen hlt hq.toQuiet
    · obtain rfl : cnt = (w.items p).inst.nCount := by omega
      exact .detach (.inr rfl) hq.toQuiet
  | puton pos p => exact .none (by simp) (putonItem_quiet hstep)
  | putoff pos =>
    obtain ⟨⟨code, w₁⟩, hoff, rfl⟩ := Option.map_eq_some_iff.mp hstep
    exact .none (by simp) (putoffItem_quiet hoff)

/-! ## The representation -/

theorem Admissible.mem (hadm : Admissible r w e) {p : ItemPtr} {cnt : Int}
    (he : e = .pop p cnt ∨ e = .erase p cnt) : p ∈ (w.inv r).vList := by
  rcases he with rfl | rfl
  · exact hadm.1.mem
  · exact hadm.1.mem

theorem Change.stocked (hst : Stocked w r) (hadm : Admissible r w e) (hc : Change r w e w') :
    Stocked w' r := by
  cases hc with
  | none _ hq => exact hst.quiet hq
  | attach _ hbase hq => exact (hst.attach hadm.2.1 hadm.1 hbase _).quiet hq
  | join _ hq => exact (hst.recount r _ _ _).quiet hq
  | split _ hq => exact ((hst.divide _ _).recount r _ _ _).quiet hq
  | lessen _ hq => exact (hst.recount r _ _ _).quiet hq
  | detach he hq =>
    exact (hst.detach (hadm.mem (he.imp (fun h => h) fun h => h)) _).quiet hq

theorem stocked_of_empty (h : EmptyInventory r w) : Stocked w r := by
  obtain ⟨hlist, hexp, -⟩ := h
  exact
    { position := by rw [hlist]; intro i a ha; simp at ha
      expire := by rw [hlist, hexp]; rfl
      based := by simp [hlist]
      heap := by simp [hlist] }

theorem stocked_of_run {C : History World InventoryEvent → World → InventoryEvent → Prop}
    (hC : ∀ h w e, C h w e → Admissible r w e) {h : History World InventoryEvent}
    (hrun : (inventorySystem r).RunWhere C h w) : Stocked w r :=
  hrun.invariant (fun _ => stocked_of_empty) fun _ _ _ _ _ hst hc hstep =>
    (change_of_step hst (hC _ _ _ hc) hstep).stocked hst (hC _ _ _ hc)

/-! ## Units -/

/-- The units of `code` that a transition pushed. -/
def pushedUnits (code : Int) (t : Transition World InventoryEvent) : Int :=
  match t.event with
  | .push p cnt => if (t.before.items p).inst.Code = code then cnt else 0
  | _ => 0

/-- The units of `code` that a transition popped or erased. -/
def removedUnits (code : Int) (t : Transition World InventoryEvent) : Int :=
  match t.event with
  | .pop p cnt => if (t.before.items p).inst.Code = code then cnt else 0
  | .erase p cnt => if (t.before.items p).inst.Code = code then cnt else 0
  | _ => 0

theorem Change.units (hst : Stocked w r) (hadm : Admissible r w e) (hc : Change r w e w') (code : Int) :
    total (Item.Lot.units code) w' r + removedUnits code ⟨w, e, w'⟩ =
      total (Item.Lot.units code) w r + pushedUnits code ⟨w, e, w'⟩ := by
  cases hc with
  | none hevent hq =>
    rw [total_quiet _ hq]
    cases e with
    | push p cnt => exact absurd rfl (hevent p cnt).1
    | pop p cnt => exact absurd rfl (hevent p cnt).2.1
    | erase p cnt => exact absurd rfl (hevent p cnt).2.2
    | puton _ _ => rfl
    | putoff _ => rfl
  | attach _ _ hq =>
    rw [total_quiet _ hq, total_attach]
    simp only [pushedUnits, removedUnits, add_zero, Item.units_lot]
  | @join p e cnt _ hjoin hq =>
    obtain ⟨hmem, hcode⟩ := joinTarget_eq_some hjoin
    have hbook := total_recount (Item.Lot.units code) hst hmem
      ((w.items e).inst.nCount + cnt) (w.items e).lot.weight
    rw [total_quiet _ hq]
    rw [Item.units_withCount, Item.units_lot, hcode] at hbook
    simp only [pushedUnits, removedUnits]
    split_ifs at hbook ⊢ <;> omega
  | @split p cnt _ hlt hq =>
    have hmem := hadm.mem (.inl rfl)
    have hbook := total_recount (Item.Lot.units code) (hst.divide p cnt) hmem
      ((w.items p).inst.nCount - cnt) (-(w.items p).lot.weight)
    rw [total_quiet _ hq]
    rw [total_divide _ hst, divide_items_of_ne w p cnt (hst.heap p hmem).ne] at hbook
    rw [Item.units_withCount, Item.units_lot] at hbook
    simp only [pushedUnits, removedUnits]
    split_ifs at hbook ⊢ <;> omega
  | @lessen p cnt _ hlt hq =>
    have hbook := total_recount (Item.Lot.units code) hst (hadm.mem (.inr rfl))
      ((w.items p).inst.nCount - cnt) (-(w.items p).lot.weight)
    rw [total_quiet _ hq]
    rw [Item.units_withCount, Item.units_lot] at hbook
    simp only [pushedUnits, removedUnits]
    split_ifs at hbook ⊢ <;> omega
  | @detach p _ _ hevent hq =>
    have hbook := total_detach (Item.Lot.units code) hst (hadm.mem hevent) (-(w.items p).lot.weight)
    rw [total_quiet _ hq]
    rw [Item.units_lot] at hbook
    rcases hevent with rfl | rfl
    all_goals
      simp only [pushedUnits, removedUnits]
      split_ifs at hbook ⊢ <;> omega

/-- A player with nothing, and on the heap two stacks of one stackable item that weighs 1: the even
addresses hold one unit, the odd ones two. -/
def looseStacks : World where
  items p :=
    { inst := { Code := 7, nCount := if p % 2 = 0 then 1 else 2, UID := 1 + p }
      itemBase := some { weight := 1, flaglist := fun f => if f = .duplicate then 1 else 0 }
      handle := 1 + p }
  nextItem := 4
  itemPool h := if h = 0 then none else some (h - 1)
  nItemTop := 5
  nItemIndex := 5
  itemBase _ := some { weight := 1, flaglist := fun f => if f = .duplicate then 1 else 0 }
  players _ := { uid := 9, loginComplete := true }
  playerPool _ := false
  unitHasSkill _ _ := false
  mapRegionSize := 180

/-- An admissible operation has a result, unless the pushed item has no template or the units of a
joined stack do not fit. -/
theorem inventoryStep_isSome (hst : Stocked w r) (hadm : Admissible r w e)
    (hpush : ∀ p cnt, e = .push p cnt → (w.items p).itemBase.isSome ∧
      ∀ q, w.joinTarget r p = some q → IsInt64 ((w.items q).inst.nCount + cnt))
    (hpop : ∀ p cnt, e = .pop p cnt ∨ e = .erase p cnt → IsInt64 (w.items p).inst.nCount)
    (hworn : ∀ pos p, e ≠ .puton pos p ∧ e ≠ .putoff pos) : (inventoryStep r w e).isSome := by
  cases e with
  | push p cnt =>
    obtain ⟨hbase, hfit⟩ := hpush p cnt rfl
    rw [inventoryStep, Option.isSome_map]
    exact push_isSome hbase fun q hq => ⟨hst.based q (joinTarget_eq_some hq).1, hfit q hq⟩
  | pop p cnt =>
    rw [inventoryStep, Option.isSome_map]
    exact pop_isSome hadm.1 (hst.based p hadm.1.mem) (hpop p cnt (.inl rfl)) (by have := hadm.2.1; omega)
  | erase p cnt =>
    exact erase_isSome hadm.1 (hst.based p hadm.1.mem) (hpop p cnt (.inr rfl)) (by have := hadm.2.1; omega)
  | puton pos p => exact absurd rfl (hworn pos p).1
  | putoff pos => exact absurd rfl (hworn pos 0).2

/-! ## Weight -/

/-- The booked weight is the weight that moves: a joined stack has as many units as join it, a popped
or erased stack goes whole, or the item weighs nothing. -/
def WeightExact (r : InvRef) (w : World) : InventoryEvent → Prop
  | .push p cnt => ∀ q ∈ w.joinTarget r p,
      (w.items q).inst.nCount = cnt ∨ (w.items q).lot.unitWeight = 0
  | .pop p cnt => (w.items p).inst.nCount = cnt ∨ (w.items p).lot.unitWeight = 0
  | .erase p cnt => (w.items p).inst.nCount = cnt ∨ (w.items p).lot.unitWeight = 0
  | .puton _ _ => True
  | .putoff _ => True

instance (r : InvRef) (w : World) : (e : InventoryEvent) → Decidable (WeightExact r w e)
  | .push p cnt => inferInstanceAs (Decidable (∀ q ∈ w.joinTarget r p,
      (w.items q).inst.nCount = cnt ∨ (w.items q).lot.unitWeight = 0))
  | .pop p cnt => inferInstanceAs (Decidable ((w.items p).inst.nCount = cnt ∨ _ = _))
  | .erase p cnt => inferInstanceAs (Decidable ((w.items p).inst.nCount = cnt ∨ _ = _))
  | .puton _ _ => inferInstanceAs (Decidable True)
  | .putoff _ => inferInstanceAs (Decidable True)

/-- The one equation that all three partial changes come down to. -/
theorem unitWeight_mul_eq_iff (u : ℚ) (n cnt : Int) : u * n = u * cnt ↔ n = cnt ∨ u = 0 := by
  rw [mul_eq_mul_left_iff, Int.cast_inj]

theorem fWeight_step_iff (hst : Stocked w r) (hadm : Admissible r w e)
    (hstep : inventoryStep r w e = some w')
    (hbefore : (w.inv r).fWeight = total Item.Lot.weight w r) :
    (w'.inv r).fWeight = total Item.Lot.weight w' r ↔ WeightExact r w e := by
  cases change_of_step hst hadm hstep with
  | none hevent hq =>
    rw [total_quiet _ hq, hq.fWeight]
    cases e with
    | push p cnt => exact absurd rfl (hevent p cnt).1
    | pop p cnt => exact absurd rfl (hevent p cnt).2.1
    | erase p cnt => exact absurd rfl (hevent p cnt).2.2
    | puton _ _ => exact iff_of_true hbefore trivial
    | putoff _ => exact iff_of_true hbefore trivial
  | @attach p _ hjoin _ hq =>
    rw [total_quiet _ hq, hq.fWeight, total_attach, attach_fWeight, hbefore]
    refine iff_of_true rfl fun q hq => ?_
    rw [hjoin] at hq
    cases hq
  | @join p e cnt _ hjoin hq =>
    have hbook := total_recount Item.Lot.weight hst (joinTarget_eq_some hjoin).1
      ((w.items e).inst.nCount + cnt) (w.items e).lot.weight
    rw [total_quiet _ hq, hq.fWeight, recount_fWeight, hbefore]
    have hiff : WeightExact r w (.push p cnt) ↔
        (w.items e).inst.nCount = cnt ∨ (w.items e).lot.unitWeight = 0 := by
      simp only [WeightExact, hjoin, Option.mem_some_iff, forall_eq']
    rw [hiff, ← unitWeight_mul_eq_iff]
    rw [Item.Lot.weight_withCount] at hbook
    simp only [Item.weight_lot, Int.cast_add] at hbook ⊢
    constructor
    · intro heq; linear_combination heq + hbook
    · intro heq; linear_combination heq - hbook
  | @split p cnt _ hlt hq =>
    have hmem := hadm.mem (.inl rfl)
    have hbook := total_recount Item.Lot.weight (hst.divide p cnt) hmem
      ((w.items p).inst.nCount - cnt) (-(w.items p).lot.weight)
    rw [total_divide _ hst, divide_items_of_ne w p cnt (hst.heap p hmem).ne] at hbook
    rw [total_quiet _ hq, hq.fWeight, recount_fWeight, divide_inv, hbefore]
    refine Iff.trans ?_ (unitWeight_mul_eq_iff _ _ _)
    rw [Item.Lot.weight_withCount] at hbook
    simp only [Item.weight_lot, Int.cast_sub] at hbook ⊢
    constructor
    · intro heq; linear_combination -heq - hbook
    · intro heq; linear_combination -heq - hbook
  | @lessen p cnt _ hlt hq =>
    have hbook := total_recount Item.Lot.weight hst (hadm.mem (.inr rfl))
      ((w.items p).inst.nCount - cnt) (-(w.items p).lot.weight)
    rw [total_quiet _ hq, hq.fWeight, recount_fWeight, hbefore]
    refine Iff.trans ?_ (unitWeight_mul_eq_iff _ _ _)
    rw [Item.Lot.weight_withCount] at hbook
    simp only [Item.weight_lot, Int.cast_sub] at hbook ⊢
    constructor
    · intro heq; linear_combination -heq - hbook
    · intro heq; linear_combination -heq - hbook
  | @detach p _ _ hevent hq =>
    have hbook := total_detach Item.Lot.weight hst (hadm.mem hevent) (-(w.items p).lot.weight)
    rw [total_quiet _ hq, hq.fWeight, detach_fWeight, hbefore, ← hbook]
    refine iff_of_true (add_neg_cancel_comm _ _) ?_
    rcases hevent with rfl | rfl
    · exact .inl rfl
    · exact .inl rfl

end World

end RZEmulator.Chihiro
