import RZEmulator.Chihiro.World

/-!
# Wearing and taking off items

`Unit::putonItem` and `Unit::putoffItem` with the player's versions of them. Wearing an item takes its
weight out of the carried weight through `m_fWeightModifier`; taking it off puts it back. Both leave
every stack and every inventory's list and `m_fWeight` alone (`putonItem_quiet`, `putoffItem_quiet`),
which is why the books of an inventory can be kept without following what its owner wears.
-/

namespace RZEmulator.Chihiro

/-- The result codes that the modelled functions return. -/
inductive ResultCode
  | success
  | notExist
  | notActable
  | accessDenied
  | tooMuchMoney
  | tooCheap
  | limitTarget
  | alreadyExist
  deriving DecidableEq, Repr

namespace Player

def setWear (p : Player) (pos : Nat) (item : Option ItemPtr) : Player :=
  { p with anWear := fun k => if k = pos then item else p.anWear k }

end Player

namespace Inventory

def addWeight (i : Inventory) (d : ℚ) : Inventory := { i with fWeight := i.fWeight + d }

def addWeightModifier (i : Inventory) (d : ℚ) : Inventory :=
  { i with fWeightModifier := i.fWeightModifier + d }

@[simp] theorem goods_addWeightModifier (i : Inventory) (d : ℚ) :
    (i.addWeightModifier d).goods = i.goods := rfl

@[simp] theorem goods_addWeight (i : Inventory) (d : ℚ) :
    (i.addWeight d).goods = { i.goods with fWeight := i.fWeight + d } := rfl

end Inventory

namespace World

def updateWeightWithInventory (w : World) (h : Handle) : World :=
  w.updPlayer h fun p => { p with nWeight := p.inventory.fWeightModifier + p.inventory.fWeight }

theorem updateWeightWithInventory_quietAt (p : ItemPtr) (w : World) (h : Handle) :
    QuietAt p w (w.updateWeightWithInventory h) :=
  .updPlayer p w h (fun _ k => by cases k <;> rfl) fun _ => rfl

/-! ## Putting on -/

/-- `Unit::putonItem`, with its two assertions. -/
def unitPutonItem (w : World) (h : Handle) (pos : Nat) (item : ItemPtr) : Option World :=
  if pos < MAX_SPARE_ITEM_WEAR ∧ (w.players h).anWear pos = none then
    some ((w.updPlayer h (·.setWear pos (some item))).updItem item fun i =>
      (i.setWearInfo pos).setBindedCreatureHandle h)
  else none

/-- `Player::putonItem`. The slot holds the item once the unit has put it on, so the weight always
moves to the modifier. -/
def putonItem (w : World) (h : Handle) (pos : Nat) (item : ItemPtr) : Option World := do
  let base ← (w.items item).itemBase
  let w := if pos = ItemWearType.WEAR_SHIELD ∧ base.group = ItemGroup.GROUP_WEAPON then
      w.updPlayer h fun p => { p with bUsingDoubleWeapon := true }
    else w
  let w ← w.unitPutonItem h pos item
  let weight ← (w.items item).getWeight
  let w := w.updInv ⟨h, .inventory⟩ (·.addWeightModifier (-weight))
  return w.updateWeightWithInventory h

/-! ## Taking off -/

/-- `Unit::putoffItem`; an empty slot is dereferenced. -/
def unitPutoffItem (w : World) (h : Handle) (pos : Nat) : Option World :=
  if pos < MAX_SPARE_ITEM_WEAR then
    ((w.players h).anWear pos).map fun item =>
      (w.updItem item fun i => (i.setWearInfo ItemWearType.WEAR_NONE).clearBindTarget).updPlayer h
        (·.setWear pos none)
  else none

/-- `Player::putoffItem` below its `switch`; `item` is what the slot held on entry. -/
def putoffSlot (w : World) (h : Handle) (pos : Nat) (item : ItemPtr) : Option World := do
  let w ← w.unitPutoffItem h pos
  let weight ← (w.items item).getWeight
  let w := w.updInv ⟨h, .inventory⟩ (·.addWeightModifier weight)
  return w.updateWeightWithInventory h

/-- `putoffItem(WEAR_DECO_SHIELD)`, which no other slot depends on. -/
def putoffDecoShield (w : World) (h : Handle) : Option World :=
  match (w.players h).anWear ItemWearType.WEAR_DECO_SHIELD with
  | none => some w
  | some item => w.putoffSlot h ItemWearType.WEAR_DECO_SHIELD item

/-- A second weapon in the shield slot ends the double-weapon stance when it comes off. -/
def leaveDoubleWeapon (w : World) (h : Handle) (base : ItemTemplate) : World :=
  if base.group = 1 then w.updPlayer h fun p => { p with bUsingDoubleWeapon := false } else w

/-- `putoffItem(WEAR_SHIELD)`; the decoration over the shield comes off first. -/
def putoffShield (w : World) (h : Handle) : Option World :=
  match (w.players h).anWear ItemWearType.WEAR_SHIELD with
  | none => some w
  | some item => do
    let base ← (w.items item).itemBase
    let w ← (w.leaveDoubleWeapon h base).putoffDecoShield h
    w.putoffSlot h ItemWearType.WEAR_SHIELD item

/-- The `switch` of `Player::putoffItem`: what has to come off before the slot. -/
def putoffDependents (w : World) (h : Handle) (pos : Nat) (item : ItemPtr) : Option World :=
  if pos = ItemWearType.WEAR_SHIELD then do
    let base ← (w.items item).itemBase
    (w.leaveDoubleWeapon h base).putoffDecoShield h
  else if pos = ItemWearType.WEAR_WEAPON then
    (if (w.players h).bUsingDoubleWeapon then w.putoffShield h else some w).bind
      (·.putoffDecoShield h)
  else if pos = ItemWearType.WEAR_DECO_WEAPON ∧ (w.players h).bUsingDoubleWeapon then
    w.putoffDecoShield h
  else some w

/-- `Player::putoffItem`. -/
def putoffItem (w : World) (h : Handle) (pos : Nat) : Option (ResultCode × World) :=
  match (w.players h).anWear pos with
  | none => some (.notExist, w)
  | some item =>
    if pos = ItemWearType.WEAR_ARMULET ∧ (w.players h).nChaos ≠ 0 then some (.accessDenied, w)
    else do
      let w ← w.putoffDependents h pos item
      let w ← w.putoffSlot h pos item
      return (.success, w)

/-! ## Neither moves goods -/

variable {w w' : World} {h : Handle} {pos : Nat} {item : ItemPtr}

theorem addWeightModifier_quietAt (p : ItemPtr) (w : World) (r : InvRef) (d : ℚ) :
    QuietAt p w (w.updInv r (·.addWeightModifier d)) :=
  .updInv p w r fun i => i.goods_addWeightModifier d

theorem unitPutonItem_quietAt (hrun : w.unitPutonItem h pos item = some w') : QuietAt item w w' := by
  unfold unitPutonItem at hrun
  split_ifs at hrun
  obtain rfl := Option.some.inj hrun
  refine QuietAt.trans ?_ (QuietAt.updItem _ item fun _ => rfl)
  exact .updPlayer item w h (fun _ k => by cases k <;> rfl) fun _ => rfl

theorem putonItem_quietAt (hrun : w.putonItem h pos item = some w') : QuietAt item w w' := by
  simp only [putonItem, Option.bind_eq_bind, Option.bind_eq_some_iff, Option.pure_def,
    Option.some.injEq] at hrun
  obtain ⟨base, -, w₁, hw₁, weight, -, rfl⟩ := hrun
  refine QuietAt.trans ?_ (updateWeightWithInventory_quietAt item _ _)
  refine QuietAt.trans ?_ (addWeightModifier_quietAt item w₁ _ _)
  refine QuietAt.trans ?_ (unitPutonItem_quietAt hw₁)
  split_ifs
  · exact .updPlayer item w h (fun _ k => by cases k <;> rfl) fun _ => rfl
  · exact .refl item w

theorem putonItem_quiet (hrun : w.putonItem h pos item = some w') : Quiet w w' :=
  (putonItem_quietAt hrun).toQuiet

theorem unitPutoffItem_quiet (hrun : w.unitPutoffItem h pos = some w') : Quiet w w' := by
  unfold unitPutoffItem at hrun
  split_ifs at hrun
  obtain ⟨worn, -, rfl⟩ := Option.map_eq_some_iff.mp hrun
  refine Quiet.trans ?_ (Quiet.updPlayer _ h (fun _ k => by cases k <;> rfl) fun _ => rfl)
  exact .updItem w worn fun _ => rfl

theorem putoffSlot_quiet (hrun : w.putoffSlot h pos item = some w') : Quiet w w' := by
  simp only [putoffSlot, Option.bind_eq_bind, Option.bind_eq_some_iff, Option.pure_def,
    Option.some.injEq] at hrun
  obtain ⟨w₁, hw₁, weight, -, rfl⟩ := hrun
  exact (unitPutoffItem_quiet hw₁).trans ((addWeightModifier_quietAt item _ _ _).trans
    (updateWeightWithInventory_quietAt item _ _)).toQuiet

theorem putoffDecoShield_quiet (hrun : w.putoffDecoShield h = some w') : Quiet w w' := by
  unfold putoffDecoShield at hrun
  split at hrun
  · obtain rfl := Option.some.inj hrun
    exact .refl w
  · exact putoffSlot_quiet hrun

theorem leaveDoubleWeapon_quiet (w : World) (h : Handle) (base : ItemTemplate) :
    Quiet w (w.leaveDoubleWeapon h base) := by
  unfold leaveDoubleWeapon
  split_ifs
  · exact .updPlayer w h (fun _ k => by cases k <;> rfl) fun _ => rfl
  · exact .refl w

theorem putoffShield_quiet (hrun : w.putoffShield h = some w') : Quiet w w' := by
  unfold putoffShield at hrun
  split at hrun
  · obtain rfl := Option.some.inj hrun
    exact .refl w
  · simp only [Option.bind_eq_bind, Option.bind_eq_some_iff] at hrun
    obtain ⟨base, -, w₁, hw₁, hw'⟩ := hrun
    exact ((leaveDoubleWeapon_quiet w h base).trans (putoffDecoShield_quiet hw₁)).trans
      (putoffSlot_quiet hw')

theorem putoffDependents_quiet (hrun : w.putoffDependents h pos item = some w') : Quiet w w' := by
  unfold putoffDependents at hrun
  split_ifs at hrun with hshield hweapon hdeco
  · simp only [Option.bind_eq_bind, Option.bind_eq_some_iff] at hrun
    obtain ⟨base, -, hw'⟩ := hrun
    exact (leaveDoubleWeapon_quiet w h base).trans (putoffDecoShield_quiet hw')
  · obtain ⟨w₁, hw₁, hw'⟩ := Option.bind_eq_some_iff.mp hrun
    exact (putoffShield_quiet hw₁).trans (putoffDecoShield_quiet hw')
  · exact putoffDecoShield_quiet hrun
  · exact putoffDecoShield_quiet hrun
  · obtain rfl := Option.some.inj hrun
    exact .refl w

theorem putoffItem_quiet {code : ResultCode} (hrun : w.putoffItem h pos = some (code, w')) :
    Quiet w w' := by
  unfold putoffItem at hrun
  split at hrun
  · obtain ⟨-, rfl⟩ := Prod.mk.inj (Option.some.inj hrun)
    exact .refl w
  split_ifs at hrun
  · obtain ⟨-, rfl⟩ := Prod.mk.inj (Option.some.inj hrun)
    exact .refl w
  · simp only [Option.bind_eq_bind, Option.bind_eq_some_iff, Option.pure_def, Option.some.injEq,
      Prod.mk.injEq] at hrun
    obtain ⟨w₁, hw₁, w₂, hw₂, -, rfl⟩ := hrun
    exact (putoffDependents_quiet hw₁).trans (putoffSlot_quiet hw₂)

/-- An item with a template goes into any free slot. -/
theorem putonItem_isSome (hpos : pos < MAX_SPARE_ITEM_WEAR) (hslot : (w.players h).anWear pos = none)
    (hbase : (w.items item).itemBase.isSome) : (w.putonItem h pos item).isSome := by
  obtain ⟨base, hb⟩ := Option.isSome_iff_exists.mp hbase
  have hfree : ∀ v : World, v.items = w.items → (v.players h).anWear pos = none →
      ∃ v', v.unitPutonItem h pos item = some v' ∧ ((v'.items item).getWeight).isSome := by
    intro v hitems hv
    refine ⟨_, if_pos ⟨hpos, hv⟩, ?_⟩
    simp [Item.getWeight, Item.setWearInfo, Item.setBindedCreatureHandle, hitems, hb]
  simp only [putonItem, hb, Option.bind_eq_bind, Option.bind_some]
  split_ifs with hshield
  · obtain ⟨v', hv', hweight⟩ := hfree (w.updPlayer h fun p => { p with bUsingDoubleWeapon := true })
      rfl (by rw [updPlayer_players_same]; exact hslot)
    obtain ⟨weight, hw⟩ := Option.isSome_iff_exists.mp hweight
    simp only [hv', Option.bind_some, hw]
    rfl
  · obtain ⟨v', hv', hweight⟩ := hfree w rfl hslot
    obtain ⟨weight, hw⟩ := Option.isSome_iff_exists.mp hweight
    simp only [hv', Option.bind_some, hw]
    rfl

end World

end RZEmulator.Chihiro
