import RZEmulator.Chihiro.Inventory

/-!
# Players and their goods

The functions of `Player.cpp` that move gold and items between a player and somebody else: `ChangeGold`,
`PushItem`, `popItem` and, on top of them, `GiveItem`. The quest log that hears of every change of a
count is left out.
-/

namespace RZEmulator.Chihiro.World

/-- The player's own inventory. -/
abbrev bag (h : Handle) : InvRef := ⟨h, .inventory⟩

/-! ## Gold -/

def setGold (w : World) (h : Handle) (n : Int) : World :=
  w.updPlayer h fun p => { p with nGold := n }

/-- `Player::ChangeGold`. -/
def changeGold (w : World) (h : Handle) (n : Int) : ResultCode × World :=
  if n ≠ (w.players h).nGold then
    if n > MAX_GOLD_FOR_INVENTORY then (.tooMuchMoney, w)
    else if n < 0 then (.tooCheap, w)
    else (.success, w.setGold h n)
  else (.success, w)

/-! ## Items -/

def findItemByHandle (w : World) (h : Handle) (handle : Handle) : Option ItemPtr :=
  w.findByHandle (bag h) handle

/-- The item is one of the player's summon cards in a belt slot. -/
def isBoundSummonCard (w : World) (h : Handle) (p : ItemPtr) : Bool :=
  decide (∃ i, ∃ card ∈ (w.players h).aBindSummonCard i, (w.items card).handle = (w.items p).handle)

/-- `Player::IsErasable`; an item without a template is dereferenced. -/
def isErasable (w : World) (h : Handle) (p : ItemPtr) : Option Bool :=
  if ¬(w.items p).isInInventory then some false
  else if (w.items p).inst.OwnerHandle ≠ h then some false
  else if (w.items p).inst.nWearInfo ≠ ItemWearType.WEAR_NONE then some false
  else (w.items p).itemBase.map fun base =>
    if base.group = ItemGroup.GROUP_SKILLCARD ∧ (w.items p).hBindedTarget ≠ 0 then false
    else if base.group = ItemGroup.GROUP_SUMMONCARD ∧ w.isBoundSummonCard h p then false
    else !(w.items p).isInStorage

theorem isErasable_eq_true {w : World} {h : Handle} {p : ItemPtr} :
    w.isErasable h p = some true ↔ (w.items p).isInInventory = true ∧ (w.items p).inst.OwnerHandle = h ∧
      (w.items p).inst.nWearInfo = ItemWearType.WEAR_NONE ∧ (w.items p).isInStorage = false ∧
      ∃ base, (w.items p).itemBase = some base ∧
        ¬(base.group = ItemGroup.GROUP_SKILLCARD ∧ (w.items p).hBindedTarget ≠ 0) ∧
        ¬(base.group = ItemGroup.GROUP_SUMMONCARD ∧ w.isBoundSummonCard h p = true) := by
  unfold isErasable
  cases hbase : (w.items p).itemBase with
  | none =>
    simp only [Option.map_none]
    split_ifs <;> simp
  | some base =>
    simp only [Option.map_some, Option.some.injEq, exists_eq_left']
    by_cases hin : (w.items p).isInInventory = true
    · by_cases howner : (w.items p).inst.OwnerHandle = h
      · by_cases hwear : (w.items p).inst.nWearInfo = ItemWearType.WEAR_NONE
        · simp only [hin, howner, hwear, not_true_eq_false, if_false, ne_eq, true_and, Option.some.injEq]
          split_ifs <;> simp_all
        · simp [hin, howner, hwear]
      · simp [hin, howner]
    · simp [hin]

/-- `Player::IsTradable`. -/
def isTradable (w : World) (h : Handle) (p : ItemPtr) : Option Bool :=
  (w.isErasable h p).map fun erasable => erasable && (w.items p).isTradable

/-- The item gets the next index of the inventory, if it has none. -/
def assignIdx (w : World) (h : Handle) (p : ItemPtr) : World :=
  if (w.items p).inst.nIdx = 0 then
    (w.updInv (bag h) fun i => { i with nIndex := i.nIndex + 1 }).updItem p
      (·.setIdx ((w.inv (bag h)).nIndex + 1))
  else w

/-- `Player::PushItem`. An item of code `0` is an amount of gold. -/
def pushItem (w : World) (h : Handle) (p : ItemPtr) (cnt : Int) : Option (Option ItemPtr × World) :=
  if (w.items p).inst.nOwnerUID % 2 ^ 32 = (w.players h).uid then some (none, w)
  else if (w.items p).inst.Code = 0 then
    (Lib.add64 (w.players h).nGold (w.items p).inst.nCount).map fun gold =>
      (none, (w.changeGold h gold).2.updItem p (·.pendFreeItem))
  else ((w.assignIdx h p).push (bag h) p cnt).map fun (q, w) => (some q, w)

/-- `Player::popItem`. -/
def popItem (w : World) (h : Handle) (p : ItemPtr) (cnt : Int) : Option (Option ItemPtr × World) :=
  if (w.items p).inst.nCount ≥ cnt then w.pop (bag h) p cnt else some (none, w)

/-- The part of `GiveItem` that moves the item: an item is popped, and pushed to the target under a new
index. Where the target joined it to a stack of its own, the object is freed. -/
def handOver (w : World) (h target : Handle) (p : ItemPtr) (count : Int) : Option World :=
  (w.popItem h p count).bind fun (popped, w) =>
    popped.bind fun item =>
      ((w.updItem item (·.setIdx 0)).pushItem target item count).map fun (target_item, w) =>
        match target_item with
        | none => w
        | some q => if q ≠ item then w.updItem item (·.pendFreeItem) else w

/-- `Player::GiveItem`. -/
def giveItem (w : World) (h target : Handle) (handle : Handle) (count : Int) :
    Option (Bool × World) :=
  match w.findItemByHandle h handle with
  | none => some (false, w)
  | some p => (w.isTradable h p).bind fun tradable =>
    if ¬tradable ∨ count > (w.items p).inst.nCount then some (false, w)
    else (w.handOver h target p count).map fun w => (true, w)

end RZEmulator.Chihiro.World
