import Mathlib.Algebra.Order.Ring.Rat
import RZEmulator.Lib.MachineInt

/-!
# Items of the game server

`ItemTemplate`, `ItemInstance` and `Item` with the predicates and setters of `Item.cpp`. Weights are
exact rationals where the source has `float`. Handles are natural numbers; a null pointer is `none`
(or, for a handle, `0`). A predicate that dereferences `m_pItemBase` without a check has no result on
an item without a template, so it returns an `Option`.

Database writes and the flag `m_bIsNeedUpdateToDB` that schedules them, messages to the client and the
position of an item in the world are not modelled: no modelled function reads them back.
-/

namespace RZEmulator.Chihiro

/-- The index of an item object on the heap. -/
abbrev ItemPtr := Nat

abbrev Handle := Nat

/-- The entries of `ItemTemplate::flaglist` that are read. -/
inductive ItemFlag
  | duplicate
  | drop
  | trade
  | storage
  | quest
  | secroute
  deriving DecidableEq, Repr

namespace GenerateCode

def BY_QUEST : Int := 2
def BY_BASIC : Int := 6
def BY_DIVIDE : Int := 8
def BY_UNKNOWN : Int := 126

end GenerateCode

namespace ItemWearType

def WEAR_NONE : Int := -1
def WEAR_WEAPON : Nat := 0
def WEAR_SHIELD : Nat := 1
def WEAR_ARMULET : Nat := 8
def WEAR_DECO_WEAPON : Nat := 14
def WEAR_DECO_SHIELD : Nat := 15
def WEAR_RIDE_ITEM : Nat := 22

end ItemWearType

namespace ItemGroup

def GROUP_WEAPON : Int := 1
def GROUP_SKILLCARD : Int := 10
def GROUP_SUMMONCARD : Int := 13

end ItemGroup

def ITEM_FLAG_TAMING : Int := 0x20000000

def MAX_SPARE_ITEM_WEAR : Nat := 28

def MAX_GOLD_FOR_INVENTORY : Int := 100000000000

def MAX_GOLD_FOR_STORAGE : Int := 100000000000

structure ItemTemplate where
  level : Int := 1
  enhance : Int := 0
  group : Int := 0
  wearType : Int := ItemWearType.WEAR_NONE
  statusFlag : Int := 0
  endurance : Int := 0
  weight : ℚ := 0
  decreaseType : Int := 0
  skillId : Int := 0
  flaglist : ItemFlag → Int := fun _ => 0

structure ItemInstance where
  OwnerHandle : Handle := 0
  UID : Int := 0
  Code : Int := 0
  nIdx : Int := 0
  nLevel : Int := 0
  nEnhance : Int := 0
  nCurrentEndurance : Int := 0
  nOwnerUID : Int := 0
  nCount : Int := 0
  tExpire : Int := 0
  Flag : Int := 0
  GenerateInfo : Int := GenerateCode.BY_UNKNOWN
  nWearInfo : Int := ItemWearType.WEAR_NONE
  Socket : Fin 4 → Int := fun _ => 0

structure Item where
  inst : ItemInstance := {}
  itemBase : Option ItemTemplate := none
  handle : Handle := 0
  nAccountID : Int := 0
  hBindedTarget : Handle := 0
  unInventoryIndex : Nat := 0
  /-- `m_pSummon` is not null. -/
  hasSummon : Bool := false
  deleteRequested : Bool := false

namespace Item

/-! ## Setters -/

def setCount (i : Item) (count : Int) : Item :=
  { i with inst := { i.inst with nCount := count } }

def setLevel (i : Item) (level : Int) : Item :=
  { i with inst := { i.inst with nLevel := level } }

def setIdx (i : Item) (idx : Int) : Item :=
  { i with inst := { i.inst with nIdx := idx } }

def setStorageIndex (i : Item) (idx : Nat) : Item :=
  { i with unInventoryIndex := idx }

def setWearInfo (i : Item) (wearInfo : Int) : Item :=
  { i with inst := { i.inst with nWearInfo := wearInfo } }

def setBindedCreatureHandle (i : Item) (target : Handle) : Item :=
  { i with hBindedTarget := target }

/-- `SetBindTarget(nullptr)`. -/
def clearBindTarget (i : Item) : Item :=
  { i with
    inst := { i.inst with Socket := fun k => if k = 0 ∨ k = 1 then 0 else i.inst.Socket k }
    hBindedTarget := 0 }

def setOwnerInfo (i : Item) (handle : Handle) (uid accountId : Int) : Item :=
  { i with inst := { i.inst with OwnerHandle := handle, nOwnerUID := uid }, nAccountID := accountId }

/-- `AllocItemHandle` on the item's side: a new handle and, where it has none, a unique id. -/
def assignHandle (i : Item) (handle : Handle) (uid : Int) : Item :=
  { i with
    handle := handle
    inst := { i.inst with UID := if i.inst.UID = 0 then uid else i.inst.UID } }

/-- `PendFreeItem` and `DeleteThis` only request the deletion. -/
def pendFreeItem (i : Item) : Item :=
  { i with deleteRequested := true }

/-- `CopyFrom`: the instance is copied except for the owner handle; the new owner is the copy's own
old `UID`, converted to 32 bits. -/
def copyFrom (i src : Item) : Item :=
  { i with
    inst := { src.inst with
      UID := 0
      nOwnerUID := Lib.narrow32 i.inst.UID
      OwnerHandle := i.inst.OwnerHandle } }

/-! ## Predicates -/

def isJoinable (i : Item) : Bool :=
  match i.itemBase with
  | none => false
  | some base => base.flaglist .duplicate != 0

def getWeight (i : Item) : Option ℚ :=
  i.itemBase.map fun base => base.weight * i.inst.nCount

def isExpireItem (i : Item) : Option Bool :=
  i.itemBase.map fun base => base.decreaseType == 1 || base.decreaseType == 2

def getItemGroup (i : Item) : Int :=
  match i.itemBase with
  | none => 0
  | some base => base.group

def isSkillCard (i : Item) : Bool :=
  i.getItemGroup == ItemGroup.GROUP_SKILLCARD

def getWearType (i : Item) : Int :=
  match i.itemBase with
  | none => ItemWearType.WEAR_NONE
  | some base => base.wearType

def isTradable (i : Item) : Bool :=
  match i.itemBase with
  | none => false
  | some base => base.flaglist .trade == 0

def isDropable (i : Item) : Bool :=
  match i.itemBase with
  | none => false
  | some base => base.flaglist .drop == 0

def isQuestItem (i : Item) : Bool :=
  match i.itemBase with
  | none => false
  | some base => base.flaglist .quest != 0

/-- `(m_Instance.Flag & ITEM_FLAG_TAMING) != 0`. -/
def isTaming (i : Item) : Bool := i.inst.Flag / ITEM_FLAG_TAMING % 2 == 1

def isInInventory (i : Item) : Bool :=
  i.nAccountID == 0 && i.inst.nOwnerUID != 0

def isInStorage (i : Item) : Bool :=
  i.nAccountID != 0 && i.inst.nOwnerUID == 0 && i.inst.Code != 0

/-- The fields `AllocItem` fills, on a new object with the given handle and template. The template's
defaults stand in for a level, enhancement or flag of `-1`. -/
def alloc (handle : Handle) (base : Option ItemTemplate) (uid code cnt info : Int) : Item :=
  match base with
  | none => { handle := handle, itemBase := none, inst := { UID := uid, Code := code, nCount := cnt } }
  | some b =>
    { handle := handle
      itemBase := some b
      inst := {
        UID := uid
        Code := code
        nCount := cnt
        nLevel := if b.level ≤ 0 then 1 else b.level
        GenerateInfo := info
        nCurrentEndurance := b.endurance
        nEnhance := if b.group = 10 ∧ b.enhance = 0 then 1 else b.enhance
        Flag := b.statusFlag } }

/-! ## Lots and stacks -/

/-- What an item is a quantity of. -/
structure Lot where
  itemBase : Option ItemTemplate
  Code : Int
  nCount : Int

def Lot.withCount (l : Lot) (n : Int) : Lot := { l with nCount := n }

/-- The part of an item that the books of an inventory are about: the lot and its position. -/
structure Stack extends Lot where
  unInventoryIndex : Nat

def stack (i : Item) : Stack := ⟨⟨i.itemBase, i.inst.Code, i.inst.nCount⟩, i.unInventoryIndex⟩

def lot (i : Item) : Lot := i.stack.toLot

variable (i : Item)

@[simp] theorem stack_setLevel (level : Int) : (i.setLevel level).stack = i.stack := rfl
@[simp] theorem stack_setIdx (idx : Int) : (i.setIdx idx).stack = i.stack := rfl
@[simp] theorem stack_setWearInfo (n : Int) : (i.setWearInfo n).stack = i.stack := rfl
@[simp] theorem stack_setBindedCreatureHandle (h : Handle) :
    (i.setBindedCreatureHandle h).stack = i.stack := rfl
@[simp] theorem stack_clearBindTarget : i.clearBindTarget.stack = i.stack := rfl
@[simp] theorem stack_setOwnerInfo (h : Handle) (uid acc : Int) :
    (i.setOwnerInfo h uid acc).stack = i.stack := rfl
@[simp] theorem stack_assignHandle (h : Handle) (uid : Int) :
    (i.assignHandle h uid).stack = i.stack := rfl
@[simp] theorem stack_pendFreeItem : i.pendFreeItem.stack = i.stack := rfl
@[simp] theorem lot_setCount (n : Int) : (i.setCount n).lot = i.lot.withCount n := rfl
@[simp] theorem lot_setStorageIndex (n : Nat) : (i.setStorageIndex n).lot = i.lot := rfl
@[simp] theorem lot_itemBase : i.lot.itemBase = i.itemBase := rfl
@[simp] theorem lot_Code : i.lot.Code = i.inst.Code := rfl
@[simp] theorem lot_nCount : i.lot.nCount = i.inst.nCount := rfl

theorem lot_alloc (handle : Handle) (base : Option ItemTemplate) (uid code cnt info : Int) :
    (alloc handle base uid code cnt info).lot = ⟨base, code, cnt⟩ := by
  cases base <;> rfl

/-! ## The measures of a lot -/

namespace Lot

/-- The weight of one unit. -/
def unitWeight (l : Lot) : ℚ :=
  match l.itemBase with
  | none => 0
  | some base => base.weight

def weight (l : Lot) : ℚ := l.unitWeight * l.nCount

/-- The number of units of an item code. -/
def units (code : Int) (l : Lot) : Int := if l.Code = code then l.nCount else 0

def expires (l : Lot) : Bool :=
  match l.itemBase with
  | none => false
  | some base => base.decreaseType == 1 || base.decreaseType == 2

theorem weight_withCount (l : Lot) (n : Int) : (l.withCount n).weight = l.unitWeight * n := rfl

end Lot

theorem weight_lot : i.lot.weight = i.lot.unitWeight * i.inst.nCount := rfl

theorem units_lot (code : Int) :
    i.lot.units code = if i.inst.Code = code then i.inst.nCount else 0 := rfl

theorem units_withCount (code n : Int) :
    (i.lot.withCount n).units code = if i.inst.Code = code then n else 0 := rfl

variable {i}

theorem getWeight_eq_some {q : ℚ} : i.getWeight = some q ↔ i.itemBase.isSome ∧ q = i.lot.weight := by
  unfold getWeight Lot.weight Lot.unitWeight
  cases hb : i.itemBase with
  | none => simp [hb]
  | some base => simp [hb, eq_comm]

theorem isExpireItem_eq_some {b : Bool} :
    i.isExpireItem = some b ↔ i.itemBase.isSome ∧ b = i.lot.expires := by
  unfold isExpireItem Lot.expires
  cases hb : i.itemBase with
  | none => simp [hb]
  | some base => simp [hb, eq_comm]

end Item

end RZEmulator.Chihiro
