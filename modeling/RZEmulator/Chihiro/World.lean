import RZEmulator.Chihiro.Item

/-!
# Players, inventories and the item pool

The state the item code works on: the heap of items, the pool that finds an item by its handle, and
the players with their two inventories. Items and players are updated in place in the source, so every
operation takes a `World` and returns one. It runs in `Option`: `none` stands for a run that has no
defined continuation, because an `ASSERT` failed, a null pointer was dereferenced or a signed addition
overflowed.

A heap address is never reused and an item is never taken out of the pool: `DeleteThis` marks it only.
Summons and charms, whose lists no modelled function reads, are left out.
-/

namespace RZEmulator.Chihiro

structure Inventory where
  fWeight : ℚ := 0
  fWeightModifier : ℚ := 0
  vList : List ItemPtr := []
  vExpireItemList : List ItemPtr := []
  nIndex : Int := 0

/-- The trade fields of a player, which `ClearTradeInfo` resets together. The table stands for an
`unordered_map` from item handles to counts; its order is the order in which a loop visits it. -/
structure TradeInfo where
  bTrading : Bool := false
  bTradeFreezed : Bool := false
  bTradeAccepted : Bool := false
  hTradeTarget : Handle := 0
  nTradeGold : Int := 0
  vTradeItemList : List (Handle × Int) := []
  deriving DecidableEq

structure Player where
  uid : Int := 0
  accountId : Int := 0
  loginComplete : Bool := false
  inWorld : Bool := false
  bIsMoving : Bool := false
  bIsUsingStorage : Bool := false
  /-- `m_castingSkill` is not null. -/
  isCasting : Bool := false
  /-- What `IsActable` answers. -/
  isActable : Bool := true
  hTamingTarget : Handle := 0
  hBattleTarget : Handle := 0
  x : ℚ := 0
  y : ℚ := 0
  nMaxWeight : ℚ := 0
  nChaos : Int := 0
  nGold : Int := 0
  nStorageGold : Int := 0
  trade : TradeInfo := {}
  aBindSummonCard : Fin 6 → Option ItemPtr := fun _ => none
  /-- What the quest log answers to `IsTakeableQuestItem`. -/
  isTakeableQuestItem : Int → Bool := fun _ => false
  bUsingDoubleWeapon : Bool := false
  anWear : Nat → Option ItemPtr := fun _ => none
  nWeight : ℚ := 0
  inventory : Inventory := {}
  storage : Inventory := {}

inductive InventoryKind
  | inventory
  | storage
  deriving DecidableEq, Repr

/-- An inventory, named by its event receiver and which of the receiver's two inventories it is. -/
structure InvRef where
  owner : Handle
  kind : InventoryKind
  deriving DecidableEq, Repr

structure World where
  items : ItemPtr → Item
  nextItem : ItemPtr
  itemPool : Handle → Option ItemPtr
  nItemTop : Handle
  nItemIndex : Int
  itemBase : Int → Option ItemTemplate
  players : Handle → Player
  playerPool : Handle → Bool
  /-- `GetObjectInWorld<Unit>` finds a unit for the handle and the unit has the skill. -/
  unitHasSkill : Handle → Int → Bool
  mapRegionSize : ℚ

/-! ## Access and update -/

namespace Player

def inv (p : Player) : InventoryKind → Inventory
  | .inventory => p.inventory
  | .storage => p.storage

def setInv (p : Player) (i : Inventory) : InventoryKind → Player
  | .inventory => { p with inventory := i }
  | .storage => { p with storage := i }

/-- The part of a player that moving items about does not touch. -/
structure Persona where
  uid : Int
  accountId : Int
  loginComplete : Bool
  inWorld : Bool
  bIsMoving : Bool
  bIsUsingStorage : Bool
  isCasting : Bool
  isActable : Bool
  hTamingTarget : Handle
  hBattleTarget : Handle
  x : ℚ
  y : ℚ
  nMaxWeight : ℚ
  nChaos : Int
  nGold : Int
  nStorageGold : Int
  trade : TradeInfo
  aBindSummonCard : Fin 6 → Option ItemPtr
  isTakeableQuestItem : Int → Bool

def persona (p : Player) : Persona :=
  ⟨p.uid, p.accountId, p.loginComplete, p.inWorld, p.bIsMoving, p.bIsUsingStorage, p.isCasting,
    p.isActable, p.hTamingTarget, p.hBattleTarget, p.x, p.y, p.nMaxWeight, p.nChaos, p.nGold, p.nStorageGold,
    p.trade, p.aBindSummonCard, p.isTakeableQuestItem⟩

@[simp] theorem persona_setInv (p : Player) (i : Inventory) (k : InventoryKind) :
    (p.setInv i k).persona = p.persona := by cases k <;> rfl

@[simp] theorem anWear_setInv (p : Player) (i : Inventory) (k : InventoryKind) :
    (p.setInv i k).anWear = p.anWear := by cases k <;> rfl

theorem inv_setInv (p : Player) (i : Inventory) (k k' : InventoryKind) :
    (p.setInv i k).inv k' = if k' = k then i else p.inv k' := by
  cases k <;> cases k' <;> rfl

end Player

namespace Inventory

/-- What `Push`, `Pop` and `Erase` keep about the items in an inventory. -/
structure Goods where
  vList : List ItemPtr
  vExpireItemList : List ItemPtr
  fWeight : ℚ

def goods (i : Inventory) : Goods := ⟨i.vList, i.vExpireItemList, i.fWeight⟩

end Inventory

namespace World

def updItem (w : World) (p : ItemPtr) (f : Item → Item) : World :=
  { w with items := fun q => if q = p then f (w.items p) else w.items q }

def updPlayer (w : World) (h : Handle) (f : Player → Player) : World :=
  { w with players := fun k => if k = h then f (w.players h) else w.players k }

def inv (w : World) (r : InvRef) : Inventory := (w.players r.owner).inv r.kind

def updInv (w : World) (r : InvRef) (f : Inventory → Inventory) : World :=
  w.updPlayer r.owner fun p => p.setInv (f (p.inv r.kind)) r.kind

section Update

variable (w : World) (p : ItemPtr) (h : Handle) (r : InvRef) (f : Item → Item) (g : Player → Player)
  (u : Inventory → Inventory)

theorem updItem_items (q : ItemPtr) :
    (w.updItem p f).items q = if q = p then f (w.items p) else w.items q := rfl
@[simp] theorem updItem_items_same : (w.updItem p f).items p = f (w.items p) := if_pos rfl
theorem updItem_items_of_ne {q : ItemPtr} (hne : q ≠ p) : (w.updItem p f).items q = w.items q :=
  if_neg hne
@[simp] theorem updItem_players : (w.updItem p f).players = w.players := rfl
@[simp] theorem updItem_inv : (w.updItem p f).inv r = w.inv r := rfl
@[simp] theorem updItem_nextItem : (w.updItem p f).nextItem = w.nextItem := rfl
@[simp] theorem updItem_itemPool : (w.updItem p f).itemPool = w.itemPool := rfl
@[simp] theorem updItem_nItemTop : (w.updItem p f).nItemTop = w.nItemTop := rfl
@[simp] theorem updItem_nItemIndex : (w.updItem p f).nItemIndex = w.nItemIndex := rfl
@[simp] theorem updItem_itemBase : (w.updItem p f).itemBase = w.itemBase := rfl
@[simp] theorem updItem_playerPool : (w.updItem p f).playerPool = w.playerPool := rfl
@[simp] theorem updItem_mapRegionSize : (w.updItem p f).mapRegionSize = w.mapRegionSize := rfl

theorem updPlayer_players (k : Handle) :
    (w.updPlayer h g).players k = if k = h then g (w.players h) else w.players k := rfl
@[simp] theorem updPlayer_players_same : (w.updPlayer h g).players h = g (w.players h) := if_pos rfl
@[simp] theorem updPlayer_items : (w.updPlayer h g).items = w.items := rfl
@[simp] theorem updPlayer_nextItem : (w.updPlayer h g).nextItem = w.nextItem := rfl
@[simp] theorem updPlayer_itemPool : (w.updPlayer h g).itemPool = w.itemPool := rfl
@[simp] theorem updPlayer_nItemTop : (w.updPlayer h g).nItemTop = w.nItemTop := rfl
@[simp] theorem updPlayer_nItemIndex : (w.updPlayer h g).nItemIndex = w.nItemIndex := rfl
@[simp] theorem updPlayer_itemBase : (w.updPlayer h g).itemBase = w.itemBase := rfl
@[simp] theorem updPlayer_playerPool : (w.updPlayer h g).playerPool = w.playerPool := rfl
@[simp] theorem updPlayer_mapRegionSize : (w.updPlayer h g).mapRegionSize = w.mapRegionSize := rfl

@[simp] theorem updInv_items : (w.updInv r u).items = w.items := rfl
@[simp] theorem updInv_nextItem : (w.updInv r u).nextItem = w.nextItem := rfl
@[simp] theorem updInv_itemPool : (w.updInv r u).itemPool = w.itemPool := rfl
@[simp] theorem updInv_nItemTop : (w.updInv r u).nItemTop = w.nItemTop := rfl
@[simp] theorem updInv_nItemIndex : (w.updInv r u).nItemIndex = w.nItemIndex := rfl
@[simp] theorem updInv_itemBase : (w.updInv r u).itemBase = w.itemBase := rfl
@[simp] theorem updInv_playerPool : (w.updInv r u).playerPool = w.playerPool := rfl
@[simp] theorem updInv_mapRegionSize : (w.updInv r u).mapRegionSize = w.mapRegionSize := rfl

theorem updInv_inv (r' : InvRef) :
    (w.updInv r u).inv r' = if r' = r then u (w.inv r) else w.inv r' := by
  rcases r with ⟨h, k⟩
  rcases r' with ⟨h', k'⟩
  by_cases hh : h' = h
  · subst hh
    by_cases hk : k' = k
    · subst hk; simp [inv, updInv, Player.inv_setInv]
    · simp [inv, updInv, Player.inv_setInv, hk]
  · simp [inv, updInv, updPlayer_players, hh]

@[simp] theorem updInv_inv_same : (w.updInv r u).inv r = u (w.inv r) := by
  rw [updInv_inv, if_pos rfl]

theorem updInv_inv_of_ne {r' : InvRef} (hne : r' ≠ r) : (w.updInv r u).inv r' = w.inv r' := by
  rw [updInv_inv, if_neg hne]

theorem updInv_congr {u u' : Inventory → Inventory} (hu : u (w.inv r) = u' (w.inv r)) :
    w.updInv r u = w.updInv r u' := by
  simp only [updInv, updPlayer]
  rw [show u ((w.players r.owner).inv r.kind) = u' ((w.players r.owner).inv r.kind) from hu]

@[simp] theorem updInv_persona (k : Handle) :
    ((w.updInv r u).players k).persona = (w.players k).persona := by
  simp only [updInv, updPlayer_players]
  split_ifs with hk
  · rw [Player.persona_setInv, hk]
  · rfl

@[simp] theorem updInv_anWear (k : Handle) :
    ((w.updInv r u).players k).anWear = (w.players k).anWear := by
  simp only [updInv, updPlayer_players]
  split_ifs with hk
  · rw [Player.anWear_setInv, hk]
  · rfl

end Update

/-! ## The memory pool -/

/-- `Item::AllocItem`: a new item on the heap, with a handle, in the pool. -/
def allocItem (w : World) (uid code cnt info : Int) : ItemPtr × World :=
  (w.nextItem,
    { w with
      items := fun q => if q = w.nextItem then .alloc w.nItemTop (w.itemBase code) uid code cnt info
        else w.items q
      nextItem := w.nextItem + 1
      itemPool := fun k => if k = w.nItemTop then some w.nextItem else w.itemPool k
      nItemTop := w.nItemTop + 1 })

/-- `AllocItemHandle`: the entry of the old handle stays in the pool. -/
def allocItemHandle (w : World) (p : ItemPtr) : World :=
  { w.updItem p (·.assignHandle w.nItemTop (w.nItemIndex + 1)) with
    itemPool := fun k => if k = w.nItemTop then some p else w.itemPool k
    nItemTop := w.nItemTop + 1
    nItemIndex := if (w.items p).inst.UID = 0 then w.nItemIndex + 1 else w.nItemIndex }

/-- `GetObjectInWorld<Player>`. -/
def findPlayer (w : World) (h : Handle) : Option Handle :=
  if w.playerPool h then some h else none

theorem findPlayer_eq_some {w : World} {h k : Handle} :
    w.findPlayer h = some k ↔ w.playerPool h = true ∧ k = h := by
  unfold findPlayer
  split_ifs with hp
  · exact ⟨fun hk => ⟨hp, (Option.some.inj hk).symm⟩, fun hk => hk.2 ▸ rfl⟩
  · exact ⟨nofun, fun hk => absurd hk.1 hp⟩

/-! ## Changes that move no goods -/

/-- Every stack and every inventory's list, expire list and weight is what it was, and so is
everything about a player that items have no part in. The receiver of an inventory's events does no
more than this to the world. -/
structure Quiet (w w' : World) : Prop where
  stack : ∀ p, (w'.items p).stack = (w.items p).stack
  goods : ∀ r, (w'.inv r).goods = (w.inv r).goods
  persona : ∀ h, (w'.players h).persona = (w.players h).persona
  nextItem : w'.nextItem = w.nextItem
  itemBase : w'.itemBase = w.itemBase
  playerPool : w'.playerPool = w.playerPool
  mapRegionSize : w'.mapRegionSize = w.mapRegionSize

namespace Quiet

variable {w w₁ w₂ : World}

theorem refl (w : World) : Quiet w w :=
  ⟨fun _ => rfl, fun _ => rfl, fun _ => rfl, rfl, rfl, rfl, rfl⟩

theorem trans (h₁ : Quiet w w₁) (h₂ : Quiet w₁ w₂) : Quiet w w₂ where
  stack p := (h₂.stack p).trans (h₁.stack p)
  goods r := (h₂.goods r).trans (h₁.goods r)
  persona h := (h₂.persona h).trans (h₁.persona h)
  nextItem := h₂.nextItem.trans h₁.nextItem
  itemBase := h₂.itemBase.trans h₁.itemBase
  playerPool := h₂.playerPool.trans h₁.playerPool
  mapRegionSize := h₂.mapRegionSize.trans h₁.mapRegionSize

theorem updItem (w : World) (p : ItemPtr) {f : Item → Item} (hf : ∀ i, (f i).stack = i.stack) :
    Quiet w (w.updItem p f) where
  stack q := by
    rw [updItem_items]
    split_ifs with hq
    · rw [hf, hq]
    · rfl
  goods _ := rfl
  persona _ := rfl
  nextItem := rfl
  itemBase := rfl
  playerPool := rfl
  mapRegionSize := rfl

theorem updPlayer (w : World) (h : Handle) {g : Player → Player}
    (hinv : ∀ a k, ((g a).inv k).goods = (a.inv k).goods) (hper : ∀ a, (g a).persona = a.persona) :
    Quiet w (w.updPlayer h g) where
  stack _ := rfl
  goods r := by
    simp only [inv, updPlayer_players]
    split_ifs with hr
    · rw [hinv, hr]
    · rfl
  persona k := by
    rw [updPlayer_players]
    split_ifs with hk
    · rw [hper, hk]
    · rfl
  nextItem := rfl
  itemBase := rfl
  playerPool := rfl
  mapRegionSize := rfl

theorem vList (h : Quiet w w₁) (r : InvRef) : (w₁.inv r).vList = (w.inv r).vList :=
  congrArg Inventory.Goods.vList (h.goods r)

theorem vExpireItemList (h : Quiet w w₁) (r : InvRef) :
    (w₁.inv r).vExpireItemList = (w.inv r).vExpireItemList :=
  congrArg Inventory.Goods.vExpireItemList (h.goods r)

theorem fWeight (h : Quiet w w₁) (r : InvRef) : (w₁.inv r).fWeight = (w.inv r).fWeight :=
  congrArg Inventory.Goods.fWeight (h.goods r)

end Quiet

/-- A quiet change that touches no other item than `p`. -/
structure QuietAt (p : ItemPtr) (w w' : World) : Prop extends Quiet w w' where
  other : ∀ q, q ≠ p → w'.items q = w.items q

namespace QuietAt

variable {p : ItemPtr} {w w₁ w₂ : World}

theorem refl (p : ItemPtr) (w : World) : QuietAt p w w := ⟨.refl w, fun _ _ => rfl⟩

theorem trans (h₁ : QuietAt p w w₁) (h₂ : QuietAt p w₁ w₂) : QuietAt p w w₂ :=
  ⟨h₁.toQuiet.trans h₂.toQuiet, fun q hq => (h₂.other q hq).trans (h₁.other q hq)⟩

theorem updItem (w : World) (p : ItemPtr) {f : Item → Item} (hf : ∀ i, (f i).stack = i.stack) :
    QuietAt p w (w.updItem p f) :=
  ⟨.updItem w p hf, fun _ hq => updItem_items_of_ne w p f hq⟩

theorem updPlayer (p : ItemPtr) (w : World) (h : Handle) {g : Player → Player}
    (hinv : ∀ a k, ((g a).inv k).goods = (a.inv k).goods) (hper : ∀ a, (g a).persona = a.persona) :
    QuietAt p w (w.updPlayer h g) :=
  ⟨.updPlayer w h hinv hper, fun _ _ => rfl⟩

theorem updInv (p : ItemPtr) (w : World) (r : InvRef) {u : Inventory → Inventory}
    (hu : ∀ i, (u i).goods = i.goods) : QuietAt p w (w.updInv r u) := by
  refine updPlayer p w r.owner (fun a k => ?_) fun a => Player.persona_setInv a _ _
  rw [Player.inv_setInv]
  split_ifs with hk
  · rw [hu, hk]
  · rfl

theorem allocItemHandle (w : World) (p : ItemPtr) : QuietAt p w (w.allocItemHandle p) where
  stack := (updItem w p fun i => i.stack_assignHandle _ _).stack
  goods _ := rfl
  persona _ := rfl
  nextItem := rfl
  itemBase := rfl
  playerPool := rfl
  mapRegionSize := rfl
  other := (updItem w p fun i => i.stack_assignHandle _ _).other

end QuietAt

end World

end RZEmulator.Chihiro
