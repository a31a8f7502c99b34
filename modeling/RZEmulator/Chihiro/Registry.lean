import RZEmulator.Chihiro.Player
import RZEmulator.Chihiro.Stock

/-!
# Whose item it is

Every item in an inventory is found in the pool by its handle, lies in one inventory only and belongs to
that inventory's owner: `WorldOk`. It is what the functions that move items from one player to another
rely on. Handles and owners are written in two places, by `onAdd` and `onRemove`; the lemmas about tags
say what those do to the item that enters or leaves, everything else of `Push` and `Pop` leaves tags
alone.
-/

namespace RZEmulator.Chihiro

namespace Item

/-- What the pool and the owner know an item by. -/
structure Tag where
  handle : Handle
  OwnerHandle : Handle
  nOwnerUID : Int
  nAccountID : Int

def tag (i : Item) : Tag := ⟨i.handle, i.inst.OwnerHandle, i.inst.nOwnerUID, i.nAccountID⟩

/-- Two states of an item that differ in its count and its position only. -/
structure Alike (i j : Item) : Prop where
  eq : j = (i.setCount j.inst.nCount).setStorageIndex j.unInventoryIndex

variable {i j k : Item}

namespace Alike

theorem refl (i : Item) : Alike i i := ⟨rfl⟩

theorem setCount (i : Item) (n : Int) : Alike i (i.setCount n) := ⟨rfl⟩

theorem setStorageIndex (i : Item) (n : Nat) : Alike i (i.setStorageIndex n) := ⟨rfl⟩

theorem handle (h : Alike i j) : j.handle = i.handle := (congrArg Item.handle h.eq).trans rfl
theorem itemBase (h : Alike i j) : j.itemBase = i.itemBase := (congrArg Item.itemBase h.eq).trans rfl
theorem Code (h : Alike i j) : j.inst.Code = i.inst.Code := (congrArg (·.inst.Code) h.eq).trans rfl
theorem OwnerHandle (h : Alike i j) : j.inst.OwnerHandle = i.inst.OwnerHandle :=
  (congrArg (·.inst.OwnerHandle) h.eq).trans rfl
theorem nOwnerUID (h : Alike i j) : j.inst.nOwnerUID = i.inst.nOwnerUID :=
  (congrArg (·.inst.nOwnerUID) h.eq).trans rfl
theorem nWearInfo (h : Alike i j) : j.inst.nWearInfo = i.inst.nWearInfo :=
  (congrArg (·.inst.nWearInfo) h.eq).trans rfl
theorem hBindedTarget (h : Alike i j) : j.hBindedTarget = i.hBindedTarget :=
  (congrArg Item.hBindedTarget h.eq).trans rfl
theorem isInInventory (h : Alike i j) : j.isInInventory = i.isInInventory :=
  (congrArg Item.isInInventory h.eq).trans rfl
theorem isInStorage (h : Alike i j) : j.isInStorage = i.isInStorage :=
  (congrArg Item.isInStorage h.eq).trans rfl
theorem isTradable (h : Alike i j) : j.isTradable = i.isTradable :=
  (congrArg Item.isTradable h.eq).trans rfl

theorem trans (h₁ : Alike i j) (h₂ : Alike j k) : Alike i k := by
  have h : j.setCount k.inst.nCount = (i.setCount k.inst.nCount).setStorageIndex j.unInventoryIndex :=
    congrArg (Item.setCount · k.inst.nCount) h₁.eq
  exact ⟨h₂.eq.trans ((congrArg (Item.setStorageIndex · k.unInventoryIndex) h).trans rfl)⟩

end Alike

end Item

namespace World

/-! ## Tags -/

/-- The pool is what it was, and `p` has the tag it had. -/
structure SameTags (p : ItemPtr) (w w' : World) : Prop where
  itemPool : w'.itemPool = w.itemPool
  nItemTop : w'.nItemTop = w.nItemTop
  tag : (w'.items p).tag = (w.items p).tag

variable {w w' w₁ w₂ : World} {r r' : InvRef} {p q : ItemPtr} {h : Handle} {cnt : Int}

namespace SameTags

theorem refl (p : ItemPtr) (w : World) : SameTags p w w := ⟨rfl, rfl, rfl⟩

theorem trans (h₁ : SameTags p w w₁) (h₂ : SameTags p w₁ w₂) : SameTags p w w₂ :=
  ⟨h₂.itemPool.trans h₁.itemPool, h₂.nItemTop.trans h₁.nItemTop, h₂.tag.trans h₁.tag⟩

theorem updItem (p : ItemPtr) (w : World) (q : ItemPtr) {f : Item → Item} (hf : ∀ i, (f i).tag = i.tag) :
    SameTags p w (w.updItem q f) := by
  refine ⟨rfl, rfl, ?_⟩
  rw [updItem_items]
  split_ifs with hq
  · rw [hf, hq]
  · rfl

theorem updPlayer (p : ItemPtr) (w : World) (h : Handle) (g : Player → Player) :
    SameTags p w (w.updPlayer h g) := ⟨rfl, rfl, rfl⟩

theorem updInv (p : ItemPtr) (w : World) (r : InvRef) (u : Inventory → Inventory) :
    SameTags p w (w.updInv r u) := ⟨rfl, rfl, rfl⟩

end SameTags

theorem carry_sameTags (q : ItemPtr) (w : World) (r : InvRef) (p : ItemPtr) (d : ℚ) :
    SameTags q w (w.carry r p d) := by
  unfold carry
  split_ifs
  · exact .updInv q w r _
  · exact .updInv q w r _

theorem putonItem_sameTags {pos : Nat} (hrun : w.putonItem h pos q = some w') : SameTags p w w' := by
  simp only [putonItem, Option.bind_eq_bind, Option.bind_eq_some_iff, Option.pure_def,
    Option.some.injEq] at hrun
  obtain ⟨base, -, w₁, hw₁, weight, -, rfl⟩ := hrun
  refine SameTags.trans (?_ : SameTags p w w₁) ((SameTags.updInv p w₁ _ _).trans (.updPlayer p _ _ _))
  unfold unitPutonItem at hw₁
  split_ifs at hw₁
  · obtain rfl := Option.some.inj hw₁
    exact ((SameTags.updPlayer p w h _).trans (.updPlayer p _ h _)).trans (.updItem p _ q fun _ => rfl)
  · obtain rfl := Option.some.inj hw₁
    exact (SameTags.updPlayer p w h _).trans (.updItem p _ q fun _ => rfl)

/-- The `nOwnerUID` that the receiver of `r` gives to an item. -/
def holderUid (w : World) (r : InvRef) : Int :=
  match r.kind with
  | .inventory => (w.players r.owner).uid
  | .storage => 0

/-- The account that the receiver of `r` gives to an item. -/
def holderAccount (w : World) (r : InvRef) : Int :=
  match r.kind with
  | .inventory => 0
  | .storage => (w.players r.owner).accountId

theorem holderUid_congr (hper : (w'.players r.owner).persona = (w.players r.owner).persona) :
    w'.holderUid r = w.holderUid r := by
  unfold holderUid
  rw [show (w'.players r.owner).uid = (w.players r.owner).uid from congrArg Player.Persona.uid hper]

theorem holderAccount_congr (hper : (w'.players r.owner).persona = (w.players r.owner).persona) :
    w'.holderAccount r = w.holderAccount r := by
  unfold holderAccount
  rw [show (w'.players r.owner).accountId = (w.players r.owner).accountId from
    congrArg Player.Persona.accountId hper]

/-- Where the pool finds an item that has been added: under the handle it had, or under a new one. -/
def Pooled (w w' : World) (p : ItemPtr) : Prop :=
  (w'.itemPool = w.itemPool ∧ w'.nItemTop = w.nItemTop ∧ (w'.items p).handle = (w.items p).handle) ∨
    (w'.itemPool = (fun k => if k = w.nItemTop then some p else w.itemPool k) ∧
      w'.nItemTop = w.nItemTop + 1 ∧ (w'.items p).handle = w.nItemTop)

theorem takeOver_tag (hrun : w.takeOver r p = some w') : w'.itemPool = w.itemPool ∧
    w'.nItemTop = w.nItemTop ∧
      (w'.items p).tag = ⟨(w.items p).handle, r.owner, w.holderUid r, w.holderAccount r⟩ := by
  unfold takeOver at hrun
  unfold holderUid holderAccount
  cases hk : r.kind with
  | inventory =>
    rw [hk] at hrun
    dsimp only at hrun
    split_ifs at hrun
    · have hputon := putonItem_sameTags (p := p) hrun
      refine ⟨hputon.itemPool, hputon.nItemTop, hputon.tag.trans ?_⟩
      rw [updItem_items_same]
      rfl
    · obtain rfl := Option.some.inj hrun
      refine ⟨rfl, rfl, ?_⟩
      rw [updItem_items_same]
      rfl
  | storage =>
    rw [hk] at hrun
    obtain rfl := Option.some.inj hrun
    refine ⟨rfl, rfl, ?_⟩
    rw [updItem_items_same]
    rfl

/-- The item that enters an inventory belongs to the owner; it keeps its handle or gets a new one. -/
theorem onAdd_tags (hrun : w.onAdd r p = some w') :
    (w'.items p).inst.OwnerHandle = r.owner ∧ (w'.items p).inst.nOwnerUID = w.holderUid r ∧
      (w'.items p).nAccountID = w.holderAccount r ∧ Pooled w w' p := by
  obtain ⟨w₁, hw₁, rfl⟩ := Option.map_eq_some_iff.mp hrun
  obtain ⟨hpool, htop, htag⟩ := takeOver_tag hw₁
  simp only [Item.tag, Item.Tag.mk.injEq] at htag
  obtain ⟨hhandle, howner, huid, hacc⟩ := htag
  show ((w₁.identify p).items p).inst.OwnerHandle = r.owner ∧
    ((w₁.identify p).items p).inst.nOwnerUID = _ ∧ ((w₁.identify p).items p).nAccountID = _ ∧
      Pooled w (w₁.identify p) p
  unfold identify
  split_ifs
  · refine ⟨?_, ?_, ?_, .inr ⟨?_, ?_, ?_⟩⟩
    all_goals simp [allocItemHandle, Item.assignHandle, hpool, htop, howner, huid, hacc]
  · exact ⟨howner, huid, hacc, .inl ⟨hpool, htop, hhandle⟩⟩

theorem rawPush_tags (hrun : w.rawPush r p = some w') :
    (w'.items p).inst.OwnerHandle = r.owner ∧ (w'.items p).inst.nOwnerUID = w.holderUid r ∧
      (w'.items p).nAccountID = w.holderAccount r ∧ Pooled w w' p := by
  obtain ⟨expires, -, hadd⟩ := Option.bind_eq_some_iff.mp hrun
  have hper : ∀ u f, (((w.updInv r u).updItem p f).players r.owner).persona =
      (w.players r.owner).persona := fun u _ => updInv_persona w r u r.owner
  obtain ⟨howner, huid, hacc, hpool⟩ := onAdd_tags hadd
  refine ⟨howner, huid.trans (holderUid_congr (hper _ _)), hacc.trans (holderAccount_congr (hper _ _)), ?_⟩
  unfold Pooled at hpool ⊢
  rw [updItem_items_same] at hpool
  exact hpool

theorem unBindSkillCard_sameTags (q : ItemPtr) (w : World) (p : ItemPtr) :
    SameTags q w (w.unBindSkillCard p) := by
  unfold unBindSkillCard
  split
  · exact .refl q w
  · split_ifs
    · exact .updItem q w p fun _ => rfl
    · exact .refl q w

theorem giveUp_tags (w : World) (r : InvRef) (p : ItemPtr) :
    (w.giveUp r p).itemPool = w.itemPool ∧ (w.giveUp r p).nItemTop = w.nItemTop ∧
      ((w.giveUp r p).items p).tag = if (w.players r.owner).loginComplete then ⟨(w.items p).handle, 0, 0, 0⟩
        else (w.items p).tag := by
  have hleft : ∀ v : World, SameTags p (w.updItem p (·.setOwnerInfo 0 0 0)) v →
      v.itemPool = w.itemPool ∧ v.nItemTop = w.nItemTop ∧
        (v.items p).tag = ⟨(w.items p).handle, 0, 0, 0⟩ := by
    intro v hv
    refine ⟨hv.itemPool, hv.nItemTop, hv.tag.trans ?_⟩
    rw [updItem_items_same]
    rfl
  unfold giveUp
  split_ifs
  · split
    · exact hleft _ (unBindSkillCard_sameTags p _ p)
    · exact hleft _ (.refl p _)
  · exact ⟨rfl, rfl, rfl⟩

/-- The item that leaves an inventory keeps its handle; a player who is logged in gives up the rest. -/
theorem rawPop_tags (hrun : w.rawPop r p = some w') :
    w'.itemPool = w.itemPool ∧ w'.nItemTop = w.nItemTop ∧
      (w'.items p).tag = if (w.players r.owner).loginComplete then ⟨(w.items p).handle, 0, 0, 0⟩
        else (w.items p).tag := by
  obtain ⟨back, -, rfl⟩ := Option.map_eq_some_iff.mp hrun
  have htake : SameTags p (w.giveUp r p) ((w.onRemove r p).takeOut r p back) := by
    have hweight : SameTags p (w.giveUp r p) (w.onRemove r p) := ⟨rfl, rfl, rfl⟩
    refine hweight.trans ?_
    unfold takeOut
    split_ifs
    · have hmoved := SameTags.updItem p (w.onRemove r p) back
        (f := (·.setStorageIndex ((w.onRemove r p).items p).unInventoryIndex)) fun _ => rfl
      exact ⟨hmoved.itemPool, hmoved.nItemTop, hmoved.tag⟩
    · exact ⟨rfl, rfl, rfl⟩
  obtain ⟨hpool, htop, htag⟩ := giveUp_tags w r p
  exact ⟨htake.itemPool.trans hpool, htake.nItemTop.trans htop, htake.tag.trans htag⟩

/-! ## Well-formed worlds -/

/-- An item in an inventory is registered, has the template of its code and belongs there. -/
structure Held (w : World) (r : InvRef) (p : ItemPtr) : Prop where
  pooled : w.itemPool (w.items p).handle = some p
  template : (w.items p).itemBase = w.itemBase (w.items p).inst.Code
  count : Lib.IsInt64 (w.items p).inst.nCount
  coded : r.kind = .inventory → (w.items p).inst.Code ≠ 0
  owned : r.kind = .inventory →
    (w.items p).inst.OwnerHandle = r.owner ∧ (w.items p).inst.nOwnerUID = (w.players r.owner).uid

/-- The table of a trade window: one count of 32 bits for each item. -/
structure Table (es : List (Handle × Int)) : Prop where
  nodup : (es.map Prod.fst).Nodup
  count : ∀ e ∈ es, Lib.IsInt32 e.2

theorem table_nil : Table [] := ⟨List.nodup_nil, fun _ h => absurd h List.not_mem_nil⟩

/-- What all handlers keep: inventories are in order and apart from each other, their items are
registered, and the players in the pool are different players with a legal amount of gold and a proper
trade window. -/
structure WorldOk (w : World) : Prop where
  stocked : ∀ r, Stocked w r
  apart : ∀ r r' p, p ∈ (w.inv r).vList → p ∈ (w.inv r').vList → r = r'
  held : ∀ r, ∀ p ∈ (w.inv r).vList, Held w r p
  fresh : ∀ k, w.nItemTop ≤ k → w.itemPool k = none
  gold : ∀ h, w.playerPool h = true → 0 ≤ (w.players h).nGold ∧ (w.players h).nGold ≤ MAX_GOLD_FOR_INVENTORY
  uid : ∀ h, w.playerPool h = true → 0 < (w.players h).uid ∧ (w.players h).uid < 2 ^ 32
  uid_inj : ∀ h k, w.playerPool h = true → w.playerPool k = true →
    (w.players h).uid = (w.players k).uid → h = k
  window : ∀ h, w.playerPool h = true → Table (w.players h).trade.vTradeItemList

theorem WorldOk.handle_lt (hok : WorldOk w) (hp : p ∈ (w.inv r).vList) :
    (w.items p).handle < w.nItemTop := by
  by_contra hge
  have hpool := (hok.held r p hp).pooled
  rw [hok.fresh _ (Nat.not_lt.mp hge)] at hpool
  cases hpool

theorem WorldOk.handle_inj (hok : WorldOk w) (hp : p ∈ (w.inv r).vList) (hq : q ∈ (w.inv r').vList)
    (heq : (w.items p).handle = (w.items q).handle) : p = q :=
  Option.some.inj ((hok.held r p hp).pooled.symm.trans (heq ▸ (hok.held r' q hq).pooled))

theorem WorldOk.findByHandle_iff (hok : WorldOk w) {k : Handle} :
    w.findByHandle r k = some p ↔ p ∈ (w.inv r).vList ∧ (w.items p).handle = k := by
  unfold findByHandle
  constructor
  · intro hfind
    exact ⟨List.mem_of_find?_eq_some hfind, by simpa using List.find?_some hfind⟩
  · rintro ⟨hp, rfl⟩
    obtain ⟨q, hq⟩ : ∃ q, (w.inv r).vList.find? (fun q => (w.items q).handle == (w.items p).handle) = some q := by
      rw [← Option.isSome_iff_exists, List.find?_isSome]
      exact ⟨p, hp, by simp⟩
    have heq : (w.items q).handle = (w.items p).handle := by simpa using List.find?_some hq
    rw [hq, hok.handle_inj (List.mem_of_find?_eq_some hq) hp heq]

/-! ## Changes of gold and trades -/

/-- Two worlds that differ in the gold, the trades and the whereabouts of players only. -/
structure SameGoods (w w' : World) : Prop where
  items : w'.items = w.items
  nextItem : w'.nextItem = w.nextItem
  itemPool : w'.itemPool = w.itemPool
  nItemTop : w'.nItemTop = w.nItemTop
  itemBase : w'.itemBase = w.itemBase
  playerPool : w'.playerPool = w.playerPool
  inv : w'.inv = w.inv
  uid : ∀ h, (w'.players h).uid = (w.players h).uid
  inWorld : ∀ h, (w'.players h).inWorld = (w.players h).inWorld
  aBindSummonCard : ∀ h, (w'.players h).aBindSummonCard = (w.players h).aBindSummonCard

namespace SameGoods

theorem refl (w : World) : SameGoods w w :=
  ⟨rfl, rfl, rfl, rfl, rfl, rfl, rfl, fun _ => rfl, fun _ => rfl, fun _ => rfl⟩

theorem trans (h₁ : SameGoods w w₁) (h₂ : SameGoods w₁ w₂) : SameGoods w w₂ :=
  ⟨h₂.items.trans h₁.items, h₂.nextItem.trans h₁.nextItem, h₂.itemPool.trans h₁.itemPool,
    h₂.nItemTop.trans h₁.nItemTop, h₂.itemBase.trans h₁.itemBase, h₂.playerPool.trans h₁.playerPool,
    h₂.inv.trans h₁.inv, fun h => (h₂.uid h).trans (h₁.uid h), fun h => (h₂.inWorld h).trans (h₁.inWorld h),
    fun h => (h₂.aBindSummonCard h).trans (h₁.aBindSummonCard h)⟩

theorem updPlayer (w : World) (h : Handle) {g : Player → Player}
    (hinv : ∀ a, (g a).inventory = a.inventory ∧ (g a).storage = a.storage)
    (huid : ∀ a, (g a).uid = a.uid) (hworld : ∀ a, (g a).inWorld = a.inWorld)
    (hcard : ∀ a, (g a).aBindSummonCard = a.aBindSummonCard) : SameGoods w (w.updPlayer h g) := by
  have hfield : ∀ {α : Type} (f : Player → α), (∀ a, f (g a) = f a) →
      ∀ k, f ((w.updPlayer h g).players k) = f (w.players k) := fun f hf k => by
    rw [updPlayer_players]
    split_ifs with hk
    · rw [hf, hk]
    · rfl
  refine ⟨rfl, rfl, rfl, rfl, rfl, rfl, funext fun r => ?_, hfield _ huid, hfield _ hworld, hfield _ hcard⟩
  refine hfield (·.inv r.kind) (fun a => ?_) r.owner
  cases r.kind with
  | inventory => exact (hinv a).1
  | storage => exact (hinv a).2

end SameGoods

/-- Of a well-formed world only the gold and the windows have to be looked at again. -/
theorem WorldOk.sameGoods (hok : WorldOk w) (hs : SameGoods w w')
    (hgold : ∀ h, w.playerPool h = true →
      0 ≤ (w'.players h).nGold ∧ (w'.players h).nGold ≤ MAX_GOLD_FOR_INVENTORY)
    (hwindow : ∀ h, w.playerPool h = true → Table (w'.players h).trade.vTradeItemList) : WorldOk w' where
  stocked r := (hok.stocked r).congr (by rw [hs.inv]) (by rw [hs.inv]) (fun a _ => by rw [hs.items])
    hs.nextItem.ge
  apart := by
    rw [hs.inv]
    exact hok.apart
  held r p hp := by
    rw [hs.inv] at hp
    obtain ⟨hpooled, htemplate, hcount, hcoded, howned⟩ := hok.held r p hp
    refine ⟨?_, ?_, ?_, ?_, ?_⟩
    · rw [hs.itemPool, hs.items]
      exact hpooled
    · rw [hs.itemBase, hs.items]
      exact htemplate
    · rw [hs.items]
      exact hcount
    · rw [hs.items]
      exact hcoded
    · rw [hs.items, hs.uid]
      exact howned
  fresh := by
    rw [hs.itemPool, hs.nItemTop]
    exact hok.fresh
  gold h hh := hgold h (hs.playerPool ▸ hh)
  uid h hh := by
    rw [hs.uid]
    exact hok.uid h (hs.playerPool ▸ hh)
  uid_inj h k hh hk heq := by
    rw [hs.uid, hs.uid] at heq
    exact hok.uid_inj h k (hs.playerPool ▸ hh) (hs.playerPool ▸ hk) heq
  window h hh := hwindow h (hs.playerPool ▸ hh)

end World

end RZEmulator.Chihiro
