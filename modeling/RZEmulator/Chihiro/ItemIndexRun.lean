import RZEmulator.Chihiro.ItemMove

/-!
# Runs of moves of items

Items are gained, looted, taken up, dropped, erased, given away in trades and moved between inventory and
storage, in any order and by any players, while the other handlers do anything that moves no item.
`indexUnique_of_run` is about the runs in which no item is fetched from the storage with an index that is in
use in the inventory.
-/

namespace RZEmulator.Chihiro

open Lib

inductive ItemMove
  | gain (h : Handle) (code cnt : Int)
  /-- A monster leaves a new item, or gold. -/
  | loot (code cnt : Int)
  | take (h : Handle) (p : ItemPtr)
  | drop (h : Handle) (handle : Handle) (count : Int)
  | erase (h : Handle) (p : ItemPtr) (count : Int)
  | give (h target : Handle) (handle : Handle) (count : Int)
  | store (h : Handle) (packet : StoragePacket)
  | fetch (h : Handle) (packet : StoragePacket)

inductive FloorEvent
  | move (m : ItemMove)
  /-- Another handler makes the world `w`. -/
  | other (w : World)

namespace Floor

/-- `WorldSession::onDropItem`; the item that `DropItem` pops is put into the world as it is. -/
def onDropItem (s : Floor) (h : Handle) (handle : Handle) (count : Int) : Option Floor :=
  match s.world.itemPool handle with
  | none => some s
  | some p =>
    if World.mayDrop (s.world.items p) count then
      (s.world.popItem h p count).map fun (o, w) => ⟨w, o.toList ++ s.ground⟩
    else some s

/-- The end of `onTakeItem` and of `procPartyShare`: the item leaves the world and comes to a player. -/
def takeItem (s : Floor) (h : Handle) (p : ItemPtr) : Option Floor :=
  if p ∈ s.ground ∧ (s.world.items p).inst.OwnerHandle = 0 then
    (s.world.procAddItem h p).map fun w => ⟨w, s.ground.filter (· ≠ p)⟩
  else some s

/-- `MonsterDropItemToWorld`, with a new item. -/
def lootItem (s : Floor) (code cnt : Int) : Floor :=
  ⟨(s.world.allocItem 0 code cnt GenerateCode.BY_BASIC).2, s.world.nextItem :: s.ground⟩

def move (s : Floor) : ItemMove → Option Floor
  | .gain h code cnt => (s.world.gainItem h code cnt).map fun w => ⟨w, s.ground⟩
  | .loot code cnt => some (s.lootItem code cnt)
  | .take h p => s.takeItem h p
  | .drop h handle count => s.onDropItem h handle count
  | .erase h p count => (s.world.erase (World.bag h) p count).map fun w => ⟨w, s.ground⟩
  | .give h target handle count =>
    (s.world.giveItem h target handle count).map fun (_, w) => ⟨w, s.ground⟩
  | .store h packet => (s.world.storeItem h packet).map fun w => ⟨w, s.ground⟩
  | .fetch h packet => (s.world.fetchItem h packet).map fun w => ⟨w, s.ground⟩

end Floor

/-- Whoever moves an item is a player in the pool, and a count is a number of 64 bits. -/
def ItemMove.Admissible (w : World) : ItemMove → Prop
  | .gain h _ cnt => w.playerPool h = true ∧ IsInt64 cnt
  | .loot _ cnt => IsInt64 cnt
  | .take h _ => w.playerPool h = true
  | .drop h _ count => w.playerPool h = true ∧ IsInt64 count
  | .erase h _ count => w.playerPool h = true ∧ IsInt64 count
  | .give h target _ count => w.playerPool h = true ∧ w.playerPool target = true ∧ IsInt64 count
  | .store h packet => w.playerPool h = true ∧ IsInt64 packet.count
  | .fetch h packet => w.playerPool h = true ∧ IsInt64 packet.count

instance (w : World) : (m : ItemMove) → Decidable (m.Admissible w)
  | .gain h _ cnt => inferInstanceAs (Decidable (w.playerPool h = true ∧ IsInt64 cnt))
  | .loot _ cnt => inferInstanceAs (Decidable (IsInt64 cnt))
  | .take h _ => inferInstanceAs (Decidable (w.playerPool h = true))
  | .drop h _ count => inferInstanceAs (Decidable (w.playerPool h = true ∧ IsInt64 count))
  | .erase h _ count => inferInstanceAs (Decidable (w.playerPool h = true ∧ IsInt64 count))
  | .give h target _ count =>
    inferInstanceAs (Decidable (w.playerPool h = true ∧ w.playerPool target = true ∧ IsInt64 count))
  | .store h packet => inferInstanceAs (Decidable (w.playerPool h = true ∧ IsInt64 packet.count))
  | .fetch h packet => inferInstanceAs (Decidable (w.playerPool h = true ∧ IsInt64 packet.count))

/-- What a handler does that moves no item: the world stays well-formed, every inventory has the items it
had, and nothing is numbered anew. -/
structure Aside (w w' : World) (G : List ItemPtr) : Prop where
  laid : World.Laid w' G
  vList : ∀ r, (w'.inv r).vList = (w.inv r).vList
  numbers : World.SameNumbers w w'

/-- At the start everything is in its place, as after the inventories have been read. -/
def floorSystem : System Floor FloorEvent where
  Init s := World.Tidy s.world s.ground
  Step s e s' :=
    match e with
    | .move m => m.Admissible s.world ∧ s.move m = some s'
    | .other w => Aside s.world w s.ground ∧ s' = ⟨w, s.ground⟩

/-! ## The claim -/

/-- The indices of the items of an inventory are distinct and none exceeds the last one issued, so there is
one way only to enumerate the items in the order of their indices. -/
structure IndexUnique (w : World) (r : InvRef) : Prop where
  distinct : ((w.inv r).vList.map fun p => (w.items p).inst.nIdx).Nodup
  issued : ∀ p ∈ (w.inv r).vList, (w.items p).inst.nIdx ≤ (w.inv r).nIndex
  order : ∀ l l' : List ItemPtr, l.Perm (w.inv r).vList → l'.Perm (w.inv r).vList →
    l.Pairwise (fun p q => (w.items p).inst.nIdx ≤ (w.items q).inst.nIdx) →
    l'.Pairwise (fun p q => (w.items p).inst.nIdx ≤ (w.items q).inst.nIdx) → l = l'

/-- An item that is fetched from the storage joins a stack or has an index that is free in the inventory. -/
def Floor.Careful (s : Floor) : FloorEvent → Prop
  | .move (.fetch h packet) => World.FetchFresh s.world h packet
  | _ => True

instance (s : Floor) : (e : FloorEvent) → Decidable (s.Careful e)
  | .move (.fetch h packet) => inferInstanceAs (Decidable (World.FetchFresh s.world h packet))
  | .move (.gain ..) => inferInstanceAs (Decidable True)
  | .move (.loot ..) => inferInstanceAs (Decidable True)
  | .move (.take ..) => inferInstanceAs (Decidable True)
  | .move (.drop ..) => inferInstanceAs (Decidable True)
  | .move (.erase ..) => inferInstanceAs (Decidable True)
  | .move (.give ..) => inferInstanceAs (Decidable True)
  | .move (.store ..) => inferInstanceAs (Decidable True)
  | .other _ => inferInstanceAs (Decidable True)

namespace World

variable {w w' : World} {r : InvRef} {p x : ItemPtr} {G : List ItemPtr}

theorem indexUnique_iff (hnodup : (w.inv r).vList.Nodup) : IndexUnique w r ↔ Numbered w r := by
  refine ⟨fun h => ⟨List.inj_on_of_nodup_map h.distinct, h.issued⟩, fun h => ⟨?_, h.issued, ?_⟩⟩
  · exact hnodup.map_on h.distinct
  · intro l l' hl hl' hsorted hsorted'
    refine List.Perm.eq_of_pairwise (fun p q hp hq hpq hqp => ?_) hsorted hsorted' (hl.trans hl'.symm)
    exact h.distinct p (hl.subset hp) q (hl'.subset hq) (le_antisymm hpq hqp)

theorem Laid.indexUnique_iff (hl : Laid w G) : (∀ r, IndexUnique w r) ↔ ∀ r, Numbered w r :=
  forall_congr' fun r => World.indexUnique_iff (hl.goods.stocked r).nodup

/-! ## One move -/

/-- An item that is taken up is on its way. -/
theorem Tidy.lift (ht : Tidy w G) (hp : p ∈ G) :
    Tidy w (G.filter (· ≠ p)) ∧ OnTheWay w (G.filter (· ≠ p)) p := by
  refine ⟨⟨⟨ht.goods, fun x hx => ht.lying x (List.mem_of_mem_filter hx)⟩, ht.numbered⟩, ht.lying p hp, ?_⟩
  simp

/-- And one that is put down lies in the world. -/
theorem Tidy.putDown (ht : Tidy w G) (hx : OnTheWay w G x) : Tidy w (x :: G) := by
  refine ⟨⟨ht.goods, fun y hy => ?_⟩, ht.numbered⟩
  rcases List.mem_cons.mp hy with rfl | hy
  · exact hx.toLying
  · exact ht.lying y hy

end World

namespace Floor

open World

variable {s s' : Floor} {h target handle : Handle} {p : ItemPtr} {count code : Int} {m : ItemMove}

theorem onDropItem_tidy (ht : Tidy s.world s.ground) (hh : s.world.playerPool h = true) (hc : IsInt64 count)
    (hrun : s.onDropItem h handle count = some s') : Tidy s'.world s'.ground := by
  unfold onDropItem at hrun
  split at hrun
  · obtain rfl := Option.some.inj hrun
    exact ht
  split_ifs at hrun
  · obtain ⟨⟨o, w₁⟩, hpop, rfl⟩ := Option.map_eq_some_iff.mp hrun
    obtain ⟨ht₁, -, hx⟩ := ht.popItem hh hc hpop
    cases o with
    | none => exact ht₁
    | some x => exact ht₁.putDown (hx x rfl).1
  · obtain rfl := Option.some.inj hrun
    exact ht

theorem takeItem_tidy (ht : Tidy s.world s.ground) (hh : s.world.playerPool h = true)
    (hrun : s.takeItem h p = some s') : Tidy s'.world s'.ground := by
  unfold takeItem at hrun
  split_ifs at hrun with hground
  · obtain ⟨w₁, hadd, rfl⟩ := Option.map_eq_some_iff.mp hrun
    obtain ⟨ht₁, hp⟩ := ht.lift hground.1
    exact ht₁.procAddItem hp hh hadd
  · obtain rfl := Option.some.inj hrun
    exact ht

/-- **One move**: everything stays in its place, and the numbering does unless an item is fetched with an
index in use. -/
theorem move_laid (ht : Tidy s.world s.ground) (hm : m.Admissible s.world) (hrun : s.move m = some s') :
    Laid s'.world s'.ground ∧ ((∀ r, Numbered s'.world r) ↔ s.Careful (.move m)) := by
  have htidy : Tidy s'.world s'.ground → s.Careful (.move m) →
      Laid s'.world s'.ground ∧ ((∀ r, Numbered s'.world r) ↔ s.Careful (.move m)) := fun ht' hc =>
    ⟨ht'.toLaid, iff_of_true ht'.numbered hc⟩
  cases m with
  | gain h code cnt =>
    obtain ⟨w₁, hgain, rfl⟩ := Option.map_eq_some_iff.mp hrun
    exact htidy (ht.gainItem hm.1 hm.2 hgain) trivial
  | loot code cnt =>
    obtain rfl := Option.some.inj hrun
    obtain ⟨ht₁, hx, -⟩ := ht.allocItem hm code GenerateCode.BY_BASIC
    exact htidy (ht₁.putDown hx) trivial
  | take h p => exact htidy (takeItem_tidy ht hm hrun) trivial
  | drop h handle count => exact htidy (onDropItem_tidy ht hm.1 hm.2 hrun) trivial
  | erase h p count =>
    obtain ⟨w₁, herase, rfl⟩ := Option.map_eq_some_iff.mp hrun
    have hmem := (erase_eq_some (ht.goods.stocked _).position herase).1.mem
    exact htidy (ht.erase hm.1 hmem herase) trivial
  | give h target handle count =>
    obtain ⟨⟨b, w₁⟩, hgive, rfl⟩ := Option.map_eq_some_iff.mp hrun
    exact htidy (ht.giveItem hm.1 hm.2.1 hm.2.2 hgive) trivial
  | store h packet =>
    obtain ⟨w₁, hstore, rfl⟩ := Option.map_eq_some_iff.mp hrun
    exact htidy (ht.storeItem hm.1 hstore) trivial
  | fetch h packet =>
    obtain ⟨w₁, hfetch, rfl⟩ := Option.map_eq_some_iff.mp hrun
    exact ht.fetchItem hm.1 hfetch

/-! ## Runs -/

theorem tidy_of_run {h : History Floor FloorEvent}
    (hrun : floorSystem.RunWhere (fun _ s e => s.Careful e) h s) : Tidy s.world s.ground := by
  refine hrun.invariant (I := fun _ s => Tidy s.world s.ground) (fun _ hs => hs) ?_
  intro _ s e s' _ ht hcareful hstep
  cases e with
  | move m =>
    obtain ⟨hlaid, hnum⟩ := move_laid ht hstep.1 hstep.2
    exact ⟨hlaid, hnum.mpr hcareful⟩
  | other w =>
    obtain ⟨haside, rfl⟩ := hstep
    refine ⟨haside.laid, fun r => ?_⟩
    exact (ht.numbered r).congr (fun p hp => haside.vList r ▸ hp) (fun p _ => haside.numbers.nIdx p)
      (haside.numbers.nIndex r).ge

/-- **Unique inventory indices**, on the runs in which no item is fetched from the storage with an index that
is in use; and a move from such a state keeps them unique only if it is none of those. -/
theorem indexUnique_of_run {h : History Floor FloorEvent}
    (hrun : floorSystem.RunWhere (fun _ s e => s.Careful e) h s) : (∀ r, IndexUnique s.world r) ∧
      ∀ m s', m.Admissible s.world → s.move m = some s' →
        ((∀ r, IndexUnique s'.world r) ↔ s.Careful (.move m)) := by
  have ht := tidy_of_run hrun
  refine ⟨ht.toLaid.indexUnique_iff.mpr ht.numbered, fun m s' hm hmove => ?_⟩
  obtain ⟨hlaid, hnum⟩ := move_laid ht hm hmove
  exact hlaid.indexUnique_iff.trans hnum

/-! ## A market -/

/-- The moves as a function, for runs on given inputs. -/
def act (s : Floor) : FloorEvent → Option Floor
  | .move m => if m.Admissible s.world then s.move m else none
  | .other _ => none

theorem step_of_act {e : FloorEvent} (hact : s.act e = some s') : floorSystem.Step s e s' := by
  cases e with
  | move m =>
    dsimp only [act] at hact
    split_ifs at hact with hm
    exact ⟨hm, hact⟩
  | other w => cases hact

/-- Player 1 has nothing and the storage open; every item can be stacked. -/
def market : Floor where
  ground := []
  world :=
    { items := fun _ => {}
      nextItem := 0
      itemPool := fun _ => none
      nItemTop := 1
      nItemIndex := 0
      itemBase := fun _ => some { flaglist := fun f => if f = .duplicate then 1 else 0 }
      players := fun h =>
        { uid := h, accountId := 1, loginComplete := true, inWorld := true, bIsUsingStorage := true }
      playerPool := fun h => h == 1
      unitHasSkill := fun _ _ => false
      mapRegionSize := 180 }

theorem market_empty (r : InvRef) : market.world.inv r = {} := by
  obtain ⟨h, kind⟩ := r
  cases kind <;> rfl

theorem market_ok : GoodsOk market.world where
  stocked r := by
    refine ⟨fun i a ha => ?_, ?_, fun p hp => ?_, fun p hp => ?_⟩
    · rw [market_empty] at ha
      cases ha
    · rw [market_empty]
      exact List.Perm.refl _
    · rw [market_empty] at hp
      cases hp
    · rw [market_empty] at hp
      cases hp
  apart r r' p hp := by
    rw [market_empty] at hp
    cases hp
  held r p hp := by
    rw [market_empty] at hp
    cases hp
  fresh _ _ := rfl
  gold h _ := by
    show (0 : Int) ≤ 0 ∧ (0 : Int) ≤ MAX_GOLD_FOR_INVENTORY
    decide
  uid h hh := by
    show (0 : Int) < (h : Int) ∧ (h : Int) < 2 ^ 32
    rw [show h = 1 from beq_iff_eq.mp hh]
    decide
  uid_inj h k _ _ heq := Int.ofNat.inj heq
  window _ _ := table_nil
  online _ _ := ⟨rfl, one_ne_zero⟩
  storageGold _ _ := by
    show (0 : Int) ≤ 0 ∧ (0 : Int) ≤ MAX_GOLD_FOR_STORAGE
    decide
  claims k p hk := by cases hk

theorem market_tidy : Tidy market.world market.ground := by
  refine ⟨⟨market_ok, fun x hx => ?_⟩, fun r => ⟨fun p hp => ?_, fun p hp => ?_⟩⟩
  · cases hx
  · rw [market_empty] at hp
    cases hp
  · rw [market_empty] at hp
    cases hp

/-- The indices in the bag of player 1. -/
def bagIndices (s : Floor) : List Int :=
  (s.world.inv (bag 1)).vList.map fun p => (s.world.items p).inst.nIdx

/-- The item that comes back from the storage has the index 1, which was free. -/
theorem indexUnique_market : ∃ (h : History Floor FloorEvent) (s : Floor), h.length = 4 ∧
    s.bagIndices = [2, 1] ∧ IndexUnique s.world (bag 1) := by
  have hex : (System.exec (fun _ s e => s.Careful e) act
      [.move (.gain 1 7 5), .move (.gain 1 8 1), .move (.store 1 ⟨.itemInventoryToStorage, 2, 5⟩),
        .move (.fetch 1 ⟨.itemStorageToInventory, 2, 5⟩)] [] market).map
      (fun x => (x.1.length, x.2.bagIndices)) = some (4, [(2 : Int), 1]) := by decide +kernel
  obtain ⟨⟨h, s⟩, hrun, heq⟩ := Option.map_eq_some_iff.mp hex
  simp only [Prod.mk.injEq] at heq
  have hruns : floorSystem.RunWhere (fun _ s e => s.Careful e) h s :=
    System.RunWhere.exec (S := floorSystem) (fun _ _ _ => step_of_act) _ (.init market_tidy) hrun
  exact ⟨h, s, heq.1, heq.2, (indexUnique_of_run hruns).1 (bag 1)⟩

/-- A stack goes to the storage, where it gets the index 1, and comes back beside the item that has the index
1 in the inventory. -/
theorem not_indexUnique : ¬ ∀ (h : History Floor FloorEvent) (s : Floor), floorSystem.Run h s →
    ∀ r, IndexUnique s.world r := by
  intro hall
  have hex : (System.exec (fun _ _ _ => True) act
      [.move (.gain 1 7 5), .move (.gain 1 8 1), .move (.store 1 ⟨.itemInventoryToStorage, 4, 1⟩),
        .move (.fetch 1 ⟨.itemStorageToInventory, 4, 1⟩)] [] market).map
      (fun x => x.2.bagIndices) = some [(1 : Int), 1] := by decide +kernel
  obtain ⟨⟨h, s⟩, hrun, heq⟩ := Option.map_eq_some_iff.mp hex
  have hruns : floorSystem.Run h s :=
    System.RunWhere.exec (S := floorSystem) (fun _ _ _ => step_of_act) _ (.init market_tidy) hrun
  have hdistinct : s.bagIndices.Nodup := (hall h s hruns (bag 1)).distinct
  rw [show s.bagIndices = [1, 1] from heq] at hdistinct
  exact absurd hdistinct (by decide)

end Floor

end RZEmulator.Chihiro
