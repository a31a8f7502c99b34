import RZEmulator.Chihiro.ItemGround

/-!
# Moves of items and their indices

What each move does to a tidy world: `PushItem`, `procAddItem` and new items, `popItem` and `GiveItem`, and
the two item requests of the storage. All but one give an item that enters an inventory a new index of it: a
joinable item that is fetched from the storage keeps the index it had there, so that the numbering survives if
and only if that index is free (`Tidy.fetchItem`).
-/

namespace RZEmulator.Chihiro

open Lib

namespace World

variable {w w' w₁ w₂ : World} {r r' : InvRef} {p q x : ItemPtr} {h target me handle : Handle} {c code : Int}
  {G : List ItemPtr} {packet : StoragePacket}

/-! ## Gold -/

theorem Lying.sameGoods (hx : Lying w x) (hs : SameGoods w w') : Lying w' x := by
  refine ⟨fun r => ?_, hs.nextItem ▸ hx.heap, ?_, ?_, hs.items ▸ hx.count, hs.items ▸ hx.free⟩
  · rw [hs.inv]
    exact hx.loose r
  · rw [hs.itemPool, hs.items]
    exact hx.pooled
  · rw [hs.items, hs.itemBase]
    exact hx.template

theorem Tidy.sameGoods (ht : Tidy w G) (hok : GoodsOk w') (hs : SameGoods w w') : Tidy w' G := by
  refine ⟨⟨hok, fun x hx => (ht.lying x hx).sameGoods hs⟩, fun r => ?_⟩
  refine (ht.numbered r).congr (fun p hp => ?_) (fun p _ => by rw [hs.items]) (by rw [hs.inv])
  rwa [hs.inv] at hp

/-- `ChangeGold` changes nothing, or the player comes to a legal amount. -/
theorem changeGold_snd (w : World) (h : Handle) (n : Int) : (w.changeGold h n).2 = w ∨
    (0 ≤ n ∧ n ≤ MAX_GOLD_FOR_INVENTORY ∧ (w.changeGold h n).2 = w.setGold h n) := by
  unfold changeGold
  split_ifs with _ hmax hneg
  · exact .inl rfl
  · exact .inl rfl
  · exact .inr ⟨not_lt.mp hneg, not_lt.mp hmax, rfl⟩
  · exact .inl rfl

theorem Tidy.changeGold (ht : Tidy w G) (hh : w.playerPool h = true) (n : Int) :
    Tidy (w.changeGold h n).2 G ∧ SameGoods w (w.changeGold h n).2 := by
  rcases changeGold_snd w h n with heq | ⟨hlow, hhigh, heq⟩
  · rw [heq]
    exact ⟨ht, .refl w⟩
  · rw [heq]
    have hok := ht.goods.setGolds h ⟨hlow, hhigh⟩ (ht.goods.storageGold h hh)
    rw [← setGold_nStorageGold w h n h, setStorageGold_self] at hok
    exact ⟨ht.sameGoods hok (setGold_sameGoods w h n), setGold_sameGoods w h n⟩

/-! ## To a player -/

theorem Tidy.free (ht : Tidy w G) (hx : OnTheWay w G x) : Tidy (w.updItem x (·.pendFreeItem)) G :=
  ht.touched hx (.updItem w x (fun _ => rfl) fun _ => rfl) fun _ => le_refl _

/-- `PushItem` on an item without an index: it stays where it is, becomes gold, or is put under a new
index. -/
theorem Tidy.pushItem {o : Option ItemPtr} (ht : Tidy w G) (hx : OnTheWay w G x)
    (hzero : (w.items x).inst.nIdx = 0) (hh : w.playerPool h = true)
    (hrun : w.pushItem h x (w.items x).inst.nCount = some (o, w')) :
    Tidy w' G ∧ ∀ q, o = some q → q ≠ x → OnTheWay w' G x := by
  unfold World.pushItem at hrun
  split_ifs at hrun with howned hgold
  · obtain ⟨rfl, rfl⟩ := Prod.mk.inj (Option.some.inj hrun)
    exact ⟨ht, fun q hq => by cases hq⟩
  · obtain ⟨gold, -, heq⟩ := Option.map_eq_some_iff.mp hrun
    obtain ⟨rfl, rfl⟩ := Prod.mk.inj heq
    obtain ⟨ht', hsame⟩ := ht.changeGold hh gold
    exact ⟨ht'.free ⟨hx.toLying.sameGoods hsame, hx.notMem⟩, fun q hq => by cases hq⟩
  · rw [assignIdx_eq hzero] at hrun
    obtain ⟨⟨q, w₁⟩, hpush, heq⟩ := Option.map_eq_some_iff.mp hrun
    obtain ⟨rfl, rfl⟩ := Prod.mk.inj heq
    obtain ⟨ht', hx', hfresh⟩ := ht.setNewIdx hx (bag h)
    have hlot := (Touched.setNewIdx w (bag h) x).quiet.toQuiet.lot x
    have hcode : ((w.setNewIdx (bag h) x).items x).inst.Code = (w.items x).inst.Code :=
      congrArg Item.Lot.Code hlot
    have hcount : ((w.setNewIdx (bag h) x).items x).inst.nCount = (w.items x).inst.nCount :=
      congrArg Item.Lot.nCount hlot
    rw [← hcount] at hpush
    obtain ⟨hlaid, hjoined, hnum⟩ := ht'.push hx' (hcode ▸ hgold) hpush
    refine ⟨⟨hlaid, hnum.mpr hfresh⟩, fun a ha hax => ?_⟩
    obtain rfl := Option.some.inj ha
    exact hjoined hax

theorem Tidy.freeJoined {o : Option ItemPtr} (ht : Tidy w G)
    (hx : ∀ q, o = some q → q ≠ x → OnTheWay w G x) : Tidy (w.freeJoined x o) G := by
  cases o with
  | none => exact ht
  | some q =>
    unfold World.freeJoined
    dsimp only
    split_ifs with hne
    · refine ht.free (hx q rfl fun heq => hne ?_)
      rw [heq]
    · exact ht

/-- `SetIdx(0)`. -/
theorem Tidy.clearIdx (ht : Tidy w G) (hx : OnTheWay w G x) :
    Tidy (w.updItem x (·.setIdx 0)) G ∧ OnTheWay (w.updItem x (·.setIdx 0)) G x := by
  have htouch : Touched x w (w.updItem x (·.setIdx 0)) := .updItem w x (fun _ => rfl) fun _ => rfl
  exact ⟨ht.touched hx htouch fun _ => le_refl _, htouch.onTheWay hx⟩

theorem Tidy.pushCleared {o : Option ItemPtr} (ht : Tidy w G) (hx : OnTheWay w G x)
    (hh : w.playerPool h = true) (hcount : (w.items x).inst.nCount = c)
    (hrun : (w.updItem x (·.setIdx 0)).pushItem h x c = some (o, w')) :
    Tidy w' G ∧ ∀ q, o = some q → q ≠ x → OnTheWay w' G x := by
  obtain ⟨ht', hx'⟩ := ht.clearIdx hx
  have hzero : ((w.updItem x (·.setIdx 0)).items x).inst.nIdx = 0 := by
    rw [updItem_items_same]
    rfl
  have hcount' : ((w.updItem x (·.setIdx 0)).items x).inst.nCount = c := by
    rw [updItem_items_same]
    exact hcount
  rw [← hcount'] at hrun
  exact ht'.pushItem hx' hzero hh hrun

theorem Tidy.procAddItem (ht : Tidy w G) (hx : OnTheWay w G p) (hh : w.playerPool h = true)
    (hrun : w.procAddItem h p = some w') : Tidy w' G := by
  obtain ⟨room, -, hrun⟩ := Option.bind_eq_some_iff.mp hrun
  cases room with
  | false =>
    obtain rfl := Option.some.inj hrun
    exact ht
  | true =>
    obtain ⟨⟨o, w₁⟩, hpush, rfl⟩ := Option.map_eq_some_iff.mp hrun
    obtain ⟨ht', hx'⟩ := ht.pushCleared hx hh rfl hpush
    exact ht'.freeJoined hx'

/-! ## New items -/

theorem allocItem_items_of_ne (w : World) (uid code cnt info : Int) {a : ItemPtr} (ha : a ≠ w.nextItem) :
    (w.allocItem uid code cnt info).2.items a = w.items a := if_neg ha

theorem allocItem_items_new (w : World) (code cnt info : Int) :
    (w.allocItem 0 code cnt info).2.items w.nextItem = .alloc w.nItemTop (w.itemBase code) 0 code cnt info :=
  if_pos rfl

theorem allocItem_later (w : World) (code cnt info : Int) : Later w (w.allocItem 0 code cnt info).2 := by
  refine ⟨fun _ => rfl, rfl, Nat.le_succ _, fun j hj => if_neg hj.ne, Nat.le_succ _, rfl, fun q hq => ?_,
    fun q => ?_⟩
  · rw [allocItem_items_of_ne _ _ _ _ _ hq.ne]
  · by_cases hq : q = w.nextItem
    · refine .inr ?_
      rw [hq, allocItem_items_new]
      cases w.itemBase code <;> exact Nat.le_refl _
    · exact .inl (by rw [allocItem_items_of_ne _ _ _ _ _ hq])

theorem GoodsOk.allocItem (hok : GoodsOk w) (code cnt info : Int) :
    GoodsOk (w.allocItem 0 code cnt info).2 := by
  have hl := allocItem_later w code cnt info
  have hsame : ∀ {r q}, q ∈ (w.inv r).vList → (w.allocItem 0 code cnt info).2.items q = w.items q := fun hq =>
    allocItem_items_of_ne _ _ _ _ _ ((hok.stocked _).heap _ hq).ne
  have hfree : ((w.allocItem 0 code cnt info).2.items w.nextItem).isFree = true := by
    rw [allocItem_items_new]
    cases w.itemBase code <;> rfl
  refine hok.later hl (hok.toWorldOk.later hl (fun r => ?_) hok.apart (fun r q hq => ?_) fun j hj => ?_)
    fun k q hk => ?_
  · exact (hok.stocked r).congr rfl rfl (fun a ha => by rw [hsame ha]) (Nat.le_succ _)
  · have hq' : q ∈ (w.inv r).vList := hq
    refine hok.toWorldOk.held_later hl hq' ?_ ?_
    · rw [hsame hq']
      exact .refl _
    · rw [hsame hq']
      exact (hok.held r q hq').count
  · have hlt : w.nItemTop < j := Nat.lt_of_succ_le hj
    exact (if_neg hlt.ne').trans (hok.fresh j hlt.le)
  · by_cases hq : q = w.nextItem
    · rw [hq]
      exact .of_isFree hfree
    · have hk' : (if k = w.nItemTop then some w.nextItem else w.itemPool k) = some q := hk
      split_ifs at hk'
      · exact absurd (Option.some.inj hk').symm hq
      · refine (hok.claims k q hk').alike ?_ rfl fun _ hmem => hmem
        rw [allocItem_items_of_ne _ _ _ _ _ hq]
        exact .refl _

/-- A new item is on its way and has no index. -/
theorem Tidy.allocItem (ht : Tidy w G) (hc : IsInt64 c) (code info : Int) :
    Tidy (w.allocItem 0 code c info).2 G ∧ OnTheWay (w.allocItem 0 code c info).2 G w.nextItem ∧
      ((w.allocItem 0 code c info).2.items w.nextItem).inst.nIdx = 0 ∧
        ((w.allocItem 0 code c info).2.items w.nextItem).inst.nCount = c := by
  have hl := allocItem_later w code c info
  have hnew := allocItem_items_new w code c info
  have hcount : ((w.allocItem 0 code c info).2.items w.nextItem).inst.nCount = c := by
    rw [hnew]
    cases w.itemBase code <;> rfl
  refine ⟨⟨⟨ht.goods.allocItem code c info, fun y hy => ?_⟩, fun r => ?_⟩,
    ⟨⟨fun r hx => ?_, Nat.lt_succ_self _, ?_, ?_, hcount.symm ▸ hc, ?_⟩, fun hx => ?_⟩, ?_, hcount⟩
  · have hy' := ht.lying y hy
    have hsame := allocItem_items_of_ne w 0 code c info hy'.heap.ne
    exact hy'.later ht.goods.toWorldOk hl (hsame ▸ .refl _) (by rw [hsame]) hy'.loose
  · refine (ht.numbered r).congr (fun q hq => hq) (fun q hq => ?_) (le_refl _)
    have hq' : q ∈ (w.inv r).vList := hq
    rw [allocItem_items_of_ne _ _ _ _ _ ((ht.goods.stocked r).heap q hq').ne]
  · have hx' : w.nextItem ∈ (w.inv r).vList := hx
    exact absurd ((ht.goods.stocked r).heap _ hx') (Nat.lt_irrefl _)
  · rw [hnew]
    refine if_pos ?_
    cases w.itemBase code <;> rfl
  · rw [hnew]
    show _ = w.itemBase _
    cases hbase : w.itemBase code with
    | none => exact hbase.symm
    | some base => exact hbase.symm
  · rw [hnew]
    cases w.itemBase code <;> rfl
  · exact absurd (ht.lying _ hx).heap (Nat.lt_irrefl _)
  · rw [hnew]
    cases w.itemBase code <;> rfl

theorem Tidy.gainItem (ht : Tidy w G) (hh : w.playerPool h = true) (hc : IsInt64 c)
    (hrun : w.gainItem h code c = some w') : Tidy w' G := by
  obtain ⟨⟨o, w₁⟩, hpush, rfl⟩ := Option.map_eq_some_iff.mp hrun
  obtain ⟨ht', hx, hzero, hcount⟩ := ht.allocItem hc code GenerateCode.BY_BASIC
  rw [← hcount] at hpush
  obtain ⟨ht₁, hx₁⟩ := ht'.pushItem (x := w.nextItem) hx hzero hh (by rw [hcount] at hpush ⊢; exact hpush)
  exact ht₁.freeJoined hx₁

/-! ## From a player -/

/-- What `popItem` gives of an item that passes `check`, if it gives any. -/
theorem Tidy.popItem {o : Option ItemPtr} (ht : Tidy w G) (hh : w.playerPool h = true) (hc : IsInt64 c)
    (hrun : w.popItem h p c = some (o, w')) :
    Tidy w' G ∧ w'.playerPool = w.playerPool ∧ ∀ x, o = some x → OnTheWay w' G x ∧
      (w'.items x).inst.nCount = c := by
  unfold World.popItem at hrun
  split_ifs at hrun with hle
  · have hmem : p ∈ (w.inv (bag h)).vList := (pop_eq_some (ht.goods.stocked _).position hrun).1.mem
    obtain ⟨x, rfl, htaken, ht', hx, -, -⟩ :=
      ht.pop hh hmem ((ht.goods.held _ p hmem).coded rfl) hc hle hrun
    refine ⟨ht', htaken.later.playerPool, fun y hy => ?_⟩
    obtain rfl := Option.some.inj hy
    exact ⟨hx, htaken.nCount⟩
  · obtain ⟨rfl, rfl⟩ := Prod.mk.inj (Option.some.inj hrun)
    exact ⟨ht, rfl, fun x hx => by cases hx⟩

theorem Tidy.giveItem {b : Bool} (ht : Tidy w G) (hh : w.playerPool h = true)
    (htarget : w.playerPool target = true) (hc : IsInt64 c)
    (hrun : w.giveItem h target handle c = some (b, w')) : Tidy w' G := by
  unfold World.giveItem at hrun
  cases hfind : w.findItemByHandle h handle with
  | none =>
    rw [hfind] at hrun
    obtain ⟨-, rfl⟩ := Prod.mk.inj (Option.some.inj hrun)
    exact ht
  | some p =>
    rw [hfind] at hrun
    obtain ⟨tradable, -, hrun⟩ := Option.bind_eq_some_iff.mp hrun
    split_ifs at hrun
    · obtain ⟨-, rfl⟩ := Prod.mk.inj (Option.some.inj hrun)
      exact ht
    obtain ⟨w₁, hgive, heq⟩ := Option.map_eq_some_iff.mp hrun
    obtain ⟨-, rfl⟩ := Prod.mk.inj heq
    obtain ⟨⟨o, w₂⟩, hpop, hgive⟩ := Option.bind_eq_some_iff.mp hgive
    obtain ⟨x, rfl, hgive⟩ := Option.bind_eq_some_iff.mp hgive
    obtain ⟨⟨o, w₃⟩, hpush, rfl⟩ := Option.map_eq_some_iff.mp hgive
    obtain ⟨ht₂, hpool, hx₂⟩ := ht.popItem hh hc hpop
    obtain ⟨hx, hcount⟩ := hx₂ x rfl
    obtain ⟨ht₃, hx₃⟩ := ht₂.pushCleared hx (hpool ▸ htarget) hcount hpush
    cases o with
    | none => exact ht₃
    | some q =>
      dsimp only
      split_ifs with hqx
      · exact ht₃.free (hx₃ q rfl hqx)
      · exact ht₃

/-! ## To the storage and back -/

/-- A push, and the release of the object if its units have joined a stack. -/
theorem Tidy.put (ht : Tidy w G) (hx : OnTheWay w G x) (hcode : (w.items x).inst.Code ≠ 0)
    (hcount : (w.items x).inst.nCount = c) (hrun : w.push r x c = some (q, w₁))
    (hw' : w' = if q ≠ x then w₁.updItem x (·.pendFreeItem) else w₁) :
    Laid w' G ∧ ((∀ r', Numbered w' r') ↔ Fresh w r x) := by
  rw [← hcount] at hrun
  obtain ⟨hlaid, hjoined, hnum⟩ := ht.push hx hcode hrun
  subst hw'
  split_ifs with hqx
  · have hx₁ := hjoined hqx
    have hfree : Touched x w₁ (w₁.updItem x (·.pendFreeItem)) := .updItem w₁ x (fun _ => rfl) fun _ => rfl
    refine ⟨hlaid.touched hx₁ hfree, Iff.trans ⟨fun hn r' => ?_, fun hn r' => ?_⟩ hnum⟩
    · refine (hn r').congr (fun a ha => ha) (fun a ha => ?_) (le_refl _)
      rw [updItem_items_of_ne _ _ _ fun heq : a = x => hx₁.loose r' (heq ▸ ha)]
    · exact (hn r').touched (hx₁.loose r') hfree (le_refl _)
  · exact ⟨hlaid, hnum⟩

/-- What is taken out of one inventory has the index in another that the stack would have. -/
theorem fresh_taken (hok : WorldOk w) (hp : p ∈ (w.inv r).vList) (hne : r' ≠ r) (ht : TakenFrom w w₁ r p x c)
    (hrun : w.pop r p c = some (some x, w₁)) : Fresh w₁ r' x ↔ Fresh w r' p := by
  obtain ⟨hidx, hidxx, -⟩ := pop_numbers hrun
  have hjoin := (joinTarget_taken hok hp hne ht (.refl x w₁)).1
  unfold Fresh
  rw [hjoin, ht.other r' hne, hidxx x rfl]
  refine forall_congr' fun _ => forall₂_congr fun a ha => ?_
  rw [hidx a ((hok.stocked r').heap a ha).ne]

/-- Units of a stack move; under the index of their stack, unless they get a new one. -/
theorem Tidy.movePart {reindex : Bool} (ht : Tidy w G) (hm : Movable w r r' p c)
    (hrun : w.movePart r r' p c reindex = some w') :
    Laid w' G ∧ ((∀ r'', Numbered w' r'') ↔ reindex = true ∨ Fresh w r' p) := by
  obtain ⟨⟨o, w₁⟩, hpop, hrun⟩ := Option.bind_eq_some_iff.mp hrun
  obtain ⟨x, rfl, htaken, ht₁, hx₁, hcode, -⟩ := ht.pop hm.owner hm.mem hm.coded hm.isInt64 hm.le hpop
  obtain ⟨⟨q, w₃⟩, hpush, rfl⟩ := Option.map_eq_some_iff.mp hrun
  cases reindex with
  | false =>
    obtain ⟨hlaid, hnum⟩ := ht₁.put hx₁ hcode htaken.nCount hpush rfl
    exact ⟨hlaid, hnum.trans (by simpa using fresh_taken hm.ok.toWorldOk hm.mem hm.ne htaken hpop)⟩
  | true =>
    obtain ⟨ht₂, hx₂, hfresh⟩ := ht₁.setNewIdx hx₁ r'
    have hlot := (Touched.setNewIdx w₁ r' x).quiet.toQuiet.lot x
    have hcode₂ : ((w₁.setNewIdx r' x).items x).inst.Code ≠ 0 :=
      (congrArg Item.Lot.Code hlot).trans_ne hcode
    obtain ⟨hlaid, hnum⟩ := ht₂.put hx₂ hcode₂ ((congrArg Item.Lot.nCount hlot).trans htaken.nCount) hpush rfl
    exact ⟨hlaid, hnum.trans (iff_of_true hfresh (.inl rfl))⟩

/-- A whole item moves under a new index. -/
theorem Tidy.moveWhole (ht : Tidy w G) (hm : Movable w r r' p c) (hwhole : (w.items p).inst.nCount = c)
    (hrun : w.moveWhole r r' p c = some w') : Tidy w' G := by
  obtain ⟨⟨o, w₁⟩, hpop, hrun⟩ := Option.bind_eq_some_iff.mp hrun
  obtain ⟨rfl, -⟩ := pop_whole hm.ok.toWorldOk hm.mem hpop hwhole
  obtain ⟨x, hx, htaken, ht₁, hx₁, hcode, -⟩ := ht.pop hm.owner hm.mem hm.coded hm.isInt64 hm.le hpop
  obtain rfl := Option.some.inj hx
  obtain ⟨⟨q, w₃⟩, hpush, rfl⟩ := Option.map_eq_some_iff.mp hrun
  obtain ⟨ht₂, hx₂, hfresh⟩ := ht₁.setNewIdx hx₁ r'
  have hlot := (Touched.setNewIdx w₁ r' p).quiet.toQuiet.lot p
  have hcode₂ : ((w₁.setNewIdx r' p).items p).inst.Code ≠ 0 := (congrArg Item.Lot.Code hlot).trans_ne hcode
  rw [← (congrArg Item.Lot.nCount hlot).trans htaken.nCount] at hpush
  obtain ⟨hlaid, -, hnum⟩ := ht₂.push hx₂ hcode₂ hpush
  exact ⟨hlaid, hnum.mpr hfresh⟩

theorem Tidy.storeItem (ht : Tidy w G) (hme : w.playerPool me = true)
    (hrun : w.storeItem me packet = some w') : Tidy w' G := by
  unfold World.storeItem at hrun
  cases hitem : w.storageItem me packet with
  | none =>
    rw [hitem] at hrun
    obtain rfl := Option.some.inj hrun
    exact ht
  | some p =>
    rw [hitem] at hrun
    dsimp only at hrun
    split_ifs at hrun with hin
    swap
    · obtain rfl := Option.some.inj hrun
      exact ht
    obtain ⟨belt, -, hrun⟩ := Option.bind_eq_some_iff.mp hrun
    split_ifs at hrun
    · obtain rfl := Option.some.inj hrun
      exact ht
    obtain ⟨⟨b, w₁⟩, hmove, rfl⟩ := Option.map_eq_some_iff.mp hrun
    obtain ⟨can, hcan, hmove⟩ := Option.bind_eq_some_iff.mp hmove
    cases can with
    | false =>
      obtain ⟨-, rfl⟩ := Prod.mk.inj (Option.some.inj hmove)
      exact ht
    | true =>
      obtain ⟨hm, hwhole⟩ := (canStore_spec ht.goods hme hitem hin).2.2 hcan
      rw [if_neg (by decide)] at hmove
      split_ifs at hmove with hjoin
      · obtain ⟨w₂, hw₂, heq⟩ := Option.map_eq_some_iff.mp hmove
        obtain ⟨-, rfl⟩ := Prod.mk.inj heq
        obtain ⟨hlaid, hnum⟩ := ht.movePart hm hw₂
        exact ⟨hlaid, hnum.mpr (.inl rfl)⟩
      · obtain ⟨w₂, hw₂, heq⟩ := Option.map_eq_some_iff.mp hmove
        obtain ⟨-, rfl⟩ := Prod.mk.inj heq
        exact ht.moveWhole hm (hwhole.resolve_left hjoin) hw₂

/-- The joinable item that a request fetches from the storage, if it is granted. -/
def fetched (w : World) (me : Handle) (packet : StoragePacket) : Option ItemPtr :=
  (w.storageItem me packet).filter fun p =>
    (w.items p).isInStorage && (w.canFetch me p packet.count == some true) && (w.items p).isJoinable

/-- The item that is fetched joins a stack, or has an index that is free in the inventory. -/
def FetchFresh (w : World) (me : Handle) (packet : StoragePacket) : Prop :=
  ∀ p ∈ w.fetched me packet, Fresh w (bag me) p

instance (w : World) (r : InvRef) (p : ItemPtr) : Decidable (Fresh w r p) :=
  inferInstanceAs (Decidable (_ = _ → ∀ a ∈ _, _))

instance (w : World) (me : Handle) (packet : StoragePacket) : Decidable (FetchFresh w me packet) :=
  inferInstanceAs (Decidable (∀ p ∈ w.fetched me packet, Fresh w (bag me) p))

theorem Tidy.fetchItem (ht : Tidy w G) (hme : w.playerPool me = true)
    (hrun : w.fetchItem me packet = some w') :
    Laid w' G ∧ ((∀ r, Numbered w' r) ↔ FetchFresh w me packet) := by
  have hstay : w.fetched me packet = none → Laid w G ∧ ((∀ r, Numbered w r) ↔ FetchFresh w me packet) := by
    intro hnone
    refine ⟨ht.toLaid, iff_of_true ht.numbered fun p hp => ?_⟩
    rw [hnone] at hp
    cases hp
  unfold World.fetchItem at hrun
  unfold fetched at hstay
  cases hitem : w.storageItem me packet with
  | none =>
    rw [hitem] at hrun hstay
    obtain rfl := Option.some.inj hrun
    exact hstay rfl
  | some p =>
    rw [hitem] at hrun hstay
    dsimp only at hrun
    split_ifs at hrun with hin
    swap
    · obtain rfl := Option.some.inj hrun
      exact hstay (by simp [hin])
    obtain ⟨⟨b, w₁⟩, hmove, rfl⟩ := Option.map_eq_some_iff.mp hrun
    obtain ⟨can, hcan, hmove⟩ := Option.bind_eq_some_iff.mp hmove
    cases can with
    | false =>
      obtain ⟨-, rfl⟩ := Prod.mk.inj (Option.some.inj hmove)
      exact hstay (by simp [hcan])
    | true =>
      obtain ⟨hm, hwhole⟩ := (canFetch_spec ht.goods hme hitem hin).2 hcan
      rw [if_neg (by decide)] at hmove
      split_ifs at hmove with hjoin
      · obtain ⟨w₂, hw₂, heq⟩ := Option.map_eq_some_iff.mp hmove
        obtain ⟨-, rfl⟩ := Prod.mk.inj heq
        obtain ⟨hlaid, hnum⟩ := ht.movePart hm hw₂
        have hfetched : w.fetched me packet = some p := by
          simp [fetched, hitem, hin, hcan, hjoin]
        refine ⟨hlaid, hnum.trans ?_⟩
        simp [FetchFresh, hfetched]
      · obtain ⟨w₂, hw₂, heq⟩ := Option.map_eq_some_iff.mp hmove
        obtain ⟨-, rfl⟩ := Prod.mk.inj heq
        have htidy := ht.moveWhole hm (hwhole.resolve_left hjoin) hw₂
        refine ⟨htidy.toLaid, iff_of_true htidy.numbered fun a ha => ?_⟩
        have hnone : w.fetched me packet = none := by
          rw [fetched, hitem, Option.filter_some, if_neg (by simp [hjoin])]
        rw [hnone] at ha
        cases ha

end World

end RZEmulator.Chihiro
