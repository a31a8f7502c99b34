import RZEmulator.Chihiro.ShopRun

/-!
# What a player is worth

The gold of a player and what a shop pays for the goods in the bag. A sale leaves it as it is; a purchase does not
raise it where no row is cheaper than what the shop pays for the item, and where the stacks that bought units join
have the level that the units are made with. `worth_of_run` is the run of both.
-/

namespace RZEmulator.Chihiro

open Lib World

/-- The level that `AllocItem` gives to an item. -/
def ItemTemplate.madeLevel (b : ItemTemplate) : Int := if b.level ≤ 0 then 1 else b.level

namespace Shop

/-- The price of a unit at a level, where the tables have one. -/
def priceAt (tags : Int → PriceTag) (code level : Int) : Int :=
  (getItemSellPrice (tags code).price (tags code).rank level (decide (602700 ≤ code ∧ code ≤ 602799))).getD 0

/-- What a shop pays for a unit of the item. -/
def unitPrice (tags : Int → PriceTag) (i : Item) : Int := priceAt tags i.inst.Code i.inst.nLevel

/-- What the stacks of an inventory are sold for. -/
def stockWorth (tags : Int → PriceTag) (w : World) (r : InvRef) : Int :=
  ((w.inv r).vList.map fun p => (w.items p).inst.nCount * unitPrice tags (w.items p)).sum

def worth (tags : Int → PriceTag) (w : World) (k : Handle) : Int := (w.players k).nGold + stockWorth tags w (bag k)

/-- No row is cheaper than what the shop pays for a new item of the code. -/
def NoBargain (data : ShopData) (w : World) : Prop :=
  ∀ mt ∈ data.rows, mt.price_ratio < 2 ^ 24 ∧
    ∀ b, w.itemBase mt.code = some b → priceAt data.tags mt.code b.madeLevel ≤ mt.price_ratio

/-- Every stack in a bag that other units may join has the level that units are made with. -/
def StacksPlain (w : World) : Prop :=
  ∀ k, ∀ p ∈ (w.inv (bag k)).vList, ∀ b, (w.items p).itemBase = some b → b.flaglist .duplicate ≠ 0 →
    (w.items p).inst.nLevel = b.madeLevel

variable {tags : Int → PriceTag} {data : ShopData} {w w' w₁ w₂ : World} {r : InvRef} {p q x a : ItemPtr} {me k : Handle}
  {code n c gain : Int} {i j : Item} {b : ItemTemplate}

theorem unitPrice_congr (hcode : j.inst.Code = i.inst.Code) (hlevel : j.inst.nLevel = i.inst.nLevel) :
    unitPrice tags j = unitPrice tags i := by
  rw [unitPrice, unitPrice, hcode, hlevel]

theorem nLevel_alike (h : Item.Alike i j) : j.inst.nLevel = i.inst.nLevel := (congrArg (·.inst.nLevel) h.eq).trans rfl

theorem unitPrice_alike (h : Item.Alike i j) : unitPrice tags j = unitPrice tags i :=
  unitPrice_congr ((congrArg (·.inst.Code) h.eq).trans rfl) (nLevel_alike h)

/-! ## Levels -/

/-- No item has another level. -/
def SameLevels (w w' : World) : Prop := ∀ a, (w'.items a).inst.nLevel = (w.items a).inst.nLevel

namespace SameLevels

theorem refl (w : World) : SameLevels w w := fun _ => rfl

theorem trans (h₁ : SameLevels w w₁) (h₂ : SameLevels w₁ w') : SameLevels w w' := fun a => (h₂ a).trans (h₁ a)

theorem updItem (w : World) (p : ItemPtr) {f : Item → Item} (hf : ∀ i, (f i).inst.nLevel = i.inst.nLevel) :
    SameLevels w (w.updItem p f) := fun a => by
  rw [updItem_items]
  split_ifs with h
  · rw [h]
    exact hf _
  · rfl

theorem carry (w : World) (r : InvRef) (p : ItemPtr) (d : ℚ) : SameLevels w (w.carry r p d) := fun a => by
  unfold World.carry
  split_ifs <;> rfl

theorem putonItem {h : Handle} {pos : Nat} (hrun : w.putonItem h pos p = some w') : SameLevels w w' := by
  simp only [World.putonItem, Option.bind_eq_bind, Option.bind_eq_some_iff, Option.pure_def, Option.some.injEq] at hrun
  obtain ⟨base, -, w₁, hw₁, weight, -, rfl⟩ := hrun
  have hwear : ∀ v : World, v.unitPutonItem h pos p = some w₁ → SameLevels v w₁ := fun v hv => by
    unfold unitPutonItem at hv
    split_ifs at hv
    obtain rfl := Option.some.inj hv
    exact .updItem _ p fun _ => rfl
  split_ifs at hw₁
  · exact fun a => hwear _ hw₁ a
  · exact fun a => hwear _ hw₁ a

theorem takeOver (hrun : w.takeOver r p = some w') : SameLevels w w' := by
  unfold World.takeOver at hrun
  split at hrun
  · split_ifs at hrun
    · exact .trans (SameLevels.updItem w p (f := (·.setOwnerInfo r.owner (w.players r.owner).uid 0)) fun _ => rfl)
        (.putonItem hrun)
    · obtain rfl := Option.some.inj hrun
      exact .updItem w p fun _ => rfl
  · obtain rfl := Option.some.inj hrun
    exact .updItem w p fun _ => rfl

theorem identify (w : World) (p : ItemPtr) : SameLevels w (w.identify p) := by
  unfold World.identify allocItemHandle
  split_ifs
  · exact fun a => SameLevels.updItem w p (f := (·.assignHandle w.nItemTop (w.nItemIndex + 1))) (fun _ => rfl) a
  · exact .refl w

theorem rawPush (hrun : w.rawPush r p = some w') : SameLevels w w' := by
  obtain ⟨expires, -, hadd⟩ := Option.bind_eq_some_iff.mp hrun
  obtain ⟨w₁, hw₁, rfl⟩ := Option.map_eq_some_iff.mp hadd
  have hset : SameLevels w ((w.updInv r (·.enter p expires)).updItem p (·.setStorageIndex (w.inv r).vList.length)) :=
    SameLevels.updItem (w.updInv r (·.enter p expires)) p fun _ => rfl
  exact (hset.trans (.takeOver hw₁)).trans fun a => SameLevels.identify w₁ p a

/-- `Push` gives no item another level. -/
theorem push (hrun : w.push r p c = some (q, w')) : SameLevels w w' := by
  unfold World.push at hrun
  split at hrun
  · simp only [Option.bind_eq_bind, Option.bind_eq_some_iff, Option.pure_def, Option.some.injEq, Prod.mk.injEq] at hrun
    obtain ⟨d, -, w₁, hw₁, -, rfl⟩ := hrun
    exact .trans (.carry w r p d) (.trans (.rawPush hw₁) fun _ => rfl)
  · simp only [Option.bind_eq_bind, Option.bind_eq_some_iff, Option.pure_def, Option.some.injEq, Prod.mk.injEq] at hrun
    obtain ⟨d, -, m, -, rfl, rfl⟩ := hrun
    exact .trans (.carry w r _ d) fun a => SameLevels.updItem (w.carry r _ d) _ (f := (·.setCount m)) (fun _ => rfl) a

theorem assignIdx (w : World) (k : Handle) (p : ItemPtr) : SameLevels w (w.assignIdx k p) := by
  unfold World.assignIdx
  split_ifs
  · exact fun a => SameLevels.updItem w p (f := (·.setIdx ((w.inv (bag k)).nIndex + 1))) (fun _ => rfl) a
  · exact .refl w

theorem freeJoined (w : World) (p : ItemPtr) (o : Option ItemPtr) : SameLevels w (w.freeJoined p o) := by
  unfold World.freeJoined
  split
  · exact .refl w
  · split_ifs
    · exact .updItem w p fun _ => rfl
    · exact .refl w

end SameLevels

/-! ## A sale -/

theorem stockWorth_erased (hok : WorldOk w) (hp : p ∈ (w.inv r).vList) (hle : c ≤ (w.items p).inst.nCount)
    (hgone : ErasedFrom w w' r p c) (r' : InvRef) : stockWorth tags w' r' =
      stockWorth tags w r' - if r' = r then c * unitPrice tags (w.items p) else 0 := by
  have hl := (hok.stocked r').nodup
  have hl' := (hgone.ok.stocked r').nodup
  have hprice : ∀ a, (a = p → c < (w.items p).inst.nCount) → unitPrice tags (w'.items a) = unitPrice tags (w.items a) :=
    fun a ha => unitPrice_alike (hgone.alike a ha)
  have hother : r' ≠ r → ∀ a ∈ (w.inv r').vList, a ≠ p := fun hr a ha heq => hr (hok.apart r' r p (heq ▸ ha) hp)
  have hsame : ∀ a, a ≠ p → (w'.items a).inst.nCount * unitPrice tags (w'.items a) =
      (w.items a).inst.nCount * unitPrice tags (w.items a) := fun a ha => by
    rw [hprice a fun heq => absurd heq ha, hgone.count a fun heq => absurd heq ha, if_neg ha, sub_zero]
  unfold stockWorth
  by_cases hr : r' = r
  · subst hr
    rw [if_pos rfl]
    rcases hle.lt_or_eq with hlt | heq
    · have hmem : ∀ a, a ∈ (w'.inv r').vList ↔ a ∈ (w.inv r').vList := fun a =>
        (hgone.mem r' a).trans ⟨And.left, fun h => ⟨h, fun _ => hlt⟩⟩
      rw [sum_map_of_mem_iff hl hl' hmem fun _ _ => rfl, sum_map_of_changed hl hp fun a _ ha => hsame a ha,
        hprice p fun _ => hlt, hgone.count p fun _ => hlt, if_pos rfl]
      ring
    · have hmem : ∀ a, a ∈ (w'.inv r').vList ↔ a ∈ (w.inv r').vList ∧ a ≠ p := fun a =>
        (hgone.mem r' a).trans (and_congr_right fun _ => ⟨fun h ha => by have := h ha; omega, fun h ha => absurd ha h⟩)
      rw [sum_map_of_gone hl hl' hp hmem fun a _ ha => hsame a ha, heq]
  · have hmem : ∀ a, a ∈ (w'.inv r').vList ↔ a ∈ (w.inv r').vList := fun a =>
      (hgone.mem r' a).trans ⟨And.left, fun h => ⟨h, fun heq => absurd heq (hother hr a h)⟩⟩
    rw [if_neg hr, sub_zero, sum_map_of_mem_iff hl hl' hmem fun a ha => hsame a (hother hr a ha)]

theorem stacksPlain_erased (hplain : StacksPlain w) (hgone : ErasedFrom w w' r p c) : StacksPlain w' := by
  intro k a ha b hbase hjoin
  obtain ⟨ha, hstays⟩ := (hgone.mem (bag k) a).mp ha
  have halike := hgone.alike a hstays
  rw [nLevel_alike halike]
  exact hplain k a ha b (halike.itemBase ▸ hbase) hjoin

theorem stockWorth_setGold (w : World) (h : Handle) (g : Int) (r : InvRef) :
    stockWorth tags (w.setGold h g) r = stockWorth tags w r := by
  rw [stockWorth, (setGold_sameGoods w h g).inv, (setGold_sameGoods w h g).items]
  rfl

theorem stacksPlain_setGold (hplain : StacksPlain w) (h : Handle) (g : Int) : StacksPlain (w.setGold h g) := by
  intro k a ha
  rw [(setGold_sameGoods w h g).inv] at ha
  exact hplain k a ha

/-- **A sale** leaves everybody's worth as it is. -/
theorem worth_sold {nPrice : Int} (hok : GoodsOk w) (hme : w.playerPool me = true) (hplain : StacksPlain w)
    (hprice : sellPrice tags (w.items p) = some nPrice) (hsold : Sold w w' me p c (c * nPrice)) :
    StacksPlain w' ∧ ∀ k, worth tags w' k = worth tags w k := by
  have hdealt := hsold.dealt hok hme
  have hunit : unitPrice tags (w.items p) = nPrice := by
    rw [unitPrice, priceAt]
    exact (congrArg (·.getD 0) hprice).trans rfl
  obtain ⟨w₁, hgone, rfl⟩ := hsold.erased
  refine ⟨stacksPlain_setGold (stacksPlain_erased hplain hgone) _ _, fun k => ?_⟩
  rw [worth, hdealt.gold, stockWorth_setGold, stockWorth_erased hok.toWorldOk hsold.mem hsold.enough hgone, hunit, worth]
  by_cases hk : k = me
  · rw [if_pos hk, if_pos (by rw [hk])]
    omega
  · rw [if_neg hk, if_neg fun heq => hk (congrArg InvRef.owner heq)]
    omega

/-! ## A new item -/

/-- An item as `AllocItem` makes it. -/
structure Made (i : Item) (b : ItemTemplate) (code n : Int) : Prop where
  base : i.itemBase = some b
  code : i.inst.Code = code
  count : i.inst.nCount = n
  level : i.inst.nLevel = b.madeLevel

/-- A stack that new units may join. -/
structure Joinable (i : Item) (b : ItemTemplate) (code : Int) : Prop where
  base : i.itemBase = some b
  code : i.inst.Code = code
  duplicate : b.flaglist .duplicate ≠ 0

/-- A new item `x` of the template `b` has come to the bag, or its units have joined the stack `q`. -/
structure Arrived (w w' : World) (me : Handle) (q x : ItemPtr) (b : ItemTemplate) (code n : Int) : Prop where
  ok : WorldOk w'
  fresh : ∀ r, x ∉ (w.inv r).vList
  mem : ∀ r a, a ∈ (w'.inv r).vList ↔ a ∈ (w.inv r).vList ∨ r = bag me ∧ a = x ∧ q = x
  alike : ∀ r, ∀ a ∈ (w.inv r).vList, Item.Alike (w.items a) (w'.items a)
  count : ∀ r, ∀ a ∈ (w.inv r).vList, (w'.items a).inst.nCount = (w.items a).inst.nCount + if a = q then n else 0
  made : q = x → Made (w'.items x) b code n
  joined : q ≠ x → q ∈ (w.inv (bag me)).vList ∧ Joinable (w.items q) b code

theorem freeJoined_items_of (w : World) (x q : ItemPtr) (h : a ≠ x ∨ q = x) :
    (w.freeJoined x (some q)).items a = w.items a := by
  unfold World.freeJoined
  dsimp only
  split_ifs with hne
  · rcases h with h | h
    · exact updItem_items_of_ne _ _ _ h
    · exact absurd (by rw [h]) hne
  · rfl

theorem freeJoined_vList (w : World) (x : ItemPtr) (o : Option ItemPtr) (r : InvRef) :
    ((w.freeJoined x o).inv r).vList = (w.inv r).vList := by
  unfold World.freeJoined
  split
  · rfl
  · split_ifs <;> rfl

/-- A stack that is joined is one of a joinable template, and so is what joins it. -/
theorem duplicate_of_join (hrun : w.push r x n = some (q, w')) (hne : q ≠ x) (hbase : (w.items x).itemBase = some b) :
    b.flaglist .duplicate ≠ 0 := by
  rcases push_eq_some hrun with ⟨-, heq, -⟩ | ⟨hjoin, -⟩
  · exact absurd heq hne
  · unfold World.joinTarget at hjoin
    split_ifs at hjoin with hjoinable
    unfold Item.isJoinable at hjoinable
    rw [hbase] at hjoinable
    simpa using hjoinable

theorem arrived_of_made (hmade : MadeNew w w' me code n w₁ w₂ q) (hok : GoodsOk w) (hdealt : Dealt w w' me code n gain)
    (hbase : w.itemBase code = some b) : Arrived w w' me q w.nextItem b code n := by
  obtain ⟨rfl, hr, hpush, hput, rfl⟩ := hmade
  have ht := Touched.assignIdx (w.allocItem 0 code n GenerateCode.BY_MARKET).2 me w.nextItem
  have hloose := ht.loose hr.loose
  have hnew : ∀ r, w.nextItem ∉ (w.inv r).vList := fun r hx => Nat.lt_irrefl _ ((hok.stocked r).heap _ hx)
  have hlot := hr.lot_assignIdx me
  have hold : ∀ r, ∀ a ∈ (w.inv r).vList,
      ((w.allocItem 0 code n GenerateCode.BY_MARKET).2.assignIdx me w.nextItem).items a = w.items a := fun r a ha =>
    (ht.quiet.other a fun heq => hnew r (heq ▸ ha)).trans (hr.items r a ha)
  have hlist : ∀ r, (((w.allocItem 0 code n GenerateCode.BY_MARKET).2.assignIdx me w.nextItem).inv r).vList =
      (w.inv r).vList := fun r => (ht.quiet.vList r).trans (hr.vList r)
  have hkept : ∀ r, ∀ a ∈ (w.inv r).vList, (w₂.freeJoined w.nextItem (some q)).items a = w₂.items a := fun r a ha =>
    freeJoined_items_of _ _ _ (.inl fun heq => hnew r (heq ▸ ha))
  have hsame : q = w.nextItem → (w₂.freeJoined w.nextItem (some q)).items w.nextItem = w₂.items w.nextItem := fun hq =>
    freeJoined_items_of _ _ _ (.inr hq)
  have hcodex : (w₂.items w.nextItem).inst.Code = code :=
    (hput.later.Code _ hloose.heap).trans (congrArg Item.Lot.Code hlot)
  refine ⟨hdealt.ok.toWorldOk, hnew, fun r a => ?_, fun r a ha => ?_, fun r a ha => ?_, fun hq => ?_, fun hq => ?_⟩
  · rw [freeJoined_vList, hput.mem, hlist]
  · rw [hkept r a ha, ← hold r a ha]
    exact hput.alike a fun heq => hnew r (heq ▸ ha)
  · rw [hkept r a ha, hput.count, hold r a ha]
    congr 1
    exact if_congr (and_iff_left_of_imp fun heq hq => hnew r (hq ▸ heq ▸ ha)) rfl rfl
  · have hmem : w.nextItem ∈ ((w₂.freeJoined w.nextItem (some q)).inv (bag me)).vList := by
      rw [freeJoined_vList, hput.mem]
      exact .inr ⟨rfl, rfl, hq⟩
    have hcount := hput.count w.nextItem
    rw [if_neg fun h => h.2 hq, add_zero] at hcount
    have hlevel : ((w.allocItem 0 code n GenerateCode.BY_MARKET).2.items w.nextItem).inst.nLevel = b.madeLevel := by
      rw [allocItem_items_new, hbase]
      rfl
    refine ⟨?_, by rw [hsame hq, hcodex], ?_, ?_⟩
    · rw [(hdealt.ok.held _ _ hmem).template, hdealt.itemBase, hsame hq, hcodex, hbase]
    · rw [hsame hq, hcount]
      exact congrArg Item.Lot.nCount hlot
    · rw [hsame hq, SameLevels.push hpush, SameLevels.assignIdx, hlevel]
  · obtain ⟨hmem, hcode, -⟩ := hput.joined hq
    rw [hlist] at hmem
    have hcodeq : (w.items q).inst.Code = code := by
      rw [← hold _ q hmem, hcode]
      exact congrArg Item.Lot.Code hlot
    refine ⟨hmem, ?_, hcodeq, duplicate_of_join hpush hq ((congrArg Item.Lot.itemBase hlot).trans hbase)⟩
    rw [(hok.held _ q hmem).template, hcodeq, hbase]

theorem Made.unitPrice {i : Item} (hi : Made i b code n) : unitPrice tags i = priceAt tags code b.madeLevel := by
  rw [Shop.unitPrice, hi.code, hi.level]

namespace Arrived

variable (ha : Arrived w w' me q x b code n)

include ha

theorem stacksPlain (hplain : StacksPlain w) : StacksPlain w' := by
  intro k a hmem c hbase hjoin
  rcases (ha.mem (bag k) a).mp hmem with hmem | ⟨-, rfl, hq⟩
  · have halike := ha.alike _ a hmem
    rw [nLevel_alike halike]
    exact hplain k a hmem c (halike.itemBase ▸ hbase) hjoin
  · have hmade := ha.made hq
    obtain rfl := Option.some.inj (hmade.base.symm.trans hbase)
    exact hmade.level

/-- The units are worth what new units are worth. -/
theorem stockWorth (hok : WorldOk w) (hplain : StacksPlain w) (r : InvRef) : stockWorth tags w' r =
    stockWorth tags w r + if r = bag me then n * priceAt tags code b.madeLevel else 0 := by
  have hl := (hok.stocked r).nodup
  have hl' := (ha.ok.stocked r).nodup
  have hprice : ∀ a ∈ (w.inv r).vList, unitPrice tags (w'.items a) = unitPrice tags (w.items a) := fun a hmem =>
    unitPrice_alike (ha.alike r a hmem)
  have hsame : ∀ a ∈ (w.inv r).vList, a ≠ q → (w'.items a).inst.nCount * unitPrice tags (w'.items a) =
      (w.items a).inst.nCount * unitPrice tags (w.items a) := fun a hmem hne => by
    rw [hprice a hmem, ha.count r a hmem, if_neg hne, add_zero]
  unfold Shop.stockWorth
  by_cases hq : q = x
  · have hmade := ha.made hq
    have hother : ∀ a ∈ (w.inv r).vList, a ≠ q := fun a hmem heq => ha.fresh r (hq ▸ heq ▸ hmem)
    split_ifs with hr
    · have hmem : ∀ a, a ∈ (w'.inv r).vList ↔ a ∈ (w.inv r).vList ∨ a = x := fun a =>
        (ha.mem r a).trans (or_congr_right ⟨fun h => h.2.1, fun h => ⟨hr, h, hq⟩⟩)
      rw [sum_map_of_come hl hl' (ha.fresh r) hmem fun a hmem => hsame a hmem (hother a hmem), hmade.count, hmade.unitPrice,
        add_comm]
    · have hmem : ∀ a, a ∈ (w'.inv r).vList ↔ a ∈ (w.inv r).vList := fun a =>
        (ha.mem r a).trans (or_iff_left fun h => hr h.1)
      rw [sum_map_of_mem_iff hl hl' hmem fun a hmem => hsame a hmem (hother a hmem), add_zero]
  · obtain ⟨hmemq, hjoin⟩ := ha.joined hq
    have hmem : ∀ a, a ∈ (w'.inv r).vList ↔ a ∈ (w.inv r).vList := fun a =>
      (ha.mem r a).trans (or_iff_left fun h => hq h.2.2)
    split_ifs with hr
    · subst hr
      have hunit : unitPrice tags (w.items q) = priceAt tags code b.madeLevel := by
        rw [Shop.unitPrice, hjoin.code, hplain me q hmemq b hjoin.base hjoin.duplicate]
      rw [sum_map_of_mem_iff hl hl' hmem fun _ _ => rfl, sum_map_of_changed hl hmemq hsame, hprice q hmemq,
        ha.count _ q hmemq, if_pos rfl, hunit]
      ring
    · have hother : ∀ a ∈ (w.inv r).vList, a ≠ q := fun a hmem heq => hr (hok.apart r (bag me) q (heq ▸ hmem) hmemq)
      rw [sum_map_of_mem_iff hl hl' hmem fun a hmem => hsame a hmem (hother a hmem), add_zero]

end Arrived

/-! ## A purchase -/

/-- The stacks are plain and nobody is worth more. -/
structure NoGain (tags : Int → PriceTag) (w w' : World) : Prop where
  plain : StacksPlain w'
  worth : ∀ k, worth tags w' k ≤ worth tags w k

theorem NoGain.refl (hplain : StacksPlain w) : NoGain tags w w := ⟨hplain, fun _ => le_refl _⟩

theorem NoGain.trans (h₁ : NoGain tags w w₁) (h₂ : NoGain tags w₁ w') : NoGain tags w w' :=
  ⟨h₂.plain, fun k => (h₂.worth k).trans (h₁.worth k)⟩

variable {mt : MarketInfo} {bJoinable : Bool} {item_code total : Int} {turn : BuyTurn} {market : List MarketInfo}
  {sent : List ShopMessage}

theorem pushNew_worth (tags : Int → PriceTag) (hok : GoodsOk w) (hme : w.playerPool me = true) (hcode : code ≠ 0) (hn : IsInt64 n)
    (hplain : StacksPlain w) (hbase : w.itemBase code = some b) (hrun : w.pushNew me code n n = some w') :
    StacksPlain w' ∧ ∀ r, stockWorth tags w' r =
      stockWorth tags w r + if r = bag me then n * priceAt tags code b.madeLevel else 0 := by
  obtain ⟨w₁, w₂, q, hmade⟩ := pushNew_made hok hme hcode hn hrun
  have harrived := arrived_of_made hmade hok (pushNew_dealt hok hme hcode hn hrun) hbase
  exact ⟨harrived.stacksPlain hplain, harrived.stockWorth hok.toWorldOk hplain⟩

theorem pushGoods_worth (tags : Int → PriceTag) (hok : GoodsOk w) (hme : w.playerPool me = true) (hcode : code ≠ 0) (hn : IsInt64 n)
    (hone : bJoinable = false → n = 1) (hplain : StacksPlain w) (hbase : w.itemBase code = some b)
    (hrun : w.pushGoods me bJoinable code n = some w') :
    StacksPlain w' ∧ ∀ r, stockWorth tags w' r =
      stockWorth tags w r + if r = bag me then n * priceAt tags code b.madeLevel else 0 := by
  unfold pushGoods at hrun
  cases bJoinable with
  | true => exact pushNew_worth tags hok hme hcode hn hplain hbase hrun
  | false =>
    obtain rfl := hone rfl
    obtain ⟨w₁, hpush, hrest⟩ := Option.bind_eq_some_iff.mp hrun
    obtain rfl := Option.some.inj hrest
    exact pushNew_worth tags hok hme hcode (by decide) hplain hbase hpush

/-- **A row that is paid** costs what its units are worth, or more. -/
theorem noGain_of_paidRow (hpaid : PaidRow w w' me mt bJoinable n total) (hok : GoodsOk w) (hme : w.playerPool me = true)
    (hcode : mt.code ≠ 0) (hn : 1 ≤ n ∧ n < 2 ^ 16) (hone : bJoinable = false → n = 1) (hplain : StacksPlain w)
    (hbase : w.itemBase mt.code = some b) (hratio : mt.price_ratio < 2 ^ 24)
    (hprice : priceAt tags mt.code b.madeLevel ≤ mt.price_ratio) : NoGain tags w w' := by
  have hlegal := hok.gold me hme
  have henough := hpaid.enough
  have hnonneg := hpaid.nonneg
  have hset := dealt_setGold hok hme (g := (w.players me).nGold - total) (by omega) (by omega) mt.code
  obtain ⟨hplain', hstock⟩ := pushGoods_worth tags hset.ok (hset.playerPool ▸ hme) hcode (by unfold IsInt64; omega)
    hone (stacksPlain_setGold hplain me _) (hset.itemBase ▸ hbase) hpaid.goods
  refine ⟨hplain', fun k => ?_⟩
  have hcharge := (charge_spec (zero_lt_one.trans_le hn.1) hpaid.check hnonneg hratio).1
  have hunits : n * priceAt tags mt.code b.madeLevel ≤ n * mt.price_ratio :=
    mul_le_mul_of_nonneg_left hprice (zero_le_one.trans hn.1)
  rw [worth, worth, (hpaid.dealt hok hme hcode hn hone).gold, hstock, stockWorth_setGold]
  by_cases hk : k = me
  · rw [if_pos hk, if_pos (by rw [hk])]
    omega
  · rw [if_neg hk, if_neg fun heq => hk (congrArg InvRef.owner heq)]
    omega

theorem buyTurn_noGain (hok : GoodsOk w) (hme : w.playerPool me = true) (hgold : w.itemBase 0 = none) (hplain : StacksPlain w)
    (hn : 1 ≤ n ∧ n < 2 ^ 16) (hratio : mt.price_ratio < 2 ^ 24)
    (hprice : ∀ b, w.itemBase mt.code = some b → priceAt tags mt.code b.madeLevel ≤ mt.price_ratio)
    (hrun : w.buyTurn me item_code mt n = some turn) :
    (∃ sent, turn = .stop w sent) ∨ ∃ w' n' sent, turn = .next w' n' sent ∧ NoGain tags w w' := by
  rcases buyTurn_cases hrun with rfl | ⟨ibs, bJoinable, c, rfl, hbase, hcount, hrow⟩
  · exact .inr ⟨w, n, [], rfl, .refl hplain⟩
  have hone : bJoinable = false → c = 1 := by
    rcases hcount with ⟨rfl, -⟩ | ⟨-, rfl⟩
    · exact fun h => Bool.noConfusion h
    · exact fun _ => rfl
  rcases buyRow_cases hok hme hrow with ⟨sent, rfl, -⟩ | ⟨w', sent, total, rfl, -, hpaid⟩
  · exact .inl ⟨sent, rfl⟩
  · exact .inr ⟨w', c, sent, rfl, noGain_of_paidRow hpaid hok hme (ne_zero_of_itemBase hgold hbase) (by omega) hone hplain hbase hratio
      (hprice ibs hbase)⟩

/-- The loop over the rows of a market without bargains. -/
theorem buyLoop_noGain (hok : GoodsOk w) (hme : w.playerPool me = true) (hgold : w.itemBase 0 = none)
    (hplain : StacksPlain w) (hn : 1 ≤ n ∧ n < 2 ^ 16) (hmarket : market ⊆ data.rows) (hbargain : NoBargain data w)
    (hrun : buyLoop me item_code market w n = some (w', sent)) : NoGain data.tags w w' := by
  induction market generalizing w n sent with
  | nil =>
    obtain ⟨rfl, rfl⟩ := Prod.mk.inj (Option.some.inj hrun)
    exact .refl hplain
  | cons mt market ih =>
    obtain ⟨turn, hturn, hrun⟩ := Option.bind_eq_some_iff.mp hrun
    obtain ⟨hratio, hprice⟩ := hbargain mt (hmarket List.mem_cons_self)
    have hgain := buyTurn_noGain hok hme hgold hplain hn hratio hprice hturn
    rcases buyTurn_spec hok hme hgold hn.1 hn.2 hturn with ⟨sent₁, rfl, -⟩ | ⟨w₁, n₁, sent₁, rfl, hlow, hle, hfirst⟩
    · obtain ⟨rfl, rfl⟩ := Prod.mk.inj (Option.some.inj hrun)
      exact .refl hplain
    · obtain ⟨⟨w₂, more⟩, hrest, heq⟩ := Option.map_eq_some_iff.mp hrun
      obtain ⟨rfl, rfl⟩ := Prod.mk.inj heq
      obtain ⟨sent', hstop⟩ | ⟨w₁', n', sent', hnext, hgain⟩ := hgain
      · cases hstop
      · obtain ⟨rfl, rfl, rfl⟩ := BuyTurn.next.inj hnext
        refine hgain.trans (ih hfirst.dealt.ok (hfirst.dealt.playerPool ▸ hme) (hfirst.dealt.itemBase ▸ hgold) hgain.plain
          ⟨hlow, by omega⟩ (List.subset_of_cons_subset hmarket) ?_ hrest)
        intro mt hmt
        rw [hfirst.dealt.itemBase]
        exact hbargain mt hmt

/-! ## Runs -/

/-- No other handler has a part in the event. -/
def ShopOnly (_ : History ShopState ShopEvent) (_ : ShopState) (e : ShopEvent) : Prop := ∀ w, e ≠ .other w

instance (h : History ShopState ShopEvent) (s : ShopState) : ∀ e, Decidable (ShopOnly h s e)
  | .other w => .isFalse fun honly => honly w rfl
  | .showMarket _ _ => .isTrue fun _ h => (by cases h)
  | .buy _ _ => .isTrue fun _ h => (by cases h)
  | .sell _ _ => .isTrue fun _ h => (by cases h)

variable {s s' : ShopState} {e : ShopEvent} {h : History ShopState ShopEvent} {le : String → String → Prop}

/-- The step lemma of the worth. -/
theorem noGain_of_step (hsorted : SortedRows le data.rows) (hs : ShopWorld s.world) (hplain : StacksPlain s.world)
    (hbargain : NoBargain data s.world) (honly : ∀ w, e ≠ .other w) (hstep : (shopSystem data w).Step s e s') :
    NoGain data.tags s.world s'.world ∧ s'.world.itemBase = s.world.itemBase := by
  cases e with
  | other w₁ => exact absurd rfl (honly w₁)
  | showMarket me szMarket =>
    obtain ⟨⟨s₁, sent⟩, hrun, rfl⟩ := Option.map_eq_some_iff.mp hstep.1
    obtain ⟨rfl, rfl⟩ := Prod.mk.inj (Option.some.inj hrun)
    rw [showMarket_world]
    exact ⟨.refl hplain, rfl⟩
  | sell me packet =>
    obtain ⟨hme, w', sent, hsell, rfl, -⟩ := step_sell hstep
    rcases onSellItem_spec hs.goods hme hsell with ⟨rfl, -⟩ | ⟨p, nPrice, -, -, hprice, -, -, hsold⟩
    · exact ⟨.refl hplain, rfl⟩
    · obtain ⟨hplain', hworth⟩ := worth_sold hs.goods hme hplain hprice hsold
      exact ⟨⟨hplain', fun k => (hworth k).le⟩, (hsold.dealt hs.goods hme).itemBase⟩
  | buy me packet =>
    obtain ⟨hme, w', sent, hbuy, rfl, -⟩ := step_buy hstep
    refine ⟨?_, (onBuyItem_spec hs.goods hme hs.gold hbuy).1.dealt.itemBase⟩
    unfold onBuyItem at hbuy
    by_cases hzero : packet.buy_count = 0
    · rw [if_pos hzero] at hbuy
      obtain ⟨rfl, rfl⟩ := Prod.mk.inj (Option.some.inj hbuy)
      exact .refl hplain
    rw [if_neg hzero] at hbuy
    obtain ⟨market, hmarket, hloop⟩ := Option.bind_eq_some_iff.mp hbuy
    rw [getMarketInfo_eq hsorted] at hmarket
    split_ifs at hmarket hloop
    · obtain ⟨rfl, rfl⟩ := Prod.mk.inj (Option.some.inj hloop)
      exact .refl hplain
    · obtain rfl := Option.some.inj hmarket
      have hpos : 1 ≤ packet.buy_count.val := Nat.one_le_iff_ne_zero.mpr fun h => hzero (Fin.ext h)
      exact buyLoop_noGain hs.goods hme hs.gold hplain ⟨Int.ofNat_le.mpr hpos, Int.ofNat_lt.mpr packet.buy_count.isLt⟩
        (List.filter_subset_self _) hbargain hloop

theorem booth_plain : StacksPlain booth := by
  intro k p _ b hbase _
  obtain rfl := Option.some.inj hbase
  rfl

theorem stall_noBargain : NoBargain stall booth := by
  intro mt hmt
  rw [List.mem_singleton.mp hmt]
  refine ⟨by decide, fun b hbase => ?_⟩
  obtain rfl := Option.some.inj hbase
  decide +kernel

end Shop

end RZEmulator.Chihiro
