import RZEmulator.Chihiro.Goods

/-!
# Goods that leave an inventory

What `Pop` and `Erase` do to a well-formed world, for either inventory of a player. `TakenFrom` and
`ErasedFrom` say it: which items stay, what leaves, and how the units of an item code change. Where a whole
stack leaves, both are a `Detached`.
-/

namespace RZEmulator.Chihiro.World

open Item (Alike)

variable {w w' w₁ w₂ : World} {r r' : InvRef} {p q x : ItemPtr} {c : Int} {d : ℚ}

/-! ## A whole stack leaves -/

theorem moveBack_alike (w : World) (r : InvRef) (p q : ItemPtr) :
    Alike (w.items q) ((w.moveBack r p).items q) := by
  unfold moveBack
  split
  · exact .refl _
  · split_ifs
    · rw [updItem_items]
      split_ifs with hq
      · rw [hq]
        exact .setStorageIndex _ _
      · exact .refl _
    · exact .refl _

theorem moveBack_core (w : World) (r : InvRef) (p : ItemPtr) :
    (w.moveBack r p).nextItem = w.nextItem ∧ (w.moveBack r p).itemBase = w.itemBase ∧
      (w.moveBack r p).playerPool = w.playerPool ∧ (w.moveBack r p).players = w.players := by
  unfold moveBack
  split
  · exact ⟨rfl, rfl, rfl, rfl⟩
  · split_ifs <;> exact ⟨rfl, rfl, rfl, rfl⟩

theorem detach_core (w : World) (r : InvRef) (p : ItemPtr) (d : ℚ) :
    (w.detach r p d).nextItem = w.nextItem ∧ (w.detach r p d).itemBase = w.itemBase ∧
      (w.detach r p d).playerPool = w.playerPool ∧
        ∀ h, ((w.detach r p d).players h).persona = (w.players h).persona := by
  obtain ⟨hnext, hbase, hpool, hplayers⟩ := moveBack_core (w.updInv r (·.addWeight d)) r p
  refine ⟨hnext, hbase, hpool, fun h => ?_⟩
  rw [detach, updInv_persona, hplayers, updInv_persona]

/-- The stack `p` has left the inventory `r`. -/
structure Detached (w w' : World) (r : InvRef) (p : ItemPtr) : Prop where
  ok : WorldOk w'
  later : Later w w'
  nextItem : w'.nextItem = w.nextItem
  itemPool : w'.itemPool = w.itemPool
  other : ∀ r', r' ≠ r → (w'.inv r').vList = (w.inv r').vList
  mem : ∀ r' q, q ∈ (w'.inv r').vList ↔ q ∈ (w.inv r').vList ∧ q ≠ p
  alike : ∀ q, q ≠ p → Alike (w.items q) (w'.items q)
  lot : ∀ q, (w'.items q).lot = (w.items q).lot
  tag : (w'.items p).tag = if (w.players r.owner).loginComplete then ⟨(w.items p).handle, 0, 0, 0⟩
    else (w.items p).tag
  units : ∀ code r', units code w' r' =
    units code w r' - if r' = r ∧ (w.items p).inst.Code = code then (w.items p).inst.nCount else 0

theorem Detached.handle (hd : Detached w w' r p) : (w'.items p).handle = (w.items p).handle := by
  have htag := congrArg Item.Tag.handle hd.tag
  split_ifs at htag <;> exact htag

theorem Detached.nOwnerUID (hd : Detached w w' r p) :
    (w'.items p).inst.nOwnerUID = (w.items p).inst.nOwnerUID ∨ (w'.items p).inst.nOwnerUID = 0 := by
  have htag := congrArg Item.Tag.nOwnerUID hd.tag
  split_ifs at htag
  · exact .inr htag
  · exact .inl htag

theorem Detached.isFree (hd : Detached w w' r p) (hlogin : (w.players r.owner).loginComplete = true) :
    (w'.items p).isFree = true := by
  have htag := hd.tag
  rw [if_pos hlogin] at htag
  exact Item.isFree_of_tag htag

/-- `detach`, with the private `pop` around it. -/
theorem detached_of_rawPop (hok : WorldOk w) (hp : p ∈ (w.inv r).vList)
    (hrun : (w.carry r p d).rawPop r p = some w') : Detached w w' r p := by
  have hst := hok.stocked r
  have hq := rawPop_quietAt hst.position hrun
  have hcarry := carry_sameTags p w r p d
  have hlogin : ((w.carry r p d).players r.owner).loginComplete = (w.players r.owner).loginComplete :=
    (congrArg Player.Persona.loginComplete ((carry_quietAt p w r p d).persona _)).trans
      (congrArg Player.Persona.loginComplete (updInv_persona w r _ _))
  obtain ⟨hpool, htop, htag⟩ := rawPop_tags hrun
  rw [hcarry.itemPool] at hpool
  rw [hcarry.nItemTop] at htop
  rw [hlogin, carry_items] at htag
  obtain ⟨hnext, hbase, hplayers, hpersona⟩ := detach_core w r p d
  have hmem : ∀ r' q, q ∈ (w'.inv r').vList ↔ q ∈ (w.inv r').vList ∧ q ≠ p := fun r' q => by
    rw [hq.vList]
    by_cases hr : r' = r
    · rw [hr, detach_vList, hst.position.mem_swapRemove hp]
    · rw [detach_inv_of_ne _ _ _ hr]
      refine ⟨fun h => ⟨h, ?_⟩, And.left⟩
      rintro rfl
      exact hr ((hok.mem_bag hp).mp h)
  have halike : ∀ q, q ≠ p → Alike (w.items q) (w'.items q) := fun q hqp => by
    rw [hq.other q hqp]
    exact moveBack_alike (w.updInv r (·.addWeight d)) r p q
  have hlot : ∀ q, (w'.items q).lot = (w.items q).lot := fun q =>
    (hq.toQuiet.lot q).trans (detach_lot w _ p d q)
  have hhandle : (w'.items p).handle = (w.items p).handle := by
    have hh := congrArg Item.Tag.handle htag
    split_ifs at hh <;> exact hh
  have hl : Later w w' := by
    refine ⟨fun h => (hq.persona h).trans (hpersona h), hq.playerPool.trans hplayers, htop.ge,
      fun j _ => by rw [hpool], (hq.nextItem.trans hnext).ge, hq.itemBase.trans hbase,
      fun q _ => congrArg Item.Lot.Code (hlot q), fun q => ?_⟩
    by_cases hqp : q = p
    · exact .inl (hqp ▸ hhandle)
    · exact .inl (halike q hqp).handle
  refine ⟨?_, hl, hq.nextItem.trans hnext, hpool, fun r' hr => ?_, hmem, halike, hlot, htag, fun code r' => ?_⟩
  · refine hok.later hl (fun r' => ?_) (fun r₁ r₂ q h₁ h₂ => ?_) (fun r' q hqr => ?_) fun j hj => ?_
    · refine Stocked.quiet ?_ hq.toQuiet
      by_cases hr : r' = r
      · rw [hr]
        exact hst.detach hp d
      · have hinv := detach_inv_of_ne w p d hr
        refine (hok.stocked r').congr (by rw [hinv]) (by rw [hinv]) (fun q hqr => ?_) hnext.ge
        rw [detach_items_of_notMem w _ p d fun h => hr ((hok.mem_bag h).mp hqr)]
    · exact hok.apart r₁ r₂ q ((hmem r₁ q).mp h₁).1 ((hmem r₂ q).mp h₂).1
    · obtain ⟨hqr, hqp⟩ := (hmem r' q).mp hqr
      refine hok.held_later hl hqr (halike q hqp) ?_
      rw [show (w'.items q).inst.nCount = _ from congrArg Item.Lot.nCount (hlot q)]
      exact (hok.held r' q hqr).count
    · rw [hpool]
      exact hok.fresh j (htop ▸ hj)
  · rw [hq.vList, detach_inv_of_ne _ _ _ hr]
  · have hquiet : World.units code w' r' = World.units code (w.detach r p d) r' := total_quiet _ hq.toQuiet
    rw [hquiet]
    by_cases hr : r' = r
    · have hdet := total_detach (Item.Lot.units code) hst hp d
      rw [Item.units_lot] at hdet
      rw [hr]
      unfold World.units
      split_ifs at hdet ⊢ <;> simp_all
      omega
    · rw [if_neg fun h => hr h.1, sub_zero]
      exact total_congr _ (by rw [detach_inv_of_ne _ _ _ hr]) fun q _ => detach_lot w _ p d q

/-! ## Popping -/

/-- A registered item that is in no inventory. -/
structure Loose (w : World) (x : ItemPtr) : Prop where
  loose : ∀ r, x ∉ (w.inv r).vList
  heap : x < w.nextItem
  pooled : w.itemPool (w.items x).handle = some x
  template : (w.items x).itemBase = w.itemBase (w.items x).inst.Code
  coded : (w.items x).inst.Code ≠ 0
  count : Lib.IsInt64 (w.items x).inst.nCount

/-- The item `x` with the count `c` has left the inventory `r`, where `p` was the stack; it is in no
inventory, and nobody else has lost anything. -/
structure TakenFrom (w w' : World) (r : InvRef) (p x : ItemPtr) (c : Int) : Prop where
  ok : WorldOk w'
  later : Later w w'
  source : x = p ∨ x = w.nextItem
  heap : x < w'.nextItem
  pooled : w'.itemPool (w'.items x).handle = some x
  pool : ∀ k q, w'.itemPool k = some q → q = x ∨ w.itemPool k = some q
  lot : (w'.items x).lot = (w.items p).lot.withCount c
  owner : (w'.items x).inst.nOwnerUID = (w.items p).inst.nOwnerUID ∨ (w'.items x).inst.nOwnerUID = 0
  free : (w.players r.owner).loginComplete = true → (w'.items x).isFree = true
  other : ∀ r', r' ≠ r → (w'.inv r').vList = (w.inv r').vList
  mem : ∀ r' q, q ∈ (w'.inv r').vList ↔ q ∈ (w.inv r').vList ∧ q ≠ x
  alike : ∀ q, q ≠ x → Alike (w.items q) (w'.items q)
  count : ∀ q, q ≠ x → (w'.items q).inst.nCount = (w.items q).inst.nCount - if q = p then c else 0
  units : ∀ code r', units code w' r' =
    units code w r' - if r' = r ∧ (w.items p).inst.Code = code then c else 0

theorem TakenFrom.loose (ht : TakenFrom w w' r p x c) (r' : InvRef) : x ∉ (w'.inv r').vList :=
  fun hx => ((ht.mem r' x).mp hx).2 rfl

theorem TakenFrom.nCount (ht : TakenFrom w w' r p x c) : (w'.items x).inst.nCount = c :=
  congrArg Item.Lot.nCount ht.lot

/-- An item in no inventory that is of the lot of a held one is a loose item. -/
theorem Loose.of_lot (hok : WorldOk w) (hp : p ∈ (w.inv r).vList) (hlater : Later w w')
    (hlot : (w'.items x).lot = (w.items p).lot.withCount c) (hcode : (w.items p).inst.Code ≠ 0) (hc : Lib.IsInt64 c)
    (hloose : ∀ r', x ∉ (w'.inv r').vList) (hheap : x < w'.nextItem) (hpooled : w'.itemPool (w'.items x).handle = some x) :
    Loose w' x := by
  have hcodex : (w'.items x).inst.Code = (w.items p).inst.Code := congrArg Item.Lot.Code hlot
  have hcount : (w'.items x).inst.nCount = c := congrArg Item.Lot.nCount hlot
  refine ⟨hloose, hheap, hpooled, ?_, hcodex ▸ hcode, hcount ▸ hc⟩
  rw [hlater.itemBase, hcodex, ← (hok.held _ p hp).template]
  exact congrArg Item.Lot.itemBase hlot

theorem TakenFrom.looseItem (hok : WorldOk w) (hp : p ∈ (w.inv r).vList) (ht : TakenFrom w w' r p x c)
    (hcode : (w.items p).inst.Code ≠ 0) (hc : Lib.IsInt64 c) : Loose w' x :=
  .of_lot hok hp ht.later ht.lot hcode hc ht.loose ht.heap ht.pooled

/-- What was in an inventory and is not the stack itself stays. -/
theorem TakenFrom.stays (hok : WorldOk w) (ht : TakenFrom w w' r p x c) {r' : InvRef} (hq : q ∈ (w.inv r').vList)
    (hqp : q ≠ p) : q ≠ x ∧ q ∈ (w'.inv r').vList := by
  have hqx : q ≠ x := by
    rcases ht.source with hx | hx
    · rw [hx]
      exact hqp
    · rw [hx]
      exact ((hok.stocked r').heap q hq).ne
  exact ⟨hqx, (ht.mem r' q).mpr ⟨hq, hqx⟩⟩

theorem pop_split {o : Option ItemPtr} (hrun : w.pop r p c = some (o, w'))
    (hlt : c < (w.items p).inst.nCount) : o = some w.nextItem ∧
      Lib.IsInt64 ((w.items p).inst.nCount - c) ∧
      Recounted (w.divide p c) w' p ((w.items p).inst.nCount - c) := by
  unfold pop at hrun
  split_ifs at hrun
  simp only [Option.bind_eq_bind, Option.bind_eq_some_iff, Option.pure_def, Option.some.injEq,
    Prod.mk.injEq, Lib.add64_eq_some] at hrun
  obtain ⟨d, -, n, ⟨hfit, rfl⟩, rfl, rfl⟩ := hrun
  exact ⟨rfl, hfit, carry_setCount_recounted _ r p _ _⟩

theorem takenFrom_of_split (hok : WorldOk w) (hp : p ∈ (w.inv r).vList)
    (hfit : Lib.IsInt64 ((w.items p).inst.nCount - c))
    (hs : Recounted (w.divide p c) w' p ((w.items p).inst.nCount - c)) :
    TakenFrom w w' r p w.nextItem c := by
  have hin : ∀ {r q}, q ∈ (w.inv r).vList → q ≠ w.nextItem := fun hq => ((hok.stocked _).heap _ hq).ne
  have hsame : ∀ {q}, q ≠ w.nextItem → (w.divide p c).items q = w.items q := fun hq =>
    divide_items_of_ne w p c hq
  have hnew := hs.other (hin hp).symm
  obtain ⟨hlot, htag⟩ := divide_items_new w p c
  refine ⟨hs.worldOk (hok.divide p c) hfit, (divide_later w p c).trans hs.later, .inr rfl, ?_, ?_, fun k q hk => ?_,
    ?_, .inr ?_, fun _ => ?_, fun r' _ => hs.vList r', fun r' q => ?_, fun q hq => hsame hq ▸ hs.alike q,
    fun q hq => ?_,
    fun code r' => ?_⟩
  · rw [hs.nextItem]
    exact Nat.lt_succ_self _
  · rw [hnew, divide_handle_new, hs.itemPool]
    exact if_pos rfl
  · rw [hs.itemPool] at hk
    have hk' : (if k = w.nItemTop then some w.nextItem else w.itemPool k) = some q := hk
    split_ifs at hk'
    · exact .inl (Option.some.inj hk').symm
    · exact .inr hk'
  · rw [hnew, hlot, ← (hok.held _ p hp).template]
    rfl
  · rw [hnew]
    exact congrArg Item.Tag.nOwnerUID htag
  · rw [hnew]
    exact Item.isFree_of_tag htag
  · rw [hs.vList]
    exact ⟨fun hq => ⟨hq, hin hq⟩, And.left⟩
  · split_ifs with hqp
    · rw [hqp, hs.count]
    · rw [hs.other hqp, hsame hq, sub_zero]
  · have hunits := hs.units (hok.divide p c) hp code r'
    have hdiv : World.units code (w.divide p c) r' = World.units code w r' :=
      total_divide (Item.Lot.units code) (hok.stocked r') p c
    rw [hunits, hdiv, hsame (hin hp)]
    split_ifs <;> omega

/-- A whole stack leaves. -/
theorem pop_whole {o : Option ItemPtr} (hok : WorldOk w) (hp : p ∈ (w.inv r).vList)
    (hrun : w.pop r p c = some (o, w')) (heq : (w.items p).inst.nCount = c) :
    o = some p ∧ Detached w w' r p := by
  unfold pop at hrun
  split_ifs at hrun with _ hlt
  · omega
  · simp only [Option.bind_eq_bind, Option.bind_eq_some_iff, Option.pure_def, Option.some.injEq,
      Prod.mk.injEq] at hrun
    obtain ⟨d, -, w₁, hw₁, rfl, rfl⟩ := hrun
    exact ⟨rfl, detached_of_rawPop hok hp hw₁⟩

theorem Detached.takenFrom (hok : WorldOk w) (hp : p ∈ (w.inv r).vList) (hd : Detached w w' r p) :
    TakenFrom w w' r p p (w.items p).inst.nCount where
  ok := hd.ok
  later := hd.later
  source := .inl rfl
  heap := hd.nextItem ▸ (hok.stocked r).heap p hp
  pooled := by
    rw [hd.itemPool, hd.handle]
    exact (hok.held _ p hp).pooled
  pool k q hk := .inr (hd.itemPool ▸ hk)
  lot := hd.lot p
  owner := hd.nOwnerUID
  free := hd.isFree
  other := hd.other
  mem := hd.mem
  alike := hd.alike
  count q hq := by
    rw [if_neg hq, sub_zero]
    exact congrArg Item.Lot.nCount (hd.lot q)
  units := hd.units

/-- `Pop` on an item of the inventory, for no more than there is of it. -/
theorem pop_takenFrom {o : Option ItemPtr} (hok : WorldOk w) (hp : p ∈ (w.inv r).vList)
    (hle : c ≤ (w.items p).inst.nCount) (hrun : w.pop r p c = some (o, w')) :
    ∃ x, o = some x ∧ TakenFrom w w' r p x c := by
  rcases hle.lt_or_eq with hlt | rfl
  · obtain ⟨rfl, hfit, hs⟩ := pop_split hrun hlt
    exact ⟨_, rfl, takenFrom_of_split hok hp hfit hs⟩
  · obtain ⟨rfl, hd⟩ := pop_whole hok hp hrun rfl
    exact ⟨p, rfl, hd.takenFrom hok hp⟩

/-! ## Erasing -/

/-- `c` units of the stack `p` are gone from the inventory `r`, or all of it where there were no more. -/
structure ErasedFrom (w w' : World) (r : InvRef) (p : ItemPtr) (c : Int) : Prop where
  ok : WorldOk w'
  later : Later w w'
  nextItem : w'.nextItem = w.nextItem
  itemPool : w'.itemPool = w.itemPool
  mem : ∀ r' q, q ∈ (w'.inv r').vList ↔ q ∈ (w.inv r').vList ∧ (q = p → c < (w.items p).inst.nCount)
  alike : ∀ q, (q = p → c < (w.items p).inst.nCount) → Alike (w.items q) (w'.items q)
  count : ∀ q, (q = p → c < (w.items p).inst.nCount) →
    (w'.items q).inst.nCount = (w.items q).inst.nCount - if q = p then c else 0
  free : (w.items p).inst.nCount ≤ c → (w.players r.owner).loginComplete = true → (w'.items p).isFree = true
  units : ∀ code r', units code w' r' =
    units code w r' - if r' = r ∧ (w.items p).inst.Code = code then min c (w.items p).inst.nCount else 0

theorem Detached.erasedFrom (hd : Detached w w₁ r p) (hle : (w.items p).inst.nCount ≤ c) :
    ErasedFrom w (w₁.updItem p (·.pendFreeItem)) r p c := by
  have hother : ∀ q, q ≠ p → (w₁.updItem p (·.pendFreeItem)).items q = w₁.items q := fun q hq =>
    updItem_items_of_ne w₁ p _ hq
  have hq : Quiet w₁ (w₁.updItem p (·.pendFreeItem)) := .updItem w₁ p fun i => i.stack_pendFreeItem
  have htags : ∀ q, SameTags q w₁ (w₁.updItem p (·.pendFreeItem)) := fun q => .updItem q w₁ p fun _ => rfl
  have hne : ∀ q, (q = p → c < (w.items p).inst.nCount) → q ≠ p := fun q h heq => by
    have := h heq
    omega
  have hl : Later w₁ (w₁.updItem p (·.pendFreeItem)) := by
    refine ⟨hq.persona, rfl, Nat.le_refl _, fun _ _ => rfl, Nat.le_refl _, rfl, fun q _ => ?_, fun q => ?_⟩
    · exact congrArg Item.Lot.Code (hq.lot q)
    · exact .inl (congrArg Item.Tag.handle (htags q).tag)
  refine ⟨?_, hd.later.trans hl, hd.nextItem, hd.itemPool, fun r' q => ?_, fun q h => ?_, fun q h => ?_,
    fun _ hlogin => ?_, fun code r' => ?_⟩
  · refine hd.ok.later hl (fun r' => (hd.ok.stocked r').quiet hq) hd.ok.apart (fun r' q hqr => ?_) hd.ok.fresh
    have hqp : q ≠ p := ((hd.mem r' q).mp hqr).2
    refine hd.ok.held_later hl hqr ?_ ?_
    · rw [hother q hqp]
      exact .refl _
    · rw [hother q hqp]
      exact (hd.ok.held r' q hqr).count
  · refine (hd.mem r' q).trans ⟨fun h => ⟨h.1, fun heq => absurd heq h.2⟩, fun h => ⟨h.1, hne q h.2⟩⟩
  · rw [hother q (hne q h)]
    exact hd.alike q (hne q h)
  · rw [hother q (hne q h), if_neg (hne q h), sub_zero]
    exact congrArg Item.Lot.nCount (hd.lot q)
  · rw [updItem_items_same]
    exact hd.isFree hlogin
  · have hquiet : World.units code (w₁.updItem p (·.pendFreeItem)) r' = World.units code w₁ r' :=
      total_quiet _ hq
    rw [hquiet, hd.units, min_eq_right hle]

theorem erasedFrom_of_lessen (hok : WorldOk w) (hp : p ∈ (w.inv r).vList) (hlt : c < (w.items p).inst.nCount)
    (hfit : Lib.IsInt64 ((w.items p).inst.nCount - c))
    (hs : Recounted w w' p ((w.items p).inst.nCount - c)) : ErasedFrom w w' r p c := by
  refine ⟨hs.worldOk hok hfit, hs.later, hs.nextItem, hs.itemPool, fun r' q => ?_, fun q _ => hs.alike q,
    fun q _ => ?_, fun hle => absurd hlt (not_lt.mpr hle), fun code r' => ?_⟩
  · rw [hs.vList]
    exact ⟨fun h => ⟨h, fun _ => hlt⟩, And.left⟩
  · split_ifs with hqp
    · rw [hqp, hs.count]
    · rw [hs.other hqp, sub_zero]
  · rw [hs.units hok hp, min_eq_left hlt.le]
    split_ifs <;> omega

/-- `Erase` on an item of the inventory. -/
theorem erase_erasedFrom (hok : WorldOk w) (hp : p ∈ (w.inv r).vList) (hrun : w.erase r p c = some w') :
    ErasedFrom w w' r p c := by
  unfold erase at hrun
  split_ifs at hrun with _ hlt
  · simp only [Option.bind_eq_bind, Option.bind_eq_some_iff, Option.pure_def, Option.some.injEq,
      Lib.add64_eq_some] at hrun
    obtain ⟨d, -, n, ⟨hfit, rfl⟩, rfl⟩ := hrun
    exact erasedFrom_of_lessen hok hp hlt hfit (carry_setCount_recounted w r p _ _)
  · simp only [Option.bind_eq_bind, Option.bind_eq_some_iff, Option.pure_def, Option.some.injEq] at hrun
    obtain ⟨d, -, w₁, hw₁, rfl⟩ := hrun
    exact (detached_of_rawPop hok hp hw₁).erasedFrom (not_lt.mp hlt)

end RZEmulator.Chihiro.World
