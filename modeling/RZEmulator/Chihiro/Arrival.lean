import RZEmulator.Chihiro.Departure

/-!
# Goods that enter an inventory

What `Push` does with a registered item that is in no inventory: `PutInto` says that it is attached to the
list or joins a stack. Before and after, such an item may be changed in ways that neither goods nor tags take
note of (`Touched`).
-/

namespace RZEmulator.Chihiro.World

open Item (Alike)

variable {w w' w₁ w₂ : World} {r r' : InvRef} {p q x : ItemPtr} {c : Int} {d : ℚ}

/-! ## Items in nobody's inventory -/

/-- A change of the item `x` that neither goods nor tags take note of. -/
structure Touched (x : ItemPtr) (w w' : World) : Prop where
  quiet : QuietAt x w w'
  tags : SameTags x w w'

namespace Touched

theorem updItem (w : World) (x : ItemPtr) {f : Item → Item} (hf : ∀ i, (f i).stack = i.stack)
    (htag : ∀ i, (f i).tag = i.tag) : Touched x w (w.updItem x f) :=
  ⟨.updItem w x hf, .updItem x w x htag⟩

theorem trans (h₁ : Touched x w w₁) (h₂ : Touched x w₁ w₂) : Touched x w w₂ :=
  ⟨h₁.quiet.trans h₂.quiet, h₁.tags.trans h₂.tags⟩

theorem assignIdx (w : World) (k : Handle) (x : ItemPtr) : Touched x w (w.assignIdx k x) := by
  unfold World.assignIdx
  split_ifs
  · refine ⟨QuietAt.trans ?_ (.updItem _ x fun i => i.stack_setIdx _),
      (SameTags.updInv x w _ _).trans (.updItem x _ x fun _ => rfl)⟩
    exact .updInv x w (bag k) fun _ => rfl
  · exact ⟨.refl x w, .refl x w⟩

variable (ht : Touched x w w')

include ht

theorem handle : (w'.items x).handle = (w.items x).handle := congrArg Item.Tag.handle ht.tags.tag

theorem later : Later w w' := by
  refine ⟨ht.quiet.persona, ht.quiet.playerPool, ht.tags.nItemTop.ge, fun j _ => by rw [ht.tags.itemPool],
    ht.quiet.nextItem.ge, ht.quiet.itemBase, fun q _ => congrArg (·.toLot.Code) (ht.quiet.stack q),
    fun q => .inl ?_⟩
  by_cases hq : q = x
  · rw [hq, ht.handle]
  · rw [ht.quiet.other q hq]

theorem worldOk (hok : WorldOk w) (hx : ∀ r, x ∉ (w.inv r).vList) : WorldOk w' := by
  have hlist := ht.quiet.vList
  have hother : ∀ {r q}, q ∈ (w.inv r).vList → w'.items q = w.items q := fun hq =>
    ht.quiet.other _ fun heq => hx _ (heq ▸ hq)
  refine hok.later ht.later (fun r => (hok.stocked r).quiet ht.quiet.toQuiet) (fun r r' q hq hq' => ?_)
    (fun r q hq => ?_) fun j hj => ?_
  · rw [hlist] at hq hq'
    exact hok.apart r r' q hq hq'
  · rw [hlist] at hq
    refine hok.held_later ht.later hq ?_ ?_
    · rw [hother hq]
      exact .refl _
    · rw [hother hq]
      exact (hok.held r q hq).count
  · rw [ht.tags.itemPool]
    exact hok.fresh j (ht.tags.nItemTop ▸ hj)

theorem loose (hx : Loose w x) : Loose w' x := by
  have hlot := ht.quiet.lot x
  have hcode : (w'.items x).inst.Code = (w.items x).inst.Code := congrArg Item.Lot.Code hlot
  refine ⟨fun r => ?_, ?_, ?_, ?_, hcode ▸ hx.coded, ?_⟩
  · rw [ht.quiet.vList]
    exact hx.loose r
  · rw [ht.quiet.nextItem]
    exact hx.heap
  · rw [ht.tags.itemPool, ht.handle]
    exact hx.pooled
  · rw [ht.quiet.itemBase, hcode, ← hx.template]
    exact congrArg Item.Lot.itemBase hlot
  · rw [show (w'.items x).inst.nCount = (w.items x).inst.nCount from congrArg Item.Lot.nCount hlot]
    exact hx.count

theorem isFree : (w'.items x).isFree = (w.items x).isFree := by
  have hcode : (w'.items x).inst.Code = (w.items x).inst.Code :=
    congrArg Item.Lot.Code (ht.quiet.lot x)
  have huid : (w'.items x).inst.nOwnerUID = (w.items x).inst.nOwnerUID :=
    congrArg Item.Tag.nOwnerUID ht.tags.tag
  have hacc : (w'.items x).nAccountID = (w.items x).nAccountID := congrArg Item.Tag.nAccountID ht.tags.tag
  simp only [Item.isFree, Item.isInInventory, Item.isInStorage, hcode, huid, hacc]

end Touched

/-! ## Pushing -/

/-- The loose item `x` has come to the inventory `r`, or its `c` units have joined the stack `q` of its code
there. -/
structure PutInto (w w' : World) (r : InvRef) (x q : ItemPtr) (c : Int) : Prop where
  ok : WorldOk w'
  later : Later w w'
  nextItem : w'.nextItem = w.nextItem
  pool : ∀ k a, w'.itemPool k = some a → a = x ∨ w.itemPool k = some a
  other : ∀ r', r' ≠ r → (w'.inv r').vList = (w.inv r').vList
  mem : ∀ r' a, a ∈ (w'.inv r').vList ↔ a ∈ (w.inv r').vList ∨ (r' = r ∧ a = x ∧ q = x)
  alike : ∀ a, a ≠ x → Alike (w.items a) (w'.items a)
  count : ∀ a, (w'.items a).inst.nCount = (w.items a).inst.nCount + if a = q ∧ q ≠ x then c else 0
  joined : q ≠ x → q ∈ (w.inv r).vList ∧ (w.items q).inst.Code = (w.items x).inst.Code ∧
    w'.items x = w.items x
  held : q = x → (w'.items x).inst.OwnerHandle = r.owner ∧ (w'.items x).inst.nOwnerUID = w.holderUid r ∧
    (w'.items x).nAccountID = w.holderAccount r
  units : ∀ code r', units code w' r' =
    units code w r' + if r' = r ∧ (w.items x).inst.Code = code then c else 0

/-- `Push` on an item that joins no stack. -/
theorem push_attach (hrun : w.push r x c = some (q, w')) (hnone : w.joinTarget r x = none) :
    q = x ∧ (w.items x).itemBase.isSome ∧ (∃ d, QuietAt x (w.attach r x d) w') ∧
      (w'.items x).inst.OwnerHandle = r.owner ∧ (w'.items x).inst.nOwnerUID = w.holderUid r ∧
        (w'.items x).nAccountID = w.holderAccount r ∧ Pooled w w' x := by
  unfold push at hrun
  rw [hnone] at hrun
  simp only [Option.bind_eq_bind, Option.bind_eq_some_iff, Option.pure_def, Option.some.injEq,
    Prod.mk.injEq] at hrun
  obtain ⟨d, -, w₁, hw₁, rfl, rfl⟩ := hrun
  obtain ⟨hbase, hq⟩ := rawPush_quietAt hw₁
  have hcarry := carry_sameTags x w r x d
  have hper : ((w.carry r x d).players r.owner).persona = (w.players r.owner).persona :=
    ((carry_quietAt x w r x d).persona _).trans (updInv_persona w r _ _)
  obtain ⟨howner, huid, hacc, hpool⟩ := rawPush_tags hw₁
  rw [holderUid_congr hper] at huid
  rw [holderAccount_congr hper] at hacc
  unfold Pooled at hpool
  rw [hcarry.itemPool, hcarry.nItemTop, carry_items] at hpool
  exact ⟨rfl, hbase, ⟨d, hq.trans (.updInv x w₁ r fun _ => rfl)⟩, howner, huid, hacc, hpool⟩

/-- The item `x` is the last one in the list of `r` now, and nothing else about the goods has changed. -/
structure Attached (w w' : World) (r : InvRef) (x : ItemPtr) : Prop where
  list : ∀ r', (w'.inv r').vList = if r' = r then (w.inv r').vList ++ [x] else (w.inv r').vList
  other : ∀ a, a ≠ x → w'.items a = w.items a
  lot : ∀ a, (w'.items a).lot = (w.items a).lot
  persona : ∀ h, (w'.players h).persona = (w.players h).persona
  playerPool : w'.playerPool = w.playerPool
  nextItem : w'.nextItem = w.nextItem
  itemBase : w'.itemBase = w.itemBase

theorem attached_of_quiet (hq : QuietAt x (w.attach r x d) w') : Attached w w' r x where
  list r' := by
    rw [hq.vList]
    split_ifs with hr
    · rw [hr, attach_vList]
    · rw [attach_inv_of_ne _ _ _ hr]
  other a hax := (hq.other a hax).trans (attach_items_of_ne w _ d hax)
  lot a := (hq.toQuiet.lot a).trans (attach_lot w _ x d a)
  persona h := by rw [hq.persona, attach, updItem_players, updInv_persona, updInv_persona]
  playerPool := hq.playerPool
  nextItem := hq.nextItem
  itemBase := hq.itemBase

namespace Attached

variable (ha : Attached w w' r x)

include ha

theorem mem (r' : InvRef) (a : ItemPtr) : a ∈ (w'.inv r').vList ↔ a ∈ (w.inv r').vList ∨ (r' = r ∧ a = x) := by
  rw [ha.list]
  split_ifs with hr
  · simp [hr]
  · simp [hr]

theorem count (a : ItemPtr) : (w'.items a).inst.nCount = (w.items a).inst.nCount := congrArg Item.Lot.nCount (ha.lot a)

theorem code (a : ItemPtr) : (w'.items a).inst.Code = (w.items a).inst.Code := congrArg Item.Lot.Code (ha.lot a)

theorem later (hpool : Pooled w w' x) : Later w w' := by
  refine ⟨ha.persona, ha.playerPool, ?_, fun j hj => ?_, ha.nextItem.ge, ha.itemBase, fun a _ => ha.code a, fun a => ?_⟩
  · rcases hpool with ⟨-, htop, -⟩ | ⟨-, htop, -⟩
    · exact htop.ge
    · rw [htop]
      exact Nat.le_succ _
  · rcases hpool with ⟨hpool, -, -⟩ | ⟨hpool, -, -⟩
    · rw [hpool]
    · rw [hpool]
      exact if_neg hj.ne
  · by_cases hax : a = x
    · rcases hpool with ⟨-, -, hhandle⟩ | ⟨-, -, hhandle⟩
      · exact .inl (hax ▸ hhandle)
      · exact .inr (hax ▸ hhandle.ge)
    · rw [ha.other a hax]
      exact .inl rfl

theorem held (hx : Loose w x) (hpool : Pooled w w' x) (howner : (w'.items x).inst.OwnerHandle = r.owner)
    (huid : (w'.items x).inst.nOwnerUID = w.holderUid r) : Held w' r x := by
  refine ⟨?_, ?_, ha.count x ▸ hx.count, fun _ => ha.code x ▸ hx.coded, fun hk => ⟨howner, ?_⟩⟩
  · rcases hpool with ⟨hpool, -, hhandle⟩ | ⟨hpool, -, hhandle⟩
    · rw [hpool, hhandle]
      exact hx.pooled
    · rw [hpool, hhandle]
      exact if_pos rfl
  · rw [ha.itemBase, ha.code, ← hx.template]
    exact congrArg Item.Lot.itemBase (ha.lot x)
  · rw [huid, (ha.later hpool).uid, holderUid, hk]

theorem worldOk (hok : WorldOk w) (hx : Loose w x) (hpool : Pooled w w' x) (hstocked : ∀ r', Stocked w' r')
    (hheld : Held w' r x) : WorldOk w' := by
  have hin : ∀ {r a}, a ∈ (w.inv r).vList → a ≠ x := fun har heq => hx.loose _ (heq ▸ har)
  have hl := ha.later hpool
  refine hok.later hl hstocked (fun r₁ r₂ a h₁ h₂ => ?_) (fun r' a har => ?_) fun j hj => ?_
  · rcases (ha.mem r₁ a).mp h₁ with h₁ | ⟨rfl, rfl⟩
    · rcases (ha.mem r₂ a).mp h₂ with h₂ | ⟨-, rfl⟩
      · exact hok.apart r₁ r₂ a h₁ h₂
      · exact absurd rfl (hin h₁)
    · rcases (ha.mem r₂ a).mp h₂ with h₂ | ⟨rfl, -⟩
      · exact absurd rfl (hin h₂)
      · rfl
  · rcases (ha.mem r' a).mp har with h₁ | ⟨rfl, rfl⟩
    · refine hok.held_later hl h₁ ?_ ?_
      · rw [ha.other a (hin h₁)]
        exact .refl _
      · rw [ha.count]
        exact (hok.held r' a h₁).count
    · exact hheld
  · rcases hpool with ⟨hpool, htop, -⟩ | ⟨hpool, htop, -⟩
    · rw [hpool]
      exact hok.fresh j (htop ▸ hj)
    · rw [htop] at hj
      rw [hpool]
      exact (if_neg (Nat.lt_of_succ_le hj).ne').trans (hok.fresh j (Nat.le_of_succ_le hj))

theorem units (code : Int) (r' : InvRef) : World.units code w' r' =
    World.units code w r' + if r' = r ∧ (w.items x).inst.Code = code then (w.items x).inst.nCount else 0 := by
  unfold World.units total
  rw [ha.list]
  simp only [ha.lot]
  by_cases hr : r' = r
  · rw [if_pos hr, List.map_append, List.sum_append]
    simp [hr, Item.units_lot]
  · rw [if_neg hr, if_neg fun h => hr h.1, add_zero]

end Attached

/-- The list of every inventory is in order when an item has been attached to one. -/
theorem stocked_of_attach (hok : WorldOk w) (hx : Loose w x) (hbase : (w.items x).itemBase.isSome)
    (hq : QuietAt x (w.attach r x d) w') (r' : InvRef) : Stocked w' r' := by
  refine Stocked.quiet ?_ hq.toQuiet
  by_cases hr : r' = r
  · rw [hr]
    exact (hok.stocked _).attach (hx.loose _) hx.heap hbase d
  · have hinv := attach_inv_of_ne w x d hr
    have hin : ∀ {a}, a ∈ (w.inv r').vList → a ≠ x := fun har heq => hx.loose _ (heq ▸ har)
    exact (hok.stocked r').congr (by rw [hinv]) (by rw [hinv])
      (fun a har => by rw [attach_items_of_ne w _ d (hin har)]) (Nat.le_refl _)

theorem putInto_of_attach (hok : WorldOk w) (hx : Loose w x) (hbase : (w.items x).itemBase.isSome)
    (hq : QuietAt x (w.attach r x d) w') (howner : (w'.items x).inst.OwnerHandle = r.owner)
    (huid : (w'.items x).inst.nOwnerUID = w.holderUid r) (hacc : (w'.items x).nAccountID = w.holderAccount r)
    (hpool : Pooled w w' x) : PutInto w w' r x x (w.items x).inst.nCount := by
  have ha := attached_of_quiet hq
  have hok' := ha.worldOk hok hx hpool (stocked_of_attach hok hx hbase hq) (ha.held hx hpool howner huid)
  refine ⟨hok', ha.later hpool, ha.nextItem, fun k a hk => ?_, fun r' hr => ?_, fun r' a => ?_, fun a hax => ?_, fun a => ?_,
    fun h => absurd rfl h, fun _ => ⟨howner, huid, hacc⟩, ha.units⟩
  · rcases hpool with ⟨hpool, -, -⟩ | ⟨hpool, -, -⟩
    · exact .inr (hpool ▸ hk)
    · rw [hpool] at hk
      dsimp only at hk
      split_ifs at hk
      · exact .inl (Option.some.inj hk).symm
      · exact .inr hk
  · rw [ha.list, if_neg hr]
  · rw [ha.mem]
    simp
  · rw [ha.other a hax]
    exact .refl _
  · rw [ha.count, if_neg fun h => h.2 rfl, add_zero]

/-- `Push` on an item that joins a stack. -/
theorem push_join {e : ItemPtr} (hrun : w.push r x c = some (q, w')) (hjoin : w.joinTarget r x = some e) :
    q = e ∧ Lib.IsInt64 ((w.items e).inst.nCount + c) ∧
      Recounted w w' e ((w.items e).inst.nCount + c) := by
  unfold push at hrun
  rw [hjoin] at hrun
  simp only [Option.bind_eq_bind, Option.bind_eq_some_iff, Option.pure_def, Option.some.injEq,
    Prod.mk.injEq, Lib.add64_eq_some] at hrun
  obtain ⟨d, -, n, ⟨hfit, rfl⟩, rfl, rfl⟩ := hrun
  exact ⟨rfl, hfit, carry_setCount_recounted w r e _ d⟩

theorem putInto_of_join {e : ItemPtr} (hok : WorldOk w) (hx : Loose w x) (hjoin : w.joinTarget r x = some e)
    (hfit : Lib.IsInt64 ((w.items e).inst.nCount + c))
    (hs : Recounted w w' e ((w.items e).inst.nCount + c)) : PutInto w w' r x e c := by
  obtain ⟨he, hcode⟩ := joinTarget_eq_some hjoin
  have hex : e ≠ x := fun heq => hx.loose _ (heq ▸ he)
  refine ⟨hs.worldOk hok hfit, hs.later, hs.nextItem, fun k a hk => .inr (hs.itemPool ▸ hk),
    fun r' _ => hs.vList r', fun r' a => ?_,
    fun a _ => hs.alike a, fun a => ?_, fun _ => ⟨he, hcode, hs.other hex.symm⟩, fun h => absurd h hex,
    fun code r' => ?_⟩
  · rw [hs.vList]
    exact ⟨.inl, fun h => h.resolve_right fun h => hex h.2.2⟩
  · by_cases hae : a = e
    · rw [hae, hs.count, if_pos ⟨rfl, hex⟩]
    · rw [hs.other hae, if_neg fun h => hae h.1, add_zero]
  · rw [hs.units hok he code r', hcode]
    split_ifs <;> omega

/-- `Push` on a loose item, with the count it has. -/
theorem push_putInto (hok : WorldOk w) (hx : Loose w x)
    (hrun : w.push r x (w.items x).inst.nCount = some (q, w')) :
    PutInto w w' r x q (w.items x).inst.nCount := by
  cases hjoin : w.joinTarget r x with
  | none =>
    obtain ⟨rfl, hbase, ⟨d, hq⟩, howner, huid, hacc, hpool⟩ := push_attach hrun hjoin
    exact putInto_of_attach hok hx hbase hq howner huid hacc hpool
  | some e =>
    obtain ⟨rfl, hfit, hs⟩ := push_join hrun hjoin
    exact putInto_of_join hok hx hjoin hfit hs

end RZEmulator.Chihiro.World
