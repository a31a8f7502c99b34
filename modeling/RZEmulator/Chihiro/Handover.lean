import RZEmulator.Chihiro.Arrival

/-!
# An item changes hands

What `popItem`, `pushItem` and `GiveItem` do in a well-formed world, for a positive count. `Popped` and
`Pushed` say it for the two halves: which items stay, which leave and enter, and how the units of an item
code move. `Gave` is their composition, and everything about a trade's item phase is proved from it.
-/

namespace RZEmulator.Chihiro.World

open Item (Alike)

variable {w w' w₁ w₂ : World} {r r' : InvRef} {p q x : ItemPtr} {g k h : Handle} {c cnt code : Int}

/-! ## Popping -/

/-- The item `x` with the count `c` has left the bag of `g`, where `p` was the stack; it is in no
inventory, and nobody else has lost anything. -/
structure Popped (w w' : World) (g : Handle) (p x : ItemPtr) (c : Int) : Prop where
  ok : WorldOk w'
  later : Later w w'
  loose : ∀ r, x ∉ (w'.inv r).vList
  heap : x < w'.nextItem
  pooled : w'.itemPool (w'.items x).handle = some x
  lot : (w'.items x).lot = (w.items p).lot.withCount c
  owner : (w'.items x).inst.nOwnerUID = (w.items p).inst.nOwnerUID ∨ (w'.items x).inst.nOwnerUID = 0
  sub : ∀ r, ∀ q ∈ (w'.inv r).vList, q ∈ (w.inv r).vList
  kept : ∀ r, ∀ q ∈ (w.inv r).vList, q ≠ p → q ∈ (w'.inv r).vList ∧
    Alike (w.items q) (w'.items q) ∧ (w'.items q).inst.nCount = (w.items q).inst.nCount
  rest : p ∈ (w'.inv (bag g)).vList →
    Alike (w.items p) (w'.items p) ∧ (w'.items p).inst.nCount = (w.items p).inst.nCount - c
  units : ∀ code r, units code w' r =
    units code w r - if r = bag g ∧ (w.items p).inst.Code = code then c else 0

theorem TakenFrom.popped (hok : WorldOk w) (ht : TakenFrom w w' (bag g) p x c) : Popped w w' g p x c where
  ok := ht.ok
  later := ht.later
  loose := ht.loose
  heap := ht.heap
  pooled := ht.pooled
  lot := ht.lot
  owner := ht.owner
  sub r q hq := ((ht.mem r q).mp hq).1
  kept r q hq hqp := by
    obtain ⟨hqx, hmem⟩ := ht.stays hok hq hqp
    refine ⟨hmem, ht.alike q hqx, ?_⟩
    rw [ht.count q hqx, if_neg hqp, sub_zero]
  rest hp := by
    have hpx : p ≠ x := ((ht.mem _ p).mp hp).2
    refine ⟨ht.alike p hpx, ?_⟩
    rw [ht.count p hpx, if_pos rfl]
  units := ht.units

/-- `popItem` on an item of the bag, for no more than there is of it. -/
theorem popItem_popped {o : Option ItemPtr} (hok : WorldOk w) (hp : p ∈ (w.inv (bag g)).vList)
    (hle : c ≤ (w.items p).inst.nCount) (hrun : w.popItem g p c = some (o, w')) :
    ∃ x, o = some x ∧ Popped w w' g p x c := by
  rw [popItem, if_pos hle] at hrun
  obtain ⟨x, rfl, ht⟩ := pop_takenFrom hok hp hle hrun
  exact ⟨x, rfl, ht.popped hok⟩

theorem Popped.looseItem (hok : WorldOk w) (hp : p ∈ (w.inv (bag g)).vList) (hpop : Popped w w' g p x c)
    (hc : Lib.IsInt64 c) : Loose w' x :=
  .of_lot hok hp hpop.later hpop.lot ((hok.held _ p hp).coded rfl) hc hpop.loose hpop.heap hpop.pooled

/-! ## Pushing -/

/-- The loose item `x` has come to the bag of `k`, or `c` units have joined a stack of its code there. -/
structure Pushed (w w' : World) (k : Handle) (x : ItemPtr) (c : Int) : Prop where
  ok : WorldOk w'
  later : Later w w'
  kept : ∀ r, ∀ q ∈ (w.inv r).vList, q ∈ (w'.inv r).vList ∧ Alike (w.items q) (w'.items q)
  other : ∀ r, r ≠ bag k → (w'.inv r).vList = (w.inv r).vList ∧
    ∀ q ∈ (w.inv r).vList, (w'.items q).inst.nCount = (w.items q).inst.nCount
  entered : ∀ q ∈ (w'.inv (bag k)).vList,
    (q ∈ (w.inv (bag k)).vList ∧ ((w'.items q).inst.nCount = (w.items q).inst.nCount ∨
      (w.items q).inst.Code = (w.items x).inst.Code ∧
        (w'.items q).inst.nCount = (w.items q).inst.nCount + c)) ∨
    (q = x ∧ (w'.items q).inst.nCount = c)
  units : ∀ code r, units code w' r =
    units code w r + if r = bag k ∧ (w.items x).inst.Code = code then c else 0

theorem PutInto.pushed (hok : WorldOk w) (hx : ∀ r, x ∉ (w.inv r).vList) (hp : PutInto w w' (bag k) x q (w.items x).inst.nCount) :
    Pushed w w' k x (w.items x).inst.nCount where
  ok := hp.ok
  later := hp.later
  kept r a ha := ⟨(hp.mem r a).mpr (.inl ha), hp.alike a fun heq => hx r (heq ▸ ha)⟩
  other r hr := by
    refine ⟨hp.other r hr, fun a ha => ?_⟩
    rw [hp.count a]
    split_ifs with hjoin
    · exact absurd ((hok.mem_bag (hp.joined hjoin.2).1).mp (hjoin.1 ▸ ha)) hr
    · exact add_zero _
  entered a ha := by
    rw [hp.count a]
    rcases (hp.mem _ a).mp ha with ha | ⟨-, rfl, hqa⟩
    · refine .inl ⟨ha, ?_⟩
      split_ifs with hjoin
      · exact .inr ⟨hjoin.1 ▸ (hp.joined hjoin.2).2.1, rfl⟩
      · exact .inl (add_zero _)
    · refine .inr ⟨rfl, ?_⟩
      rw [if_neg fun h => h.2 hqa, add_zero]
  units := hp.units

theorem Pushed.after_touch (hx : ∀ r, x ∉ (w.inv r).vList) (ht : Touched x w w₁)
    (hpush : Pushed w₁ w' k x c) : Pushed w w' k x c := by
  have hlist := ht.quiet.vList
  have hsame : ∀ {r q}, q ∈ (w.inv r).vList → w₁.items q = w.items q := fun hq =>
    ht.quiet.other _ fun heq => hx _ (heq ▸ hq)
  have hcode : (w₁.items x).inst.Code = (w.items x).inst.Code := congrArg Item.Lot.Code (ht.quiet.lot x)
  refine ⟨hpush.ok, ht.later.trans hpush.later, fun r q hq => ?_, fun r hr => ?_, fun q hq => ?_,
    fun code r => ?_⟩
  · exact hsame hq ▸ hpush.kept r q (hlist r ▸ hq)
  · obtain ⟨hvlist, hcount⟩ := hpush.other r hr
    exact ⟨hvlist.trans (hlist r), fun q hq => hsame hq ▸ hcount q (hlist r ▸ hq)⟩
  · rcases hpush.entered q hq with ⟨hqk, hcount⟩ | hnew
    · rw [hlist] at hqk
      rw [hsame hqk, hcode] at hcount
      exact .inl ⟨hqk, hcount⟩
    · exact .inr hnew
  · have hunits : World.units code w₁ r = World.units code w r := total_quiet _ ht.quiet.toQuiet
    rw [hpush.units code r, hunits, hcode]

theorem Pushed.before_touch (hx : ∀ r, x ∉ (w₁.inv r).vList) (hpush : Pushed w w₁ k x c)
    (ht : Touched x w₁ w') : Pushed w w' k x c := by
  have hlist := ht.quiet.vList
  have hsame : ∀ {r q}, q ∈ (w₁.inv r).vList → w'.items q = w₁.items q := fun hq =>
    ht.quiet.other _ fun heq => hx _ (heq ▸ hq)
  refine ⟨ht.worldOk hpush.ok hx, hpush.later.trans ht.later, fun r q hq => ?_, fun r hr => ?_,
    fun q hq => ?_, fun code r => ?_⟩
  · obtain ⟨hmem, halike⟩ := hpush.kept r q hq
    exact ⟨(hlist r).symm ▸ hmem, (hsame hmem).symm ▸ halike⟩
  · obtain ⟨hvlist, hcount⟩ := hpush.other r hr
    exact ⟨(hlist r).trans hvlist, fun q hq => (hsame (hvlist.symm ▸ hq)).symm ▸ hcount q hq⟩
  · rw [hlist] at hq
    rw [hsame hq]
    exact hpush.entered q hq
  · have hunits : World.units code w' r = World.units code w₁ r := total_quiet _ ht.quiet.toQuiet
    rw [hunits, hpush.units code r]

/-- `PushItem` on a loose item that is not the player's, and the release of the object if it was joined. -/
theorem pushItem_pushed {o : Option ItemPtr} (hok : WorldOk w) (hx : Loose w x)
    (howner : (w.items x).inst.nOwnerUID % 2 ^ 32 ≠ (w.players k).uid)
    (hrun : w.pushItem k x (w.items x).inst.nCount = some (o, w')) :
    ∃ q, o = some q ∧ Pushed w w' k x (w.items x).inst.nCount ∧
      (q ≠ x → ∀ r, x ∉ (w'.inv r).vList) := by
  rw [pushItem, if_neg howner, if_neg hx.coded] at hrun
  obtain ⟨⟨q, w₂⟩, hpush, heq⟩ := Option.map_eq_some_iff.mp hrun
  obtain ⟨rfl, rfl⟩ := Prod.mk.inj heq
  have ht := Touched.assignIdx w k x
  have hx' := ht.loose hx
  have hok' := ht.worldOk hok hx.loose
  have hcount : ((w.assignIdx k x).items x).inst.nCount = (w.items x).inst.nCount :=
    congrArg Item.Lot.nCount (ht.quiet.lot x)
  rw [← hcount] at hpush
  have hput := push_putInto hok' hx' hpush
  have hpushed := hput.pushed hok' hx'.loose
  rw [hcount] at hpushed
  refine ⟨q, rfl, hpushed.after_touch hx.loose ht, fun hqx r hmem => ?_⟩
  exact ((hput.mem r x).mp hmem).elim (hx'.loose r) fun h => hqx h.2.2

/-! ## Giving -/

/-- `g` has given `c` of the stack `p` to `k`. -/
structure Gave (w w' : World) (g k : Handle) (p : ItemPtr) (c : Int) : Prop where
  ok : WorldOk w'
  later : Later w w'
  left : ∀ q ∈ (w'.inv (bag g)).vList, q ∈ (w.inv (bag g)).vList ∧ Alike (w.items q) (w'.items q) ∧
    (w'.items q).inst.nCount = (w.items q).inst.nCount - if q = p then c else 0
  stays : ∀ q ∈ (w.inv (bag g)).vList, q ≠ p → q ∈ (w'.inv (bag g)).vList
  keeps : ∀ q ∈ (w.inv (bag k)).vList, q ∈ (w'.inv (bag k)).vList ∧ Alike (w.items q) (w'.items q)
  entered : ∀ q ∈ (w'.inv (bag k)).vList,
    (q ∈ (w.inv (bag k)).vList ∧ ((w'.items q).inst.nCount = (w.items q).inst.nCount ∨
      (w.items q).inst.Code = (w.items p).inst.Code ∧
        (w'.items q).inst.nCount = (w.items q).inst.nCount + c)) ∨
    (q ∉ (w.inv (bag k)).vList ∧ (w'.items q).inst.Code = (w.items p).inst.Code ∧
      (w'.items q).inst.nCount = c)
  units : ∀ code r, units code w' r = units code w r +
    (if r = bag k ∧ (w.items p).inst.Code = code then c else 0) -
    (if r = bag g ∧ (w.items p).inst.Code = code then c else 0)

theorem Gave.of_popped_pushed (hok : WorldOk w) (hne : g ≠ k) (hp : p ∈ (w.inv (bag g)).vList)
    (hpop : Popped w w₁ g p x c) (hpush : Pushed w₁ w' k x c) : Gave w w' g k p c := by
  have hgk : bag g ≠ bag k := fun heq => hne (congrArg InvRef.owner heq)
  have hcode : (w₁.items x).inst.Code = (w.items p).inst.Code := congrArg Item.Lot.Code hpop.lot
  have hpk : ∀ q ∈ (w.inv (bag k)).vList, q ≠ p := fun q hq heq =>
    hgk ((hok.mem_bag (heq ▸ hq)).mp hp)
  obtain ⟨hlist, hcounts⟩ := hpush.other (bag g) hgk
  refine ⟨hpush.ok, hpop.later.trans hpush.later, fun q hq => ?_, fun q hq hqp => ?_, fun q hq => ?_,
    fun q hq => ?_, fun code r => ?_⟩
  · rw [hlist] at hq
    have hq₀ := hpop.sub _ q hq
    refine ⟨hq₀, ?_⟩
    rw [hcounts q hq]
    by_cases hqp : q = p
    · subst hqp
      obtain ⟨halike, hcount⟩ := hpop.rest hq
      rw [if_pos rfl]
      exact ⟨halike.trans (hpush.kept _ q hq).2, hcount⟩
    · obtain ⟨-, halike, hcount⟩ := hpop.kept _ q hq₀ hqp
      rw [if_neg hqp, sub_zero]
      exact ⟨halike.trans (hpush.kept _ q hq).2, hcount⟩
  · rw [hlist]
    exact (hpop.kept _ q hq hqp).1
  · obtain ⟨hmem, halike, -⟩ := hpop.kept _ q hq (hpk q hq)
    obtain ⟨hmem', halike'⟩ := hpush.kept _ q hmem
    exact ⟨hmem', halike.trans halike'⟩
  · rcases hpush.entered q hq with ⟨hqk, hcount⟩ | ⟨rfl, hcount⟩
    · have hqk₀ := hpop.sub _ q hqk
      obtain ⟨-, halike, hcount₀⟩ := hpop.kept _ q hqk₀ (hpk q hqk₀)
      rw [hcount₀, halike.Code, hcode] at hcount
      exact .inl ⟨hqk₀, hcount⟩
    · refine .inr ⟨fun hqk => ?_, (hpush.later.Code q hpop.heap).trans hcode, hcount⟩
      exact hpop.loose _ (hpop.kept _ q hqk (hpk q hqk)).1
  · rw [hpush.units, hpop.units, hcode]
    omega

/-- Nobody else owns a popped item. -/
theorem Popped.stranger (hok : WorldOk w) (hg : w.playerPool g = true) (hk : w.playerPool k = true)
    (hne : g ≠ k) (hp : p ∈ (w.inv (bag g)).vList) (hpop : Popped w w₁ g p x c) :
    (w₁.items x).inst.nOwnerUID % 2 ^ 32 ≠ (w₁.players k).uid := by
  obtain ⟨hpos, hlt⟩ := hok.uid g hg
  have hkpos := (hok.uid k hk).1
  have hdiff : (w.players g).uid ≠ (w.players k).uid := fun heq => hne (hok.uid_inj g k hg hk heq)
  rw [hpop.later.uid]
  rcases hpop.owner with howner | howner
  · rw [howner, ((hok.held _ p hp).owned rfl).2, Int.emod_eq_of_lt hpos.le hlt]
    exact hdiff
  · rw [howner]
    exact hkpos.ne

/-- **What handing an item over does.** -/
theorem handOver_gave (hok : WorldOk w) (hg : w.playerPool g = true) (hk : w.playerPool k = true)
    (hne : g ≠ k) (hp : p ∈ (w.inv (bag g)).vList) (hle : c ≤ (w.items p).inst.nCount)
    (hc : Lib.IsInt64 c) (hrun : w.handOver g k p c = some w') : Gave w w' g k p c := by
  obtain ⟨⟨o, w₁⟩, hpopItem, hrun⟩ := Option.bind_eq_some_iff.mp hrun
  obtain ⟨x, rfl, hpop⟩ := popItem_popped hok hp hle hpopItem
  obtain ⟨⟨o, w₂⟩, hpushItem, rfl⟩ := Option.map_eq_some_iff.mp hrun
  have ht : Touched x w₁ (w₁.updItem x (·.setIdx 0)) := .updItem w₁ x (fun _ => rfl) fun _ => rfl
  have hx := ht.loose (hpop.looseItem hok hp hc)
  have hcount : ((w₁.updItem x (·.setIdx 0)).items x).inst.nCount = c := by
    rw [updItem_items_same]
    exact congrArg Item.Lot.nCount hpop.lot
  have hstranger : ((w₁.updItem x (·.setIdx 0)).items x).inst.nOwnerUID % 2 ^ 32 ≠
      ((w₁.updItem x (·.setIdx 0)).players k).uid := by
    rw [updItem_items_same]
    exact hpop.stranger hok hg hk hne hp
  rw [← hcount] at hpushItem
  obtain ⟨q, rfl, hpush, hfreed⟩ := pushItem_pushed (ht.worldOk hpop.ok hpop.loose) hx hstranger hpushItem
  rw [hcount] at hpush
  have hmoved := hpush.after_touch hpop.loose ht
  dsimp only
  split_ifs with hqx
  · exact .of_popped_pushed hok hne hp hpop
      (hmoved.before_touch (hfreed hqx) (.updItem w₂ x (fun _ => rfl) fun _ => rfl))
  · exact .of_popped_pushed hok hne hp hpop hmoved

theorem pushItem_isSome (hx : Loose w x) (hok : WorldOk w) (hbase : (w.items x).itemBase.isSome)
    (howner : (w.items x).inst.nOwnerUID % 2 ^ 32 ≠ (w.players k).uid)
    (hroom : ∀ e ∈ (w.inv (bag k)).vList, (w.items e).inst.Code = (w.items x).inst.Code →
      Lib.IsInt64 ((w.items e).inst.nCount + c)) : (w.pushItem k x c).isSome := by
  have ht := Touched.assignIdx w k x
  rw [pushItem, if_neg howner, if_neg hx.coded, Option.isSome_map]
  refine push_isSome ?_ fun e he => ?_
  · rw [← Item.lot_itemBase, ht.quiet.toQuiet.lot]
    exact hbase
  · obtain ⟨hmem, hcode⟩ := joinTarget_eq_some he
    rw [ht.quiet.vList] at hmem
    have hex : e ≠ x := fun heq => hx.loose _ (heq ▸ hmem)
    have hcodex : ((w.assignIdx k x).items x).inst.Code = (w.items x).inst.Code :=
      congrArg Item.Lot.Code (ht.quiet.lot x)
    rw [ht.quiet.other e hex] at hcode ⊢
    exact ⟨(hok.stocked _).based e hmem, hroom e hmem (hcode.trans hcodex)⟩

/-- Handing an item over has a result where no stack overflows. -/
theorem handOver_isSome (hok : WorldOk w) (hg : w.playerPool g = true) (hk : w.playerPool k = true)
    (hne : g ≠ k) (hp : p ∈ (w.inv (bag g)).vList) (hpos : 1 ≤ c) (hle : c ≤ (w.items p).inst.nCount)
    (hroom : ∀ e ∈ (w.inv (bag k)).vList, (w.items e).inst.Code = (w.items p).inst.Code →
      (w.items e).inst.nCount + c < 2 ^ 63) : (w.handOver g k p c).isSome := by
  have hst := hok.stocked (bag g)
  have hfit := (hok.held _ p hp).count
  have hc : Lib.IsInt64 c := by
    unfold Lib.IsInt64 at *
    omega
  have hpopped : (w.popItem g p c).isSome := by
    rw [popItem, if_pos hle]
    exact pop_isSome (hst.check hp) (hst.based p hp) hfit (by omega)
  obtain ⟨⟨o, w₁⟩, hpopItem⟩ := Option.isSome_iff_exists.mp hpopped
  obtain ⟨x, rfl, hpop⟩ := popItem_popped hok hp hle hpopItem
  have ht : Touched x w₁ (w₁.updItem x (·.setIdx 0)) := .updItem w₁ x (fun _ => rfl) fun _ => rfl
  rw [handOver, hpopItem, Option.bind_some]
  simp only [Option.bind_some, Option.isSome_map]
  refine pushItem_isSome (ht.loose (hpop.looseItem hok hp hc)) (ht.worldOk hpop.ok hpop.loose) ?_ ?_
    fun e he hcode => ?_
  · have hbase : (w₁.items x).itemBase = (w.items p).itemBase := congrArg Item.Lot.itemBase hpop.lot
    rw [updItem_items_same]
    exact hbase ▸ hst.based p hp
  · rw [updItem_items_same]
    exact hpop.stranger hok hg hk hne hp
  · have he₁ : e ∈ (w₁.inv (bag k)).vList := he
    have he₀ := hpop.sub _ e he₁
    have hep : e ≠ p := by
      rintro rfl
      exact hne (congrArg InvRef.owner ((hok.mem_bag hp).mp he₀)).symm
    have hex : e ≠ x := fun heq => hpop.loose _ (heq ▸ he₁)
    obtain ⟨-, halike, hcount⟩ := hpop.kept _ e he₀ hep
    have hcodex : (w₁.items x).inst.Code = (w.items p).inst.Code := congrArg Item.Lot.Code hpop.lot
    rw [updItem_items_of_ne _ _ _ hex, updItem_items_same] at hcode
    rw [updItem_items_of_ne _ _ _ hex, hcount]
    have hlow := (hok.held _ e he₀).count.1
    have hup := hroom e he₀ (halike.Code.symm.trans (hcode.trans hcodex))
    unfold Lib.IsInt64
    omega

end RZEmulator.Chihiro.World
