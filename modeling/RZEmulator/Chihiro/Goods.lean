import RZEmulator.Chihiro.Registry

/-!
# Goods over time

`Later` is what holds between a world and every world that moving goods makes of it: nobody changes in
person, handles still mean what they meant, no item turns into something else. A well-formed world has to be
looked at again only for its inventories and its pool (`WorldOk.later`).

Two changes are shared by what comes and what goes: a stack is counted anew, and a stack is split.
-/

namespace RZEmulator.Chihiro

namespace Item

/-- The item names nobody whose inventory it is in. -/
def isFree (i : Item) : Bool := !i.isInInventory && !i.isInStorage

theorem isFree_of_tag {i : Item} {handle : Handle} (h : i.tag = ⟨handle, 0, 0, 0⟩) : i.isFree = true := by
  simp only [tag, Tag.mk.injEq] at h
  obtain ⟨-, -, huid, hacc⟩ := h
  simp [isFree, isInInventory, isInStorage, huid, hacc]

theorem Alike.isFree {i j : Item} (h : Alike i j) : j.isFree = i.isFree := by
  rw [Item.isFree, h.isInInventory, h.isInStorage, Item.isFree]

end Item

namespace World

open Item (Alike)

variable {w w' w₁ w₂ : World} {r r' : InvRef} {p q x : ItemPtr} {g k h : Handle} {c cnt code : Int} {d : ℚ}

/-- The player's storage. -/
abbrev locker (h : Handle) : InvRef := ⟨h, .storage⟩

/-- The units of an item code in an inventory. -/
abbrev units (code : Int) (w : World) (r : InvRef) : Int := total (Item.Lot.units code) w r

/-- The world after goods have moved: players are who they were, handles still mean what they meant, and
no item turns into something else. -/
structure Later (w w' : World) : Prop where
  persona : ∀ h, (w'.players h).persona = (w.players h).persona
  playerPool : w'.playerPool = w.playerPool
  nItemTop : w.nItemTop ≤ w'.nItemTop
  itemPool : ∀ k < w.nItemTop, w'.itemPool k = w.itemPool k
  nextItem : w.nextItem ≤ w'.nextItem
  itemBase : w'.itemBase = w.itemBase
  Code : ∀ q < w.nextItem, (w'.items q).inst.Code = (w.items q).inst.Code
  handle : ∀ q, (w'.items q).handle = (w.items q).handle ∨ w.nItemTop ≤ (w'.items q).handle

namespace Later

theorem refl (w : World) : Later w w :=
  ⟨fun _ => rfl, rfl, Nat.le_refl _, fun _ _ => rfl, Nat.le_refl _, rfl, fun _ _ => rfl,
    fun _ => .inl rfl⟩

theorem trans (h₁ : Later w w₁) (h₂ : Later w₁ w₂) : Later w w₂ where
  persona h := (h₂.persona h).trans (h₁.persona h)
  playerPool := h₂.playerPool.trans h₁.playerPool
  nItemTop := h₁.nItemTop.trans h₂.nItemTop
  itemPool k hk := (h₂.itemPool k (hk.trans_le h₁.nItemTop)).trans (h₁.itemPool k hk)
  nextItem := h₁.nextItem.trans h₂.nextItem
  itemBase := h₂.itemBase.trans h₁.itemBase
  Code q hq := (h₂.Code q (hq.trans_le h₁.nextItem)).trans (h₁.Code q hq)
  handle q := by
    rcases h₂.handle q with h | h
    · rw [h]
      exact h₁.handle q
    · exact .inr (h₁.nItemTop.trans h)

theorem uid (hl : Later w w') (h : Handle) : (w'.players h).uid = (w.players h).uid :=
  congrArg Player.Persona.uid (hl.persona h)

theorem nGold (hl : Later w w') (h : Handle) : (w'.players h).nGold = (w.players h).nGold :=
  congrArg Player.Persona.nGold (hl.persona h)

theorem trade (hl : Later w w') (h : Handle) : (w'.players h).trade = (w.players h).trade :=
  congrArg Player.Persona.trade (hl.persona h)

theorem inWorld (hl : Later w w') (h : Handle) : (w'.players h).inWorld = (w.players h).inWorld :=
  congrArg Player.Persona.inWorld (hl.persona h)

theorem aBindSummonCard (hl : Later w w') (h : Handle) :
    (w'.players h).aBindSummonCard = (w.players h).aBindSummonCard :=
  congrArg Player.Persona.aBindSummonCard (hl.persona h)

end Later

/-- Of a well-formed world only the inventories and the pool have to be looked at again. -/
theorem WorldOk.later (hok : WorldOk w) (hl : Later w w') (hstocked : ∀ r, Stocked w' r)
    (hapart : ∀ r r' p, p ∈ (w'.inv r).vList → p ∈ (w'.inv r').vList → r = r')
    (hheld : ∀ r, ∀ p ∈ (w'.inv r).vList, Held w' r p)
    (hfresh : ∀ k, w'.nItemTop ≤ k → w'.itemPool k = none) : WorldOk w' where
  stocked := hstocked
  apart := hapart
  held := hheld
  fresh := hfresh
  gold h hh := by
    rw [hl.nGold]
    exact hok.gold h (hl.playerPool ▸ hh)
  uid h hh := by
    rw [hl.uid]
    exact hok.uid h (hl.playerPool ▸ hh)
  uid_inj h k hh hk heq := by
    rw [hl.uid, hl.uid] at heq
    exact hok.uid_inj h k (hl.playerPool ▸ hh) (hl.playerPool ▸ hk) heq
  window h hh := by
    rw [hl.trade]
    exact hok.window h (hl.playerPool ▸ hh)

theorem WorldOk.held_later (hok : WorldOk w) (hl : Later w w') (hq : q ∈ (w.inv r).vList)
    (halike : Alike (w.items q) (w'.items q)) (hcount : Lib.IsInt64 (w'.items q).inst.nCount) :
    Held w' r q := by
  have hheld := hok.held r q hq
  refine ⟨?_, ?_, hcount, fun hr => ?_, fun hr => ?_⟩
  · rw [halike.handle, hl.itemPool _ (hok.handle_lt hq)]
    exact hheld.pooled
  · rw [halike.itemBase, halike.Code, hl.itemBase]
    exact hheld.template
  · rw [halike.Code]
    exact hheld.coded hr
  · rw [halike.OwnerHandle, halike.nOwnerUID, hl.uid]
    exact hheld.owned hr

theorem WorldOk.mem_bag (hok : WorldOk w) (hp : p ∈ (w.inv r).vList) :
    p ∈ (w.inv r').vList ↔ r' = r :=
  ⟨fun hp' => hok.apart r' r p hp' hp, fun heq => heq ▸ hp⟩

/-! ## Counting anew -/

/-- The stack `p` counts `n`; of everything else at most the weights are different. -/
structure Recounted (w w' : World) (p : ItemPtr) (n : Int) : Prop where
  items : ∀ q, w'.items q = if q = p then (w.items p).setCount n else w.items q
  vList : ∀ r, (w'.inv r).vList = (w.inv r).vList
  vExpireItemList : ∀ r, (w'.inv r).vExpireItemList = (w.inv r).vExpireItemList
  persona : ∀ h, (w'.players h).persona = (w.players h).persona
  playerPool : w'.playerPool = w.playerPool
  itemBase : w'.itemBase = w.itemBase
  nextItem : w'.nextItem = w.nextItem
  itemPool : w'.itemPool = w.itemPool
  nItemTop : w'.nItemTop = w.nItemTop

theorem carry_setCount_recounted (w : World) (r : InvRef) (p : ItemPtr) (n : Int) (d : ℚ) :
    Recounted w ((w.carry r p d).setCount r p n) p n := by
  have hq := carry_setCount_quietAt w r p n d
  have htags := carry_sameTags p w r p d
  refine ⟨fun q => ?_, fun r' => ?_, fun r' => ?_, fun h => ?_, hq.playerPool, hq.itemBase, hq.nextItem,
    htags.itemPool, htags.nItemTop⟩
  · show ((w.carry r p d).updItem p (·.setCount n)).items q = _
    rw [updItem_items, carry_items]
  · rw [hq.vList, recount_vList]
  · rw [hq.vExpireItemList, recount_vExpireItemList]
  · rw [hq.persona, recount, updItem_players, updInv_persona]

namespace Recounted

variable {n : Int} (hs : Recounted w w' p n)

include hs

theorem other (hqp : q ≠ p) : w'.items q = w.items q := by
  rw [hs.items, if_neg hqp]

theorem alike (q : ItemPtr) : Alike (w.items q) (w'.items q) := by
  by_cases hqp : q = p
  · rw [hs.items, if_pos hqp, hqp]
    exact .setCount _ _
  · rw [hs.other hqp]
    exact .refl _

theorem count : (w'.items p).inst.nCount = n := by
  rw [hs.items, if_pos rfl]
  rfl

theorem later : Later w w' :=
  ⟨hs.persona, hs.playerPool, hs.nItemTop.ge, fun j _ => by rw [hs.itemPool], hs.nextItem.ge, hs.itemBase,
    fun q _ => (hs.alike q).Code, fun q => .inl (hs.alike q).handle⟩

theorem worldOk (hok : WorldOk w) (hfit : Lib.IsInt64 n) : WorldOk w' := by
  refine hok.later hs.later (fun r => ?_) (fun r r' q hq hq' => ?_) (fun r q hq => ?_) fun j hj => ?_
  · refine ((hok.stocked r).recount r p n 0).congr ?_ ?_ (fun q _ => ?_) hs.nextItem.ge
    · rw [hs.vList, recount_vList]
    · rw [hs.vExpireItemList, recount_vExpireItemList]
    · rw [hs.items, recount_items]
  · rw [hs.vList] at hq hq'
    exact hok.apart r r' q hq hq'
  · rw [hs.vList] at hq
    refine hok.held_later hs.later hq (hs.alike q) ?_
    by_cases hqp : q = p
    · rw [hqp, hs.count]
      exact hfit
    · rw [hs.other hqp]
      exact (hok.held r q hq).count
  · rw [hs.itemPool]
    exact hok.fresh j (hs.nItemTop ▸ hj)

theorem units (hok : WorldOk w) (hp : p ∈ (w.inv r).vList) (code : Int) (r' : InvRef) :
    units code w' r' = units code w r' +
      if r' = r ∧ (w.items p).inst.Code = code then n - (w.items p).inst.nCount else 0 := by
  unfold World.units
  by_cases hr : r' = r
  · subst hr
    have hsame : total (Item.Lot.units code) w' r' = total (Item.Lot.units code) (w.recount r' p n 0) r' :=
      total_congr _ (by rw [hs.vList, recount_vList]) fun q _ => by rw [hs.items, recount_items]
    have hrec := total_recount (Item.Lot.units code) (hok.stocked r') hp n 0
    rw [Item.units_lot, Item.units_withCount] at hrec
    rw [hsame]
    by_cases hcode : (w.items p).inst.Code = code
    · rw [if_pos hcode, if_pos hcode] at hrec
      rw [if_pos ⟨rfl, hcode⟩]
      omega
    · rw [if_neg hcode, if_neg hcode] at hrec
      rw [if_neg fun h => hcode h.2]
      omega
  · rw [if_neg fun h => hr h.1, add_zero]
    refine total_congr _ (hs.vList r') fun q hq => ?_
    rw [hs.other fun heq => hr ((hok.mem_bag hp).mp (heq ▸ hq))]

end Recounted

/-! ## A stack is split -/

/-- The new item of a split. -/
theorem divide_items_new (w : World) (p : ItemPtr) (c : Int) :
    ((w.divide p c).items w.nextItem).lot =
        ⟨w.itemBase (w.items p).inst.Code, (w.items p).inst.Code, c⟩ ∧
      ((w.divide p c).items w.nextItem).tag = ⟨w.nItemTop, 0, 0, 0⟩ := by
  rw [divide, updItem_items_same]
  simp only [allocItem, if_pos]
  cases w.itemBase (w.items p).inst.Code <;> exact ⟨rfl, rfl⟩

theorem divide_handle_new (w : World) (p : ItemPtr) (c : Int) :
    ((w.divide p c).items w.nextItem).handle = w.nItemTop :=
  congrArg Item.Tag.handle (divide_items_new w p c).2

theorem divide_later (w : World) (p : ItemPtr) (c : Int) : Later w (w.divide p c) := by
  refine ⟨fun _ => rfl, rfl, Nat.le_succ _, fun j hj => if_neg hj.ne, Nat.le_succ _, rfl,
    fun q hq => by rw [divide_items_of_ne w p c hq.ne], fun q => ?_⟩
  by_cases hq : q = w.nextItem
  · rw [hq, divide_handle_new]
    exact .inr (Nat.le_refl _)
  · exact .inl (by rw [divide_items_of_ne w p c hq])

theorem WorldOk.divide (hok : WorldOk w) (p : ItemPtr) (c : Int) : WorldOk (w.divide p c) := by
  refine hok.later (divide_later w p c) (fun r => (hok.stocked r).divide p c) hok.apart (fun r q hq => ?_)
    fun j hj => ?_
  · have hq' : q ∈ (w.inv r).vList := hq
    have hsame := divide_items_of_ne w p c ((hok.stocked r).heap q hq').ne
    refine hok.held_later (divide_later w p c) hq' ?_ ?_
    · rw [hsame]
      exact .refl _
    · rw [hsame]
      exact (hok.held r q hq').count
  · have hlt : w.nItemTop < j := Nat.lt_of_succ_le hj
    exact (if_neg hlt.ne').trans (hok.fresh j hlt.le)

end World

end RZEmulator.Chihiro
