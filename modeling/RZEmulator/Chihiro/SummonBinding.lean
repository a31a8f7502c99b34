import Mathlib.Data.List.Basic
import Mathlib.Logic.Function.Basic

/-!
# Summon binding

`WorldSession::onEquipSummon`: which cards a request leaves in `m_aBindSummonCard`. The slots hold the handles of the cards.
What a summon wears, its stats and the messages are left out.
-/

namespace RZEmulator.Chihiro

/-- A `Summon`, as far as binding goes. -/
structure CardSummon where
  m_cSlotIdx : Nat
  isInWorld : Bool

/-- An item of the player; its group is that of its item base, if it has one. -/
structure SummonCard where
  group : Option Int
  ownerHandle : Nat
  flag : Nat
  m_pSummon : Option CardSummon

namespace SummonCard

def ITEM_FLAG_SUMMON : Nat := 0x80000000

def GROUP_SUMMONCARD : Int := 13

end SummonCard

open SummonCard

/-! ## The loops -/

/-- The inner loop of the rearrangement: what the gap holds in the end, and what is left of the slots after it. -/
def pull (gap : Option Nat) : List (Option Nat) → Option Nat × List (Option Nat)
  | [] => (gap, [])
  | none :: slots => ((pull gap slots).1, none :: (pull gap slots).2)
  | some card :: slots => ((pull (some card) slots).1, none :: (pull (some card) slots).2)

theorem pull_eq (gap : Option Nat) (slots : List (Option Nat)) :
    pull gap slots = ((slots.filterMap id).getLast?.or gap, List.replicate slots.length none) := by
  induction slots generalizing gap with
  | nil => rfl
  | cons slot slots ih =>
    cases slot with
    | none =>
      rw [pull, ih]
      rfl
    | some card =>
      rw [pull, ih]
      change (_, _) = ((card :: slots.filterMap id).getLast?.or gap, _)
      rw [List.getLast?_cons]
      cases (slots.filterMap id).getLast? <;> rfl

/-- The rearrangement of the slots. -/
def rearrange : List (Option Nat) → List (Option Nat)
  | [] => []
  | some card :: slots => some card :: rearrange slots
  | none :: slots => (pull none slots).1 :: rearrange (pull none slots).2
  termination_by slots => slots.length
  decreasing_by
    · exact Nat.lt_succ_self _
    · rw [pull_eq, List.length_replicate]
      exact Nat.lt_succ_self _

theorem rearrange_replicate (n : Nat) : rearrange (List.replicate n none) = List.replicate n none := by
  induction n with
  | zero => exact rearrange.eq_1
  | succ n ih =>
    rw [List.replicate_succ, rearrange, pull_eq, List.length_replicate, ih, List.filterMap_replicate_of_none rfl]
    rfl

/-- A gap gets the last card after it, and all others after it are gone. -/
theorem rearrange_gap (slots : List (Option Nat)) :
    rearrange (none :: slots) = (slots.filterMap id).getLast? :: List.replicate slots.length none := by
  rw [rearrange, pull_eq, rearrange_replicate, Option.or_none]

theorem rearrange_length (slots : List (Option Nat)) : (rearrange slots).length = slots.length := by
  induction slots with
  | nil => rw [rearrange]
  | cons slot slots ih =>
    cases slot with
    | none => rw [rearrange_gap, List.length_cons, List.length_cons, List.length_replicate]
    | some card => rw [rearrange, List.length_cons, List.length_cons, ih]

/-- With one card at most after the first gap, the rearrangement moves all cards to the front. -/
theorem rearrange_eq {slots : List (Option Nat)} (hgap : ((slots.dropWhile (·.isSome)).filterMap id).length ≤ 1) :
    rearrange slots =
      (slots.filterMap id).map some ++ List.replicate (slots.length - (slots.filterMap id).length) none := by
  induction slots with
  | nil =>
    rw [rearrange]
    rfl
  | cons slot slots ih =>
    cases slot with
    | some card =>
      rw [rearrange, ih hgap]
      change _ = some card :: (_ ++ List.replicate ((slots.length + 1) - ((slots.filterMap id).length + 1)) none)
      rewrite [Nat.add_sub_add_right]
      rfl
    | none =>
      change (slots.filterMap id).length ≤ 1 at hgap
      rw [rearrange_gap]
      change _ = (slots.filterMap id).map some ++ List.replicate (slots.length + 1 - (slots.filterMap id).length) none
      generalize slots.filterMap id = cards at hgap
      match cards, hgap with
      | [], _ => rfl
      | [card], _ => rfl

/-- One pass of the binding loop: what the slot `i` holds, and the items. -/
def bindSlot (owner i : Nat) (items : Nat → Option SummonCard) (old : Option Nat) (card_handle : Nat) :
    Option Nat × (Nat → Option SummonCard) :=
  if card_handle = 0 then (none, items)
  else
    match items card_handle with
    -- the old card keeps the slot
    | none => (old, items)
    | some c =>
      if c.group.isSome ∧ (c.group ≠ some GROUP_SUMMONCARD ∨ owner ≠ c.ownerHandle ∨ c.flag &&& ITEM_FLAG_SUMMON = 0) then (old, items)
      else if c.flag &&& ITEM_FLAG_SUMMON = 0 then (some card_handle, items)
      else
        -- a card without a summon gets a new one
        let isInWorld := match c.m_pSummon with
          | none => false
          | some summon => summon.isInWorld
        (some card_handle, Function.update items card_handle (some { c with m_pSummon := some ⟨i, isInWorld⟩ }))

/-- The binding loop from the slot `i` on. -/
def bindSlots (owner : Nat) : Nat → (Nat → Option SummonCard) → List (Option Nat) → List Nat →
    List (Option Nat) × (Nat → Option SummonCard)
  | i, items, old :: slots, card_handle :: handles =>
    let r := bindSlot owner i items old card_handle
    let s := bindSlots owner (i + 1) r.2 slots handles
    (r.1 :: s.1, s.2)
  | _, items, slots, _ => (slots, items)

theorem bindSlots_length (owner i : Nat) (items : Nat → Option SummonCard) (slots : List (Option Nat)) (handles : List Nat) :
    (bindSlots owner i items slots handles).1.length = slots.length := by
  induction slots generalizing i items handles with
  | nil => rfl
  | cons old slots ih =>
    cases handles with
    | nil => rfl
    | cons card_handle handles =>
      rw [bindSlots, List.length_cons, List.length_cons, ih]

/-- `TS_EQUIP_SUMMON`. -/
structure TS_EQUIP_SUMMON where
  card_handle : List Nat
  six : card_handle.length = 6

/-- A player with a level of `SKILL_CREATURE_CONTROL`, the inventory by handles, and the six slots. -/
structure Binder where
  handle : Nat
  creatureControl : Int
  findItemByHandle : Nat → Option SummonCard
  m_aBindSummonCard : List (Option Nat)
  six : m_aBindSummonCard.length = 6

namespace Binder

/-- `nCFL`, and 0 where the handler returns. -/
def nCFL (p : Binder) : Nat := if p.creatureControl > 6 then 6 else p.creatureControl.toNat

/-- The first `nCFL` slots after the loops, and the items. -/
def bound (p : Binder) (pct : TS_EQUIP_SUMMON) : List (Option Nat) × (Nat → Option SummonCard) :=
  let r := bindSlots p.handle 0 p.findItemByHandle (p.m_aBindSummonCard.take p.nCFL) pct.card_handle
  (if p.nCFL > 1 then rearrange r.1 else r.1, r.2)

theorem bound_length (p : Binder) (pct : TS_EQUIP_SUMMON) :
    ((p.bound pct).1 ++ p.m_aBindSummonCard.drop p.nCFL).length = 6 := by
  have htake := congrArg List.length (List.take_append_drop p.nCFL p.m_aBindSummonCard)
  rw [List.length_append, p.six] at htake
  unfold bound
  dsimp only
  rw [List.length_append]
  split_ifs
  · rw [rearrange_length, bindSlots_length, htake]
  · rw [bindSlots_length, htake]

/-- `WorldSession::onEquipSummon`. -/
def onEquipSummon (p : Binder) (pct : TS_EQUIP_SUMMON) : Binder :=
  if p.creatureControl < 0 then p
  else { p with
    findItemByHandle := (p.bound pct).2
    m_aBindSummonCard := (p.bound pct).1 ++ p.m_aBindSummonCard.drop p.nCFL
    six := p.bound_length pct }

/-! ## What a request should leave -/

/-- The handle names a card of the player that holds a summon. -/
def validCard (p : Binder) (card_handle : Nat) : Bool :=
  match p.findItemByHandle card_handle with
  | none => false
  | some c => card_handle ≠ 0 ∧ c.group = some GROUP_SUMMONCARD ∧ p.handle = c.ownerHandle ∧ c.flag &&& ITEM_FLAG_SUMMON ≠ 0

/-- The cards of the request that the player's skill allows for. -/
def requested (p : Binder) (pct : TS_EQUIP_SUMMON) : List Nat := (pct.card_handle.take p.nCFL).filter p.validCard

/-- The summon of the card is out in the world. -/
def Out (p : Binder) (card : Nat) : Prop := ∃ c summon, p.findItemByHandle card = some c ∧ c.m_pSummon = some summon ∧ summon.isInWorld = true

/-- The bound cards are those of the request, once each and at the front, and a summon in the world has stayed bound. -/
structure Rebound (p p' : Binder) (pct : TS_EQUIP_SUMMON) : Prop where
  distinct : (p.requested pct).Nodup
  slots : p'.m_aBindSummonCard = (p.requested pct).map some ++ List.replicate (6 - (p.requested pct).length) none
  out : ∀ card, some card ∈ p.m_aBindSummonCard → p.Out card → some card ∈ p'.m_aBindSummonCard

/-- The flag of a card is set exactly when it is bound. -/
def Flagged (p : Binder) : Prop :=
  ∀ card c, p.findItemByHandle card = some c → (c.flag &&& ITEM_FLAG_SUMMON ≠ 0 ↔ some card ∈ p.m_aBindSummonCard)

/-- The items are the same, up to their summons. -/
def SameItems (p p' : Binder) : Prop :=
  ∀ card, (p'.findItemByHandle card).map (fun c => (c.group, c.ownerHandle, c.flag)) =
    (p.findItemByHandle card).map (fun c => (c.group, c.ownerHandle, c.flag))

/-- A handle that is refused names an item with an item base, or none. -/
def Refused (p : Binder) (card_handle : Nat) : Prop :=
  p.validCard card_handle = false ∧ ∀ c, p.findItemByHandle card_handle = some c → c.group.isSome = true

/-- The request names different cards, one at most after its first gap; a slot whose handle is refused holds no card, nor do
the slots beyond the skill; and no summon in the world is left out. -/
structure PlainRequest (p : Binder) (pct : TS_EQUIP_SUMMON) : Prop where
  distinct : (p.requested pct).Nodup
  gap : (((pct.card_handle.take p.nCFL).dropWhile p.validCard).filter p.validCard).length ≤ 1
  refused : ∀ slot ∈ (p.m_aBindSummonCard.take p.nCFL).zip pct.card_handle,
    slot.2 = 0 ∨ p.validCard slot.2 = true ∨ slot.1 = none ∧ p.Refused slot.2
  beyond : ∀ slot ∈ p.m_aBindSummonCard.drop p.nCFL, slot = none
  out : ∀ card, some card ∈ p.m_aBindSummonCard → p.Out card → card ∈ p.requested pct

/-! ## The binding loop -/

section

variable {p : Binder} {pct : TS_EQUIP_SUMMON} {items : Nat → Option SummonCard} {i card_handle : Nat} {old : Option Nat}

/-- What the checks see of an item. -/
def key (c : SummonCard) : Option Int × Nat × Nat := (c.group, c.ownerHandle, c.flag)

/-- Items with the same key pass the same checks. -/
theorem exists_of_key {item : Option SummonCard} {c : SummonCard} (h : item.map key = (some c).map key) :
    ∃ c', item = some c' ∧ c'.group = c.group ∧ c'.ownerHandle = c.ownerHandle ∧ c'.flag = c.flag := by
  obtain ⟨c', rfl, hsame⟩ := Option.map_eq_some_iff.mp h
  refine ⟨c', rfl, ?_⟩
  simpa only [key, Prod.mk.injEq] using hsame

theorem bindSlot_key (owner i : Nat) (items : Nat → Option SummonCard) (old : Option Nat) (card_handle card : Nat) :
    ((bindSlot owner i items old card_handle).2 card).map key = (items card).map key := by
  unfold bindSlot
  split_ifs
  · rfl
  · cases hitem : items card_handle with
    | none => rfl
    | some c =>
      dsimp only
      split_ifs
      · rfl
      · rfl
      · dsimp only
        by_cases hcard : card = card_handle
        · rw [hcard, Function.update_self, hitem]
          rfl
        · rw [Function.update_of_ne hcard]

theorem bindSlots_key (owner i : Nat) (items : Nat → Option SummonCard) (slots : List (Option Nat)) (handles : List Nat)
    (card : Nat) : ((bindSlots owner i items slots handles).2 card).map key = (items card).map key := by
  induction slots generalizing i items handles with
  | nil => rfl
  | cons old slots ih =>
    cases handles with
    | nil => rfl
    | cons card_handle handles =>
      rw [bindSlots]
      dsimp only
      rw [ih, bindSlot_key]

/-- A slot that the request clears, fills or refuses while it is empty. -/
theorem bindSlot_fst (hitems : ∀ card, (items card).map key = (p.findItemByHandle card).map key)
    (hslot : card_handle = 0 ∨ p.validCard card_handle = true ∨ old = none ∧ p.Refused card_handle) :
    (bindSlot p.handle i items old card_handle).1 = if p.validCard card_handle then some card_handle else none := by
  have hkey := hitems card_handle
  unfold bindSlot
  split_ifs with hzero hvalid hvalid
  · unfold validCard at hvalid
    split at hvalid
    · cases hvalid
    · exact absurd hzero (of_decide_eq_true hvalid).1
  · rfl
  · -- a card that the checks accept
    unfold validCard at hvalid
    cases hfind : p.findItemByHandle card_handle with
    | none =>
      rw [hfind] at hvalid
      cases hvalid
    | some c =>
      rw [hfind] at hvalid hkey
      obtain ⟨-, hgroup, howner, hflag⟩ := of_decide_eq_true hvalid
      obtain ⟨c', hc', hgroup', howner', hflag'⟩ := exists_of_key hkey
      rw [hc']
      dsimp only
      rw [hgroup', howner', hflag', if_neg, if_neg hflag]
      rintro ⟨-, h | h | h⟩
      · exact h hgroup
      · exact h howner
      · exact hflag h
  · -- a handle that is refused
    obtain ⟨rfl, -, hbase⟩ : old = none ∧ p.Refused card_handle := by
      rcases hslot with h | h | h
      · exact absurd h hzero
      · exact absurd h hvalid
      · exact h
    unfold validCard at hvalid
    cases hfind : p.findItemByHandle card_handle with
    | none =>
      rw [hfind, Option.map_none] at hkey
      rw [Option.map_eq_none_iff.mp hkey]
    | some c =>
      rw [hfind] at hvalid hkey
      obtain ⟨c', hc', hgroup', howner', hflag'⟩ := exists_of_key hkey
      rw [hc']
      dsimp only
      rw [hgroup', howner', hflag', if_pos]
      refine ⟨hbase c hfind, ?_⟩
      by_contra hno
      push Not at hno
      exact hvalid (decide_eq_true ⟨hzero, hno⟩)

/-- The binding loop of a plain request. -/
theorem bindSlots_fst (slots : List (Option Nat)) (handles : List Nat) (hlength : slots.length ≤ handles.length)
    (hitems : ∀ card, (items card).map key = (p.findItemByHandle card).map key)
    (hslots : ∀ slot ∈ slots.zip handles, slot.2 = 0 ∨ p.validCard slot.2 = true ∨ slot.1 = none ∧ p.Refused slot.2) :
    (bindSlots p.handle i items slots handles).1 =
      (handles.take slots.length).map fun h => if p.validCard h then some h else none := by
  induction slots generalizing i items handles with
  | nil => rfl
  | cons old slots ih =>
    cases handles with
    | nil => cases hlength
    | cons card_handle handles =>
      rw [List.zip_cons_cons, List.forall_mem_cons] at hslots
      rw [bindSlots, List.length_cons, List.take_succ_cons, List.map_cons, ← bindSlot_fst (i := i) hitems hslots.1]
      dsimp only
      rw [ih handles (Nat.le_of_succ_le_succ hlength) (fun card => (bindSlot_key ..).trans (hitems card)) hslots.2]

/-! ## The handler -/

theorem nCFL_le (p : Binder) : p.nCFL ≤ 6 := by
  unfold nCFL
  split_ifs <;> omega

theorem nCFL_of_neg (h : p.creatureControl < 0) : p.nCFL = 0 := by
  unfold nCFL
  rw [if_neg (by omega)]
  omega

theorem rearrange_of_length_le_one {slots : List (Option Nat)} (h : slots.length ≤ 1) : rearrange slots = slots := by
  match slots, h with
  | [], _ => rw [rearrange]
  | [none], _ => exact rearrange_gap []
  | [some card], _ => rw [rearrange, rearrange]

theorem filterMap_valid (valid : Nat → Bool) (handles : List Nat) :
    (handles.map fun h => if valid h then some h else none).filterMap id = handles.filter valid := by
  induction handles with
  | nil => rfl
  | cons h handles ih =>
    rw [List.map_cons, List.filter_cons]
    cases hvalid : valid h with
    | true =>
      rw [← ih]
      rfl
    | false =>
      rw [← ih]
      rfl

theorem dropWhile_valid (valid : Nat → Bool) (handles : List Nat) :
    (handles.map fun h => if valid h then some h else none).dropWhile (·.isSome) =
      (handles.dropWhile valid).map fun h => if valid h then some h else none := by
  rw [List.dropWhile_map]
  congr 2
  funext h
  cases hvalid : valid h <;> simp [hvalid]

theorem onEquipSummon_items (p : Binder) (pct : TS_EQUIP_SUMMON) : p.SameItems (p.onEquipSummon pct) := by
  intro card
  unfold onEquipSummon
  split_ifs
  · rfl
  · exact bindSlots_key ..

/-- The slots after a request. -/
theorem onEquipSummon_slots (p : Binder) (pct : TS_EQUIP_SUMMON) : (p.onEquipSummon pct).m_aBindSummonCard =
    rearrange (bindSlots p.handle 0 p.findItemByHandle (p.m_aBindSummonCard.take p.nCFL) pct.card_handle).1 ++
      p.m_aBindSummonCard.drop p.nCFL := by
  unfold onEquipSummon
  split_ifs with hneg
  · rw [nCFL_of_neg hneg, List.take_zero, bindSlots, rearrange, List.drop_zero, List.nil_append]
    all_goals nofun
  · unfold bound
    dsimp only
    split_ifs with hone
    · rfl
    · rw [rearrange_of_length_le_one]
      rw [bindSlots_length, List.length_take]
      omega

theorem PlainRequest.slots (h : p.PlainRequest pct) : (p.onEquipSummon pct).m_aBindSummonCard =
    (p.requested pct).map some ++ List.replicate (6 - (p.requested pct).length) none := by
  have hn := p.nCFL_le
  have htake : (p.m_aBindSummonCard.take p.nCFL).length = p.nCFL := by rw [List.length_take, p.six]; omega
  have hhandles : (pct.card_handle.take p.nCFL).length = p.nCFL := by rw [List.length_take, pct.six]; omega
  have hloop := bindSlots_fst (i := 0) (p.m_aBindSummonCard.take p.nCFL) pct.card_handle (by rw [htake, pct.six]; exact hn)
    (fun _ => rfl) h.refused
  rw [htake] at hloop
  have hrest : p.m_aBindSummonCard.drop p.nCFL = List.replicate (6 - p.nCFL) none :=
    List.eq_replicate_iff.mpr ⟨by rw [List.length_drop, p.six], h.beyond⟩
  have hgap : ((((pct.card_handle.take p.nCFL).map fun h => if p.validCard h then some h else none).dropWhile
      (·.isSome)).filterMap id).length ≤ 1 := by
    rw [dropWhile_valid, filterMap_valid]
    exact h.gap
  have hfront := rearrange_eq hgap
  rw [filterMap_valid, List.length_map, hhandles] at hfront
  have hle : ((pct.card_handle.take p.nCFL).filter p.validCard).length ≤ p.nCFL :=
    Nat.le_trans (List.length_filter_le ..) (Nat.le_of_eq hhandles)
  rw [onEquipSummon_slots, hloop, hfront, hrest, List.append_assoc, List.replicate_append_replicate]
  unfold requested
  congr 2
  omega

/-- **Summon binding.** A request changes no flag of an item, and a plain one leaves its cards bound, in their order and at the
front, with every summon that is out in the world. -/
theorem rebound_of_plain (p : Binder) (pct : TS_EQUIP_SUMMON) :
    p.SameItems (p.onEquipSummon pct) ∧ (p.PlainRequest pct → p.Rebound (p.onEquipSummon pct) pct) := by
  refine ⟨p.onEquipSummon_items pct, fun h => ⟨h.distinct, h.slots, fun card hbound hout => ?_⟩⟩
  rw [h.slots]
  exact List.mem_append_left _ (List.mem_map_of_mem (h.out card hbound hout))

/-- A player with two cards of the handles 10 and 11, whose skill allows for two, and the first of which is bound. -/
def twoCards : Binder where
  handle := 1
  creatureControl := 2
  findItemByHandle := fun card => if card = 10 ∨ card = 11 then some ⟨some GROUP_SUMMONCARD, 1, ITEM_FLAG_SUMMON, none⟩ else none
  m_aBindSummonCard := [some 10, none, none, none, none, none]
  six := rfl

/-- The request to bind the second card instead. -/
def second : TS_EQUIP_SUMMON := ⟨[11, 0, 0, 0, 0, 0], rfl⟩

theorem twoCards_not_out (card : Nat) : ¬twoCards.Out card := by
  rintro ⟨c, summon, hc, hsummon, -⟩
  change (if card = 10 ∨ card = 11 then some _ else none) = some c at hc
  split_ifs at hc with hcard
  · rw [← Option.some.inj hc] at hsummon
    cases hsummon

theorem twoCards_plain : twoCards.PlainRequest second where
  distinct := by decide
  gap := by decide
  refused := by
    change ∀ slot ∈ [(some 10, 11), (none, 0)], _
    rw [List.forall_mem_cons, List.forall_mem_singleton]
    exact ⟨.inr (.inl (by decide)), .inl rfl⟩
  beyond := by decide
  out := fun card _ hout => absurd hout (twoCards_not_out card)

theorem rebound_second : twoCards.Rebound (twoCards.onEquipSummon second) second :=
  (rebound_of_plain twoCards second).2 twoCards_plain

/-- **Counterexample**: the card that has been replaced still holds a summon, so its flag stays set. -/
theorem not_rebound_flagged : ¬∀ (p : Binder) (pct : TS_EQUIP_SUMMON),
    p.Rebound (p.onEquipSummon pct) pct ∧ (p.onEquipSummon pct).Flagged := by
  intro hall
  have hflagged := (hall twoCards second).2
  have hslots := twoCards_plain.slots
  obtain ⟨c, hc, hsame⟩ := Option.map_eq_some_iff.mp (twoCards.onEquipSummon_items second 10)
  have hflag : c.flag = ITEM_FLAG_SUMMON := (Prod.mk.inj (Prod.mk.inj hsame).2).2
  have hbound := (hflagged 10 c hc).mp (by rw [hflag]; decide)
  rw [hslots] at hbound
  revert hbound
  decide

end

end Binder

end RZEmulator.Chihiro
