import Mathlib.Data.Nat.Bitwise
import RZEmulator.Chihiro.Taming

/-!
# The flags of a taming in an inventory

`marks` are the codes of the cards with `ITEM_FLAG_TAMING`. Each operation of an inventory keeps them up to order,
except that it may take the whole of a stack with the flag away, or bring one in.
-/

namespace RZEmulator.Chihiro

open Lib

/-! ## Flags -/

namespace Card

theorem isTaming_iff {c : Card} : c.isTaming = true ↔ c.Flag.testBit 29 = true := by
  have hand : ITEM_FLAG_TAMING &&& c.Flag = (c.Flag.testBit 29).toNat * 2 ^ 29 :=
    (Nat.and_comm _ _).trans (Nat.and_two_pow c.Flag 29)
  rw [isTaming, isFlagged, hand]
  cases c.Flag.testBit 29 <;> decide

theorem isTaming_setTaming (c : Card) : c.setTaming.isTaming = true := by
  rw [isTaming_iff, setTaming, Nat.testBit_or]
  exact Bool.or_eq_true_iff.mpr (.inr (by decide))

theorem not_isTaming_clearTaming (c : Card) : c.clearTaming.isTaming = false := by
  rw [Bool.eq_false_iff, ne_eq, isTaming_iff, clearTaming, Nat.testBit_and]
  have hbit : Nat.testBit 0xDFFFFFFF 29 = false := by decide
  rw [hbit, Bool.and_false]
  decide

theorem not_isTaming_setSummon (c : Card) : c.setSummon.isTaming = false := by
  rw [Bool.eq_false_iff, ne_eq, isTaming_iff, setSummon, Nat.testBit_or, Nat.testBit_and]
  have hbit : Nat.testBit 0xDFFFFFFF 29 = false := by decide
  have hsummon : Nat.testBit ITEM_FLAG_SUMMON 29 = false := by decide
  rw [hbit, hsummon, Bool.and_false]
  decide

/-- The code of a card with the flag. -/
def mark (c : Card) : Option Int := if c.isTaming then some c.Code else none

theorem mark_eq_none {c : Card} (h : c.isTaming = false) : c.mark = none := by
  rw [mark, h]
  rfl

theorem mark_eq_some {c : Card} (h : c.isTaming = true) : c.mark = some c.Code := if_pos h

@[simp] theorem mark_setCount (c : Card) (n : Int) : (c.setCount n).mark = c.mark := rfl

end Card

/-! ## The flags of an inventory -/

/-- The codes of the cards with the flag. -/
def marks (l : List Card) : List Int := l.filterMap Card.mark

variable {l : List Card} {i : Nat} {c c' : Card} {code : Int}

theorem length_marks (l : List Card) : (marks l).length = l.countP Card.isTaming := by
  induction l with
  | nil => rfl
  | cons c l ih =>
    rw [List.countP_cons, ← ih]
    cases h : c.isTaming with
    | false => rw [marks, List.filterMap_cons_none (Card.mark_eq_none h)]; rfl
    | true => rw [marks, List.filterMap_cons_some (Card.mark_eq_some h)]; rfl

theorem marks_cons (c : Card) (l : List Card) : marks (c :: l) = c.mark.toList ++ marks l := by
  rw [marks, List.filterMap_cons]
  cases c.mark <;> rfl

/-- The flags of a list, as those of one card and of the rest. -/
theorem marks_perm (h : l[i]? = some c) : (marks l).Perm (c.mark.toList ++ marks (l.eraseIdx i)) := by
  obtain ⟨hi, rfl⟩ := List.getElem?_eq_some_iff.mp h
  rw [← marks_cons]
  exact (List.getElem_cons_eraseIdx_perm hi).symm.filterMap _

theorem marks_set_perm (h : l[i]? = some c) (c' : Card) :
    (marks (l.set i c')).Perm (c'.mark.toList ++ marks (l.eraseIdx i)) := by
  obtain ⟨hi, rfl⟩ := List.getElem?_eq_some_iff.mp h
  rw [← marks_cons]
  exact (List.set_perm_cons_eraseIdx hi c').filterMap _

theorem marks_swapRemove_perm (h : l[i]? = some c) : (marks (swapRemove l i)).Perm (marks (l.eraseIdx i)) := by
  obtain ⟨hi, rfl⟩ := List.getElem?_eq_some_iff.mp h
  exact (swapRemove_perm_eraseIdx hi).filterMap _

theorem marks_eq_nil_of_set (h : l[i]? = some c) (hl : marks l = [code]) (hc : c.isTaming = true)
    (hc' : c'.isTaming = false) : marks (l.set i c') = [] := by
  have hperm := marks_perm h
  rw [hl, Card.mark_eq_some hc] at hperm
  have hrest : marks (l.eraseIdx i) = [] := List.length_eq_zero_iff.mp (Nat.succ.inj hperm.length_eq.symm)
  have hset := marks_set_perm h c'
  rw [Card.mark_eq_none hc', hrest] at hset
  exact hset.eq_nil

theorem marks_eq_singleton_of_set (h : l[i]? = some c) (hl : marks l = []) (hc' : c'.isTaming = true) :
    marks (l.set i c') = [c'.Code] := by
  have hperm := marks_perm h
  rw [hl] at hperm
  have hrest : marks (l.eraseIdx i) = [] := (List.append_eq_nil_iff.mp hperm.nil_eq.symm).2
  have hset := marks_set_perm h c'
  rw [Card.mark_eq_some hc', hrest] at hset
  exact List.perm_singleton.mp hset

/-- A change of a card that keeps its code and its flag. -/
theorem marks_set_of_mark_eq (h : l[i]? = some c) (hc : c'.mark = c.mark) : (marks (l.set i c')).Perm (marks l) := by
  refine (marks_set_perm h c').trans ?_
  rw [hc]
  exact (marks_perm h).symm

theorem marks_swapRemove_of_not_isTaming (h : l[i]? = some c) (hc : c.isTaming = false) :
    (marks (swapRemove l i)).Perm (marks l) := by
  refine (marks_swapRemove_perm h).trans ?_
  have hperm := marks_perm h
  rw [Card.mark_eq_none hc] at hperm
  exact hperm.symm

theorem length_marks_swapRemove (h : l[i]? = some c) (hc : c.isTaming = true) :
    (marks (swapRemove l i)).length + 1 = (marks l).length := by
  rw [(marks_swapRemove_perm h).length_eq, (marks_perm h).length_eq, Card.mark_eq_some hc]
  rfl

theorem marks_append (l : List Card) (c : Card) : (marks (l ++ [c])).Perm (c.mark.toList ++ marks l) := by
  rw [marks, List.filterMap_append]
  refine List.perm_append_comm.trans ?_
  cases h : c.mark with
  | none => rw [List.filterMap_cons_none h]; rfl
  | some code => rw [List.filterMap_cons_some h]; rfl

theorem popCard_of_eq {cnt : Int} (h : l[i]? = some c) (heq : c.nCount = cnt) : popCard l i cnt = swapRemove l i := by
  rw [popCard, h]
  dsimp only
  rw [if_neg heq.not_gt, if_pos heq]

theorem eraseCard_of_le {cnt : Int} (h : l[i]? = some c) (hle : c.nCount ≤ cnt) :
    eraseCard l i cnt = swapRemove l i := by
  rw [eraseCard, h]
  exact if_neg (Int.not_lt.mpr hle)

theorem marks_swapRemove_eq_nil (h : l[i]? = some c) (hl : marks l = [code]) (hc : c.isTaming = true) :
    marks (swapRemove l i) = [] := by
  have hlen := length_marks_swapRemove h hc
  rw [hl] at hlen
  exact List.length_eq_zero_iff.mp (Nat.succ.inj hlen)

theorem isTaming_of_marks (hl : marks l = [code]) : ∃ c ∈ l, c.isTaming = true ∧ c.Code = code := by
  have hmem : code ∈ marks l := hl ▸ List.mem_singleton_self code
  obtain ⟨c, hc, hmark⟩ := List.mem_filterMap.mp hmem
  rw [Card.mark] at hmark
  split_ifs at hmark with htaming
  exact ⟨c, hc, htaming, Option.some.inj hmark⟩

theorem eq_of_isTaming (hl : marks l = [code]) (hc : c ∈ l) (htaming : c.isTaming = true) (hc' : c' ∈ l)
    (htaming' : c'.isTaming = true) : c = c' := by
  have hlen : (l.filter Card.isTaming).length = 1 := by
    rw [← List.countP_eq_length_filter, ← length_marks, hl]
    rfl
  obtain ⟨x, hx⟩ := List.length_eq_one_iff.mp hlen
  have hmem := List.mem_filter.mpr ⟨hc, htaming⟩
  have hmem' := List.mem_filter.mpr ⟨hc', htaming'⟩
  rw [hx] at hmem hmem'
  exact (List.mem_singleton.mp hmem).trans (List.mem_singleton.mp hmem').symm

/-! ## The operations on the inventory -/

theorem marks_pushCard (l : List Card) (c : Card) :
    (marks (pushCard l c)).Perm (marks l) ∨
      joinTarget l c = none ∧ (marks (pushCard l c)).Perm (c.mark.toList ++ marks l) := by
  unfold pushCard
  cases h : joinTarget l c with
  | none => exact .inr ⟨rfl, marks_append l c⟩
  | some i =>
    left
    dsimp only
    rw [List.modify_eq_set_getElem?]
    cases hc : l[i]? with
    | none => rfl
    | some e => exact marks_set_of_mark_eq hc (Card.mark_setCount e _)

/-- Only the whole of a stack takes its flag along. -/
theorem marks_popCard (l : List Card) (i : Nat) (cnt : Int) :
    (marks (popCard l i cnt)).Perm (marks l) ∨ (∃ c, l[i]? = some c ∧ c.isTaming = true ∧ c.nCount = cnt) ∧
      (marks (popCard l i cnt)).length + 1 = (marks l).length := by
  unfold popCard
  cases h : l[i]? with
  | none => exact .inl (.refl _)
  | some c =>
    dsimp only
    split_ifs with hsplit hall
    · exact .inl (marks_set_of_mark_eq h (Card.mark_setCount c _))
    · cases hc : c.isTaming with
      | false => exact .inl (marks_swapRemove_of_not_isTaming h hc)
      | true => exact .inr ⟨⟨c, rfl, hc, hall⟩, length_marks_swapRemove h hc⟩
    · exact .inl (.refl _)

theorem marks_eraseCard (l : List Card) (i : Nat) (cnt : Int) :
    (marks (eraseCard l i cnt)).Perm (marks l) ∨ (∃ c, l[i]? = some c ∧ c.isTaming = true ∧ c.nCount ≤ cnt) ∧
      (marks (eraseCard l i cnt)).length + 1 = (marks l).length := by
  unfold eraseCard
  cases h : l[i]? with
  | none => exact .inl (.refl _)
  | some c =>
    dsimp only
    split_ifs with hsplit
    · exact .inl (marks_set_of_mark_eq h (Card.mark_setCount c _))
    · cases hc : c.isTaming with
      | false => exact .inl (marks_swapRemove_of_not_isTaming h hc)
      | true => exact .inr ⟨⟨c, rfl, hc, Int.not_lt.mp hsplit⟩, length_marks_swapRemove h hc⟩

theorem findItem_eq_some {flag : Nat} {bFlag : Bool} (h : findItem l code flag bFlag = some i) :
    ∃ c, l[i]? = some c ∧ c.Code = code ∧ c.isFlagged flag = bFlag := by
  obtain ⟨hi, hc, -⟩ := List.findIdx?_eq_some_iff_getElem.mp h
  rw [Bool.and_eq_true, beq_iff_eq, beq_iff_eq] at hc
  exact ⟨l[i], List.getElem?_eq_getElem hi, hc⟩

theorem findItem_isSome_of_marks (hl : marks l = [code]) :
    (findItem l code Card.ITEM_FLAG_TAMING true).isSome = true := by
  obtain ⟨c, hc, htaming, hcode⟩ := isTaming_of_marks hl
  have hflag : c.isFlagged Card.ITEM_FLAG_TAMING = true := htaming
  rw [findItem, List.findIdx?_isSome, List.any_eq_true]
  exact ⟨c, hc, by rw [hcode, hflag, beq_self_eq_true]; rfl⟩

end RZEmulator.Chihiro
