import Mathlib.Data.List.Nodup
import Mathlib.Data.List.Perm.Basic
import Mathlib.Tactic.Common

/-!
# Removal by moving the last element into the hole

A vector whose elements each carry their own position is emptied in constant time by overwriting the
removed slot with the last element and rewriting that element's position. `Indexed l pos` says that
`pos` is the position of every element of `l`; it is kept by `swapRemove` and by appending, and it
already excludes duplicates (`Indexed.nodup`). Up to order `swapRemove` only takes the element away
(`cons_swapRemove_perm`), which is all that a sum over the elements needs.
-/

namespace RZEmulator.Lib

variable {α : Type*}

/-- The list without the element at `i`, the last element moved into its place. -/
def swapRemove (l : List α) (i : Nat) : List α :=
  match l.getLast? with
  | none => []
  | some b => (l.set i b).dropLast

/-- Every element's position is the one `pos` gives it. -/
def Indexed (l : List α) (pos : α → Nat) : Prop :=
  ∀ i a, l[i]? = some a → pos a = i

theorem swapRemove_concat_of_lt (l : List α) (b : α) {i : Nat} (hi : i < l.length) :
    swapRemove (l ++ [b]) i = l.set i b := by
  simp [swapRemove, List.set_append_left, hi]

theorem swapRemove_concat_length (l : List α) (b : α) : swapRemove (l ++ [b]) l.length = l := by
  simp [swapRemove]

/-- Removing by a swap and removing in place differ in the order only. -/
theorem swapRemove_perm_eraseIdx {l : List α} {i : Nat} (hi : i < l.length) :
    (swapRemove l i).Perm (l.eraseIdx i) := by
  rcases List.eq_nil_or_concat l with rfl | ⟨l, b, rfl⟩
  · simp at hi
  rw [List.concat_eq_append] at *
  rcases Nat.lt_or_ge i l.length with hlt | hge
  · rw [swapRemove_concat_of_lt l b hlt, List.eraseIdx_append_of_lt_length hlt]
    exact (List.set_perm_cons_eraseIdx hlt b).trans (List.perm_append_singleton b _).symm
  · have hil : i = l.length := by simp at hi; omega
    subst hil
    rw [swapRemove_concat_length, List.eraseIdx_append_of_length_le (Nat.le_refl _)]
    simp

theorem cons_swapRemove_perm {l : List α} {i : Nat} {a : α} (ha : l[i]? = some a) :
    (a :: swapRemove l i).Perm l := by
  obtain ⟨hi, rfl⟩ := List.getElem?_eq_some_iff.mp ha
  exact ((swapRemove_perm_eraseIdx hi).cons _).trans (List.getElem_cons_eraseIdx_perm hi)

namespace Indexed

variable {l : List α} {pos pos' : α → Nat}

theorem getElem? (h : Indexed l pos) {a : α} (ha : a ∈ l) : l[pos a]? = some a := by
  obtain ⟨i, hi⟩ := List.mem_iff_getElem?.mp ha
  rwa [h i a hi]

theorem nodup (h : Indexed l pos) : l.Nodup := by
  rw [List.nodup_iff_getElem?_ne_getElem?]
  intro i j hij hj heq
  have hj' : l[j]? = some l[j] := List.getElem?_eq_getElem hj
  have hpi := h i _ (heq.trans hj')
  have hpj := h j _ hj'
  omega

theorem congr (h : Indexed l pos) (hpos : ∀ a ∈ l, pos' a = pos a) : Indexed l pos' := by
  intro i a ha
  rw [hpos a (List.mem_of_getElem? ha)]
  exact h i a ha

theorem concat (h : Indexed l pos) {a : α} (hold : ∀ b ∈ l, pos' b = pos b)
    (hnew : pos' a = l.length) : Indexed (l ++ [a]) pos' := by
  intro i b hb
  rcases Nat.lt_or_ge i l.length with hlt | hge
  · rw [List.getElem?_append_left hlt] at hb
    exact (h.congr hold) i b hb
  · rw [List.getElem?_append_right hge] at hb
    have hi : i - l.length = 0 := by
      by_contra hne
      rw [List.getElem?_eq_none (by simp; omega)] at hb
      cases hb
    rw [hi] at hb
    simp only [List.getElem?_cons_zero, Option.some.injEq] at hb
    subst hb
    omega

theorem mem_swapRemove (h : Indexed l pos) {a b : α} (ha : a ∈ l) :
    b ∈ swapRemove l (pos a) ↔ b ∈ l ∧ b ≠ a := by
  have hperm := cons_swapRemove_perm (h.getElem? ha)
  have hnd := hperm.nodup_iff.mpr h.nodup
  rw [← hperm.mem_iff, List.mem_cons]
  constructor
  · intro hb
    exact ⟨.inr hb, fun he => (List.nodup_cons.mp hnd).1 (he ▸ hb)⟩
  · rintro ⟨rfl | hb, hne⟩
    · exact absurd rfl hne
    · exact hb

/-- The positions after a removal: the last element takes over the position of the removed one. -/
theorem swapRemove (h : Indexed l pos) {a last : α} (ha : a ∈ l) (hlast : l.getLast? = some last)
    (hmoved : last ≠ a → pos' last = pos a) (hold : ∀ b ∈ l, b ≠ last → b ≠ a → pos' b = pos b) :
    Indexed (Lib.swapRemove l (pos a)) pos' := by
  obtain ⟨l, rfl⟩ := List.getLast?_eq_some_iff.mp hlast
  have hposlast : pos last = l.length := h _ _ (by simp)
  intro i b hb
  by_cases hla : last = a
  · -- the removed element is the last one: the list is cut
    subst hla
    rw [hposlast, swapRemove_concat_length] at hb
    have hmem := List.mem_of_getElem? hb
    have hbi := h i b (by rw [List.getElem?_append_left (List.getElem?_eq_some_iff.mp hb).1]; exact hb)
    have hne : b ≠ last := by
      rintro rfl
      have := (List.getElem?_eq_some_iff.mp hb).1
      omega
    rw [hold b (by simp [hmem]) hne hne, hbi]
  · have hal : a ∈ l := by simpa [Ne.symm hla] using ha
    have hlt : pos a < l.length := by
      obtain ⟨j, hj⟩ := List.mem_iff_getElem?.mp hal
      have hjl := (List.getElem?_eq_some_iff.mp hj).1
      rw [h j a (by rw [List.getElem?_append_left hjl]; exact hj)]
      exact hjl
    rw [swapRemove_concat_of_lt l last hlt, List.getElem?_set] at hb
    split_ifs at hb with hi
    · obtain rfl := Option.some.inj hb
      rw [hmoved hla, hi]
    · have hbi := h i b (by rw [List.getElem?_append_left (List.getElem?_eq_some_iff.mp hb).1]; exact hb)
      have hmem := List.mem_of_getElem? hb
      have hne : b ≠ last := by
        rintro rfl
        have := (List.getElem?_eq_some_iff.mp hb).1
        omega
      have hna : b ≠ a := by
        rintro rfl
        exact hi hbi
      rw [hold b (by simp [hmem]) hne hna, hbi]

end Indexed

end RZEmulator.Lib
