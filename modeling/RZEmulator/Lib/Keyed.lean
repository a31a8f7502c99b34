import Mathlib.Data.List.AList
import Mathlib.Tactic.Common

/-!
# Lists with a key

A table kept as a list: the first element with a key is *the* element with that key if the keys are
distinct (`find?_key_eq_some_iff`). A change of the elements that leaves the keys alone commutes with
looking up (`find?_key_map`). `lookup_foldl_insert` is the same for a table that is read from the rows of
another one.
-/

namespace RZEmulator.Lib

variable {α κ : Type*} [DecidableEq κ] {key : α → κ} {l : List α} {k : κ}

theorem find?_key_eq_some_iff (hl : (l.map key).Nodup) {a : α} :
    l.find? (fun b => decide (key b = k)) = some a ↔ a ∈ l ∧ key a = k := by
  constructor
  · intro h
    exact ⟨List.mem_of_find?_eq_some h, of_decide_eq_true (List.find?_some (p := fun b =>
      decide (key b = k)) h)⟩
  · rintro ⟨ha, rfl⟩
    obtain ⟨b, hb⟩ := Option.isSome_iff_exists.mp (List.find?_isSome (p := fun b =>
      decide (key b = key a)) |>.mpr ⟨a, ha, decide_eq_true rfl⟩)
    have hkey := of_decide_eq_true (List.find?_some (p := fun b => decide (key b = key a)) hb)
    rw [hb, List.inj_on_of_nodup_map hl (List.mem_of_find?_eq_some hb) ha hkey]

theorem find?_key_eq_none_iff :
    l.find? (fun b => decide (key b = k)) = none ↔ ∀ a ∈ l, key a ≠ k := by
  rw [List.find?_eq_none]
  exact forall_congr' fun a => forall_congr' fun _ => by rw [decide_eq_true_iff]

/-- Two tables with the same elements for a key give the same answer. -/
theorem find?_key_congr {l' : List α} (hl : (l.map key).Nodup) (hl' : (l'.map key).Nodup)
    (h : ∀ a, key a = k → (a ∈ l' ↔ a ∈ l)) :
    l'.find? (fun b => decide (key b = k)) = l.find? (fun b => decide (key b = k)) := by
  refine Option.ext fun a => ?_
  rw [find?_key_eq_some_iff hl', find?_key_eq_some_iff hl]
  exact and_congr_left (h a)

theorem find?_key_map {f : α → α} (hf : ∀ a, key (f a) = key a) :
    (l.map f).find? (fun b => decide (key b = k)) =
      (l.find? (fun b => decide (key b = k))).map f := by
  rw [List.find?_map]
  congr 2
  funext a
  simp only [Function.comp_apply, hf]

/-- Erasing the element with a key leaves the elements with another one. -/
theorem eraseP_key_eq_filter (hl : (l.map key).Nodup) {q : α → Bool}
    (hq : ∀ a ∈ l, q a = true ↔ key a = k) : l.eraseP q = l.filter fun a => decide (key a ≠ k) := by
  induction l with
  | nil => rfl
  | cons b l ih =>
    obtain ⟨hb, hl⟩ := List.nodup_cons.mp hl
    have hq' := hq b List.mem_cons_self
    by_cases hkey : key b = k
    · rw [List.eraseP_cons_of_pos (hq'.mpr hkey), List.filter_cons_of_neg (by simp [hkey])]
      refine (List.filter_eq_self.mpr fun a ha => decide_eq_true ?_).symm
      rintro rfl
      exact hb (hkey ▸ List.mem_map.mpr ⟨a, ha, rfl⟩)
    · have hkeep : decide (key b ≠ k) = true := decide_eq_true hkey
      rw [List.eraseP_cons_of_neg (fun hc => hkey (hq'.mp hc)), List.filter_cons, if_pos hkeep,
        ih hl fun a ha => hq a (List.mem_cons_of_mem b ha)]

/-- A table filled from rows with distinct keys. -/
theorem lookup_foldl_insert {β γ : Type*} (f : κ → β → γ) {rows : List (Sigma fun _ : κ => β)}
    (hrows : rows.NodupKeys) (m : AList fun _ : κ => γ) :
    (rows.foldl (fun m row => m.insert row.1 (f row.1 row.2)) m).lookup k =
      ((rows.dlookup k).map (f k)).or (m.lookup k) := by
  induction rows generalizing m with
  | nil => simp
  | cons row rows ih =>
    obtain ⟨a, b⟩ := row
    obtain ⟨ha, hrows⟩ := List.nodupKeys_cons.mp hrows
    rw [List.foldl_cons, ih hrows]
    by_cases hk : k = a
    · subst hk
      rw [List.dlookup_eq_none.mpr ha, List.dlookup_cons_eq, AList.lookup_insert]
      rfl
    · rw [List.dlookup_cons_ne _ _ hk, AList.lookup_insert_ne hk]

theorem le_foldr_max {f : α → Nat} {a : α} (ha : a ∈ l) : f a ≤ l.foldr (fun b m => max (f b) m) 0 := by
  induction l with
  | nil => cases ha
  | cons b l ih =>
    rw [List.foldr_cons]
    rcases List.mem_cons.mp ha with rfl | ha
    · exact Nat.le_max_left _ _
    · exact Nat.le_trans (ih ha) (Nat.le_max_right _ _)

end RZEmulator.Lib
