import Mathlib.Algebra.BigOperators.Group.List.Basic
import Mathlib.Algebra.Order.Monoid.Unbundled.Basic
import Mathlib.Tactic.Abel
import RZEmulator.Lib.Run

/-!
# Ledgers of runs

What a quantity comes to at the end of a run, from what every step does to it: the sum of what was booked, or
no more than at the start. A sum over a list without repetitions changes by what its entries change by.
-/

namespace RZEmulator.Lib

section

variable {α M : Type*} {l l' : List α} {f g : α → M} {a : α}

/-- Two lists of the same entries have the same sum. -/
theorem sum_map_of_mem_iff [AddCommMonoid M] (hl : l.Nodup) (hl' : l'.Nodup) (hmem : ∀ b, b ∈ l' ↔ b ∈ l)
    (hfg : ∀ b ∈ l, g b = f b) : (l'.map g).sum = (l.map f).sum := by
  rw [(((List.perm_ext_iff_of_nodup hl' hl).mpr hmem).map g).sum_eq, List.map_congr_left hfg]

/-- One entry has another value. -/
theorem sum_map_of_changed [DecidableEq α] [AddCommGroup M] (hl : l.Nodup) (ha : a ∈ l) (hfg : ∀ b ∈ l, b ≠ a → g b = f b) :
    (l.map g).sum = (l.map f).sum + (g a - f a) := by
  have hrest : (l.erase a).map g = (l.erase a).map f := List.map_congr_left fun b hb =>
    hfg b (List.mem_of_mem_erase hb) (hl.mem_erase_iff.mp hb).1
  rw [← List.sum_map_erase g ha, ← List.sum_map_erase f ha, hrest]
  abel

/-- One entry has gone. -/
theorem sum_map_of_gone [DecidableEq α] [AddCommGroup M] (hl : l.Nodup) (hl' : l'.Nodup) (ha : a ∈ l)
    (hmem : ∀ b, b ∈ l' ↔ b ∈ l ∧ b ≠ a) (hfg : ∀ b ∈ l, b ≠ a → g b = f b) : (l'.map g).sum = (l.map f).sum - f a := by
  have hsum : (l'.map g).sum = ((l.erase a).map f).sum := by
    refine sum_map_of_mem_iff (hl.erase a) hl' (fun b => ?_) fun b hb => ?_
    · rw [hmem, hl.mem_erase_iff, and_comm]
    · exact hfg b (List.mem_of_mem_erase hb) (hl.mem_erase_iff.mp hb).1
  rw [hsum, ← List.sum_map_erase f ha, add_sub_cancel_left]

/-- One entry has come. -/
theorem sum_map_of_come [AddCommMonoid M] (hl : l.Nodup) (hl' : l'.Nodup) (ha : a ∉ l)
    (hmem : ∀ b, b ∈ l' ↔ b ∈ l ∨ b = a) (hfg : ∀ b ∈ l, g b = f b) : (l'.map g).sum = g a + (l.map f).sum := by
  have hsum : (l'.map g).sum = ((a :: l).map g).sum := by
    refine sum_map_of_mem_iff (List.nodup_cons.mpr ⟨ha, hl⟩) hl' (fun b => ?_) fun b _ => rfl
    rw [hmem, List.mem_cons, or_comm]
  rw [hsum, List.map_cons, List.sum_cons, List.map_congr_left hfg]

end

namespace System

variable {σ ε : Type*} {S : System σ ε} {C : History σ ε → σ → ε → Prop}

/-- **The rule of the ledger**: a quantity to which every step adds what it books is what it was at the start, and all
that was booked. -/
theorem RunWhere.balance {M : Type*} [AddCommMonoid M] (f : σ → M) (d : Transition σ ε → M) {m : M}
    (hinit : ∀ s, S.Init s → f s = m)
    (hstep : ∀ h s e t, S.RunWhere C h s → C h s e → S.Step s e t → f t = f s + d ⟨s, e, t⟩) {h : History σ ε} {s : σ}
    (hrun : S.RunWhere C h s) : f s = m + (h.map d).sum := by
  induction hrun with
  | init h0 => rw [hinit _ h0, List.map_nil, List.sum_nil, add_zero]
  | step hr hc hs ih => rw [hstep _ _ _ _ hr hc hs, ih, List.map_cons, List.sum_cons, add_assoc, add_comm (List.sum _)]

/-- A quantity that no step raises is never more than it was at the start. -/
theorem RunWhere.le_start {M : Type*} [Preorder M] (f : σ → M) {m : M} (hinit : ∀ s, S.Init s → f s ≤ m)
    (hstep : ∀ h s e t, S.RunWhere C h s → C h s e → S.Step s e t → f t ≤ f s) {h : History σ ε} {s : σ}
    (hrun : S.RunWhere C h s) : f s ≤ m := by
  induction hrun with
  | init h0 => exact hinit _ h0
  | step hr hc hs ih => exact (hstep _ _ _ _ hr hc hs).trans ih

end System

end RZEmulator.Lib
