import Mathlib.Algebra.Ring.Int.Defs
import Mathlib.Algebra.Ring.Nat
import Mathlib.Tactic.Common
import Mathlib.Tactic.Ring

/-!
# Integers in a fixed number of bytes

`toLE k n` are the `k` low bytes of an integer in two's complement, the least significant first. Division and
remainder are those of the integers that round down, so that one definition serves signed and unsigned numbers.
`ofLE` reads bytes as an unsigned number; `ofSignedLE` takes a number of the upper half as negative.
-/

namespace RZEmulator.Lib

def toLE : Nat → Int → List UInt8
  | 0, _ => []
  | k + 1, n => UInt8.ofNat (n % 256).toNat :: toLE k (n / 256)

def ofLE : List UInt8 → Int
  | [] => 0
  | b :: l => b.toNat + 256 * ofLE l

/-- The bytes as a signed number. -/
def ofSignedLE (l : List UInt8) : Int :=
  if 256 ^ l.length ≤ 2 * ofLE l then ofLE l - 256 ^ l.length else ofLE l

@[simp] theorem length_toLE (k : Nat) (n : Int) : (toLE k n).length = k := by
  induction k generalizing n with
  | zero => rfl
  | succ k ih => rw [toLE, List.length_cons, ih]

theorem toNat_ofNat_emod (n : Int) : ((UInt8.ofNat (n % 256).toNat).toNat : Int) = n % 256 := by
  rw [UInt8.toNat_ofNat']
  omega

theorem exists_eq_ofLE_add (k : Nat) (n : Int) : ∃ c : Int, n = ofLE (toLE k n) + 256 ^ k * c := by
  induction k generalizing n with
  | zero => exact ⟨n, by rw [toLE, ofLE, pow_zero]; ring⟩
  | succ k ih =>
    obtain ⟨c, hc⟩ := ih (n / 256)
    refine ⟨c, ?_⟩
    rw [toLE, ofLE, toNat_ofNat_emod]
    calc n = n % 256 + 256 * (n / 256) := (Int.emod_add_mul_ediv n 256).symm
      _ = n % 256 + 256 * (ofLE (toLE k (n / 256)) + 256 ^ k * c) := by rw [← hc]
      _ = _ := by ring

theorem ofLE_range (l : List UInt8) : 0 ≤ ofLE l ∧ ofLE l < 256 ^ l.length := by
  induction l with
  | nil => exact ⟨Int.le_refl 0, by decide⟩
  | cons b l ih =>
    have hb : b.toNat < 256 := b.toNat_lt
    rw [ofLE, List.length_cons, pow_succ]
    omega

/-- Different bytes of one length are different numbers. -/
theorem ofLE_injective {l l' : List UInt8} (hlen : l.length = l'.length) (h : ofLE l = ofLE l') : l = l' := by
  induction l generalizing l' with
  | nil => exact (List.length_eq_zero_iff.mp hlen.symm).symm
  | cons b l ih =>
    cases l' with
    | nil => cases hlen
    | cons b' l' =>
      have hb : b.toNat < 256 := b.toNat_lt
      have hb' : b'.toNat < 256 := b'.toNat_lt
      rw [ofLE, ofLE] at h
      have hhead : b.toNat = b'.toNat := by omega
      have htail : ofLE l = ofLE l' := by omega
      rw [UInt8.toNat_inj.mp hhead, ih (Nat.succ.inj hlen) htail]

/-- The bytes of a number are its remainder. -/
theorem ofLE_toLE (k : Nat) (n : Int) : ofLE (toLE k n) = n % 256 ^ k := by
  obtain ⟨c, hc⟩ := exists_eq_ofLE_add k n
  have hrange := ofLE_range (toLE k n)
  rw [length_toLE] at hrange
  calc ofLE (toLE k n) = ofLE (toLE k n) % 256 ^ k := (Int.emod_eq_of_lt hrange.1 hrange.2).symm
    _ = (ofLE (toLE k n) + 256 ^ k * c) % 256 ^ k := (Int.add_mul_emod_self_left _ _ _).symm
    _ = n % 256 ^ k := by rw [← hc]

theorem ofLE_toLE_of_range {k : Nat} {n : Int} (h : 0 ≤ n) (h' : n < 256 ^ k) : ofLE (toLE k n) = n := by
  rw [ofLE_toLE, Int.emod_eq_of_lt h h']

theorem ofSignedLE_toLE {k : Nat} {n : Int} (h : -256 ^ k ≤ 2 * n) (h' : 2 * n < 256 ^ k) :
    ofSignedLE (toLE k n) = n := by
  rw [ofSignedLE, length_toLE]
  by_cases hneg : n < 0
  · have hmod : n % 256 ^ k = n + 256 ^ k := by
      rw [← Int.add_emod_right, Int.emod_eq_of_lt (by omega) (by omega)]
    rw [ofLE_toLE, hmod, if_pos (by omega)]
    omega
  · rw [ofLE_toLE_of_range (by omega) (by omega), if_neg (by omega)]

theorem ofSignedLE_injective {l l' : List UInt8} (hlen : l.length = l'.length) (h : ofSignedLE l = ofSignedLE l') :
    l = l' := by
  have hrange := ofLE_range l
  have hrange' := ofLE_range l'
  refine ofLE_injective hlen ?_
  rw [ofSignedLE, ofSignedLE, hlen] at h
  rw [hlen] at hrange
  split_ifs at h <;> omega

end RZEmulator.Lib
