import Mathlib.Data.Vector.Basic

/-!
# Bits of a block of bytes

The bits of a block are numbered from the left, the highest bit of the first byte being bit 0. Combining two blocks byte
by byte combines their bits (`bitAt_or`, `bitAt_xor`), `collect` builds the block with given bits one mask after the
other (`bitAt_collect`), and a block is determined by its bits (`ext`).
-/

namespace RZEmulator.Lib.BitBlock

abbrev Block (m : Nat) := Vector UInt8 m

variable {m : Nat}

def zero (m : Nat) : Block m := Vector.replicate m 0

def orBytes (v w : Block m) : Block m := v.zipWith (· ||| ·) w

def xorBytes (v w : Block m) : Block m := v.zipWith (· ^^^ ·) w

/-- The byte in which only the bit `n` is set. -/
def mask (n : Nat) : UInt8 := ⟨0x80#8 >>> n⟩

/-- Setting the bit `k`. -/
def setBit (v : Block m) (k : Nat) : Block m :=
  if h : k / 8 < m then v.set (k / 8) (v[k / 8] ||| mask (k % 8)) h else v

/-- The block in which exactly the bits with `c` are set. -/
def collect (m : Nat) (c : Nat → Bool) : Block m :=
  (List.range (8 * m)).foldl (fun v k => if c k then setBit v k else v) (zero m)

def bitAt (v : Block m) (k : Nat) : Bool :=
  if h : k / 8 < m then v[k / 8].toBitVec.getMsbD (k % 8) else false

theorem bitAt_of_lt (v : Block m) {k : Nat} (h : k / 8 < m) :
    bitAt v k = v[k / 8].toBitVec.getMsbD (k % 8) := dif_pos h

theorem bitAt_of_le (v : Block m) {k : Nat} (h : 8 * m ≤ k) : bitAt v k = false := dif_neg (by omega)

/-- The bit `n` of the byte `i`. -/
theorem bitAt_byte (v : Block m) {i n k : Nat} (hi : i < m) (hn : n < 8) (hk : k = 8 * i + n) :
    bitAt v k = v[i].toBitVec.getMsbD n := by
  have hdiv : k / 8 = i := by omega
  have hmod : k % 8 = n := by omega
  rw [bitAt_of_lt v (by omega)]
  simp only [hdiv, hmod]

@[simp] theorem bitAt_zero (k : Nat) : bitAt (zero m) k = false := by
  unfold bitAt zero
  split_ifs with h
  · rw [Vector.getElem_replicate]
    exact BitVec.getMsbD_zero
  · rfl

@[simp] theorem bitAt_or (v w : Block m) (k : Nat) : bitAt (orBytes v w) k = (bitAt v k || bitAt w k) := by
  unfold bitAt orBytes
  split_ifs with h
  · rw [Vector.getElem_zipWith, UInt8.toBitVec_or, BitVec.getMsbD_or]
  · rfl

@[simp] theorem bitAt_xor (v w : Block m) (k : Nat) : bitAt (xorBytes v w) k = (bitAt v k ^^ bitAt w k) := by
  unfold bitAt xorBytes
  split_ifs with h
  · rw [Vector.getElem_zipWith, UInt8.toBitVec_xor, BitVec.getMsbD_xor]
  · rfl

theorem xorBytes_xorBytes_cancel (v w : Block m) : xorBytes (xorBytes v w) w = v := by
  unfold xorBytes
  ext i hi
  rw [Vector.getElem_zipWith, Vector.getElem_zipWith, UInt8.xor_assoc, UInt8.xor_self, UInt8.xor_zero]

/-- A block is determined by its bits. -/
theorem ext {v w : Block m} (h : ∀ k < 8 * m, bitAt v k = bitAt w k) : v = w := by
  refine Vector.ext fun i hi => UInt8.toBitVec_inj.mp (BitVec.eq_of_getMsbD_eq fun j hj => ?_)
  have hbit := h (8 * i + j) (by omega)
  rwa [bitAt_byte v hi hj rfl, bitAt_byte w hi hj rfl] at hbit

/-! ## Building a block -/

theorem getMsbD_mask {n k : Nat} (hn : n < 8) (hk : k < 8) :
    (mask n).toBitVec.getMsbD k = decide (k = n) := by
  have hall : ∀ n k : Fin 8, (mask n).toBitVec.getMsbD k = decide (k.val = n.val) := by decide
  exact hall ⟨n, hn⟩ ⟨k, hk⟩

theorem bitAt_setBit (v : Block m) {i k : Nat} (hk : k < 8 * m) :
    bitAt (setBit v i) k = (bitAt v k || decide (k = i)) := by
  unfold setBit
  split_ifs with hi
  · rw [bitAt_of_lt _ (by omega), bitAt_of_lt v (by omega), Vector.getElem_set]
    split_ifs with hsame
    · simp only [← hsame]
      rw [UInt8.toBitVec_or, BitVec.getMsbD_or, getMsbD_mask (by omega) (by omega)]
      congr 2
      exact propext ⟨fun h => by omega, fun h => by omega⟩
    · rw [show decide (k = i) = false from decide_eq_false (by rintro rfl; exact hsame rfl), Bool.or_false]
  · rw [show decide (k = i) = false from decide_eq_false (by omega), Bool.or_false]

theorem bitAt_foldl_setBit (c : Nat → Bool) (l : List Nat) (v : Block m) {k : Nat} (hk : k < 8 * m) :
    bitAt (l.foldl (fun v k => if c k then setBit v k else v) v) k = (bitAt v k || (decide (k ∈ l) && c k)) := by
  induction l generalizing v with
  | nil => simp
  | cons i l ih =>
    rw [List.foldl_cons, ih]
    by_cases hci : c i = true
    · rw [if_pos hci, bitAt_setBit v hk]
      by_cases hki : k = i
      · simp [hki, hci]
      · simp [hki]
    · rw [if_neg hci]
      by_cases hki : k = i
      · simp [hki, hci]
      · simp [hki]

theorem bitAt_collect (c : Nat → Bool) {k : Nat} (hk : k < 8 * m) : bitAt (collect m c) k = c k := by
  unfold collect
  rw [bitAt_foldl_setBit c _ _ hk, bitAt_zero, Bool.false_or, decide_eq_true (List.mem_range.mpr hk), Bool.true_and]

/-- The bits of blocks that are or-ed together, one for each step of a loop. -/
theorem bitAt_foldl_or {ι : Type*} (g : ι → Block m) (l : List ι) (v : Block m) (k : Nat) :
    bitAt (l.foldl (fun v i => orBytes v (g i)) v) k = (bitAt v k || l.any fun i => bitAt (g i) k) := by
  induction l generalizing v with
  | nil => simp
  | cons i l ih => rw [List.foldl_cons, ih, bitAt_or, List.any_cons, Bool.or_assoc]

end RZEmulator.Lib.BitBlock
