import Mathlib.Tactic.IntervalCases
import RZEmulator.Shared.Des

/-!
# The tables compute the data encryption standard

`Standard` is the cipher on strings of bits, as it is published: selections of bits, eight compressions, sixteen rounds
and a key that is rotated from round to round. The tables of `XDes` agree with it (`bitAt_endes`, `bitAt_dedes`).
-/

namespace RZEmulator.Shared.XDes

open Lib BitBlock

/-! ## The standard -/

namespace Standard

/-- Strings of bits from the left; behind the end of a string there is no bit that is set. -/
abbrev BitString := Nat → Bool

/-- The bits at the given positions, which count from 1. -/
def select (t : List Nat) (x : BitString) : BitString := fun k =>
  match t[k]? with
  | some position => x (position - 1)
  | none => false

def add (x y : BitString) : BitString := fun k => x k ^^ y k

/-- The 32 bits to 48, the bits at the borders of each six taken twice. -/
def expansion : List Nat :=
  [32, 1, 2, 3, 4, 5, 4, 5, 6, 7, 8, 9, 8, 9, 10, 11, 12, 13, 12, 13, 14, 15, 16, 17,
   16, 17, 18, 19, 20, 21, 20, 21, 22, 23, 24, 25, 24, 25, 26, 27, 28, 29, 28, 29, 30, 31, 32, 1]

/-- Six bits as an entry of the compression `k`: the outer two are the row, the inner four the column. -/
def compression (k : Nat) (b : Fin 6 → Bool) : Nat :=
  let row := 2 * (b 0).toNat + (b 5).toNat
  let column := 8 * (b 1).toNat + 4 * (b 2).toNat + 2 * (b 3).toNat + (b 4).toNat
  (si.getD k []).getD (16 * row + column) 0

/-- Each six of the 48 bits to four. -/
def substitute (x : BitString) : BitString := fun n =>
  n < 32 && (compression (n / 4) fun j => x (6 * (n / 4) + j)).testBit (3 - n % 4)

def roundFunction (key right : BitString) : BitString :=
  select p32i (substitute (add (select expansion right) key))

/-- The rotations of the two registers before each round. -/
def shifts : List Nat := [1, 1, 2, 2, 2, 2, 2, 2, 1, 2, 2, 2, 2, 2, 2, 1]

def rotate (s : Nat) (x : BitString) : BitString := fun j =>
  if j < 28 then x ((j + s) % 28) else if j < 56 then x (28 + (j - 28 + s) % 28) else false

/-- The two registers after `i` rotations. -/
def registers (key : BitString) : Nat → BitString
  | 0 => select pc1 key
  | i + 1 => rotate (shifts.getD i 0) (registers key i)

def subkey (key : BitString) (i : Nat) : BitString := select pc2 (registers key (i + 1))

/-- The cipher with the keys of its rounds. -/
def crypt (keys : List BitString) (x : BitString) : BitString :=
  let y := select ip x
  let h := Feistel.network add (keys.map roundFunction) (fun k => k < 32 && y k, fun k => y (32 + k))
  select fp fun k => if k < 32 then h.1 k else h.2 (k - 32)

def encipher (key : BitString) : BitString → BitString := crypt ((List.range 16).map (subkey key))

def decipher (key : BitString) : BitString → BitString := crypt ((List.range 16).map (subkey key)).reverse

end Standard

open Standard

/-! ## Permutations -/

theorem nibble_high (c : UInt8) {n : Nat} (hn : n < 4) :
    (((c >>> 4) &&& 0x0f).toNat &&& nibblebit.getD n 0 != 0) = c.toBitVec.getMsbD n := by
  have hall : ∀ (n : Fin 4) (c : Fin 256), (((UInt8.ofFin c >>> 4) &&& 0x0f).toNat &&& nibblebit.getD n 0 != 0) =
      (UInt8.ofFin c).toBitVec.getMsbD n := by decide +kernel
  exact hall ⟨n, hn⟩ c.toFin

theorem nibble_low (c : UInt8) {n : Nat} (hn : n < 4) :
    ((c &&& 0x0f).toNat &&& nibblebit.getD n 0 != 0) = c.toBitVec.getMsbD (4 + n) := by
  have hall : ∀ (n : Fin 4) (c : Fin 256), ((UInt8.ofFin c &&& 0x0f).toNat &&& nibblebit.getD n 0 != 0) =
      (UInt8.ofFin c).toBitVec.getMsbD (4 + n) := by decide +kernel
  exact hall ⟨n, hn⟩ c.toFin

theorem byte_bit (c : UInt8) {n : Nat} (hn : n < 8) :
    (c.toNat &&& bytebit.getD n 0 != 0) = c.toBitVec.getMsbD n := by
  have hall : ∀ (n : Fin 8) (c : Fin 256), ((UInt8.ofFin c).toNat &&& bytebit.getD n 0 != 0) =
      (UInt8.ofFin c).toBitVec.getMsbD n := by decide +kernel
  exact hall ⟨n, hn⟩ c.toFin

theorem select_eq {t : List Nat} {k : Nat} (hk : k < t.length) (x : BitString) :
    select t x k = x (t.getD k 0 - 1) := by
  unfold select
  rw [List.getElem?_eq_getElem hk, List.getD_eq_getElem?_getD, List.getElem?_eq_getElem hk]
  rfl

theorem select_of_le {t : List Nat} {k : Nat} (hk : t.length ≤ k) (x : BitString) : select t x k = false := by
  unfold select
  rw [List.getElem?_eq_none hk]

theorem getD_mem_range {t : List Nat} {n k : Nat} (ht : ∀ q ∈ t, 1 ≤ q ∧ q ≤ n) (hk : k < t.length) :
    t.getD k 0 - 1 < n := by
  rw [List.getD_eq_getElem?_getD, List.getElem?_eq_getElem hk, Option.getD_some]
  have := ht _ (List.getElem_mem hk)
  omega

/-- The masks of the nibbles permute a block as their table says. -/
theorem bitAt_permute {p : List Nat} (hlen : p.length = 64) (hp : ∀ q ∈ p, 1 ≤ q ∧ q ≤ 64) (x : Block 8) :
    bitAt (permute x (perminit p)) = select p (bitAt x) := by
  funext k
  by_cases hk : k < 64
  · have hl := getD_mem_range hp (hlen ▸ hk)
    rw [select_eq (hlen ▸ hk)]
    unfold permute perminit
    rw [bitAt_foldl_or, bitAt_zero, Bool.false_or]
    simp only [bitAt_or, bitAt_collect _ (show k < 8 * 8 from hk)]
    generalize p.getD k 0 - 1 = l at hl ⊢
    rw [Bool.eq_iff_iff, List.any_eq_true]
    constructor
    · rintro ⟨j, -, hj⟩
      rw [Bool.or_eq_true, Bool.and_eq_true, Bool.and_eq_true, decide_eq_true_iff, decide_eq_true_iff,
        nibble_high _ (by omega), nibble_low _ (by omega)] at hj
      rcases hj with ⟨hi, hbit⟩ | ⟨hi, hbit⟩
      · rw [bitAt_byte x j.isLt (Nat.lt_of_lt_of_le (Nat.mod_lt l (by decide : 0 < 4)) (by decide)) (by omega)]
        exact hbit
      · rw [bitAt_byte x j.isLt (show 4 + l % 4 < 8 by omega) (by omega)]
        exact hbit
    · intro hbit
      rw [bitAt_of_lt x (by omega)] at hbit
      refine ⟨⟨l / 8, by omega⟩, List.mem_finRange _, ?_⟩
      rw [Bool.or_eq_true, Bool.and_eq_true, Bool.and_eq_true, decide_eq_true_iff, decide_eq_true_iff,
        nibble_high _ (by omega), nibble_low _ (by omega)]
      by_cases hhigh : l % 8 < 4
      · left
        refine ⟨by simp only; omega, ?_⟩
        rwa [show l % 4 = l % 8 by omega]
      · right
        refine ⟨by simp only; omega, ?_⟩
        rwa [show 4 + l % 4 = l % 8 by omega]
  · rw [bitAt_of_le _ (by omega), select_of_le (by omega)]

/-- The masks of the bytes permute 32 bits as `p32i` says. -/
theorem bitAt_perm32 (d : XDes) (hd : d.m_p32 = p32init) (x : Block 4) :
    bitAt (d.perm32 x) = select p32i (bitAt x) := by
  have hlen : p32i.length = 32 := rfl
  funext k
  by_cases hk : k < 32
  · have hl := getD_mem_range (t := p32i) (n := 32) (by decide) (hlen ▸ hk)
    rw [select_eq (hlen ▸ hk)]
    unfold perm32
    rw [hd]
    unfold p32init
    rw [bitAt_foldl_or, bitAt_zero, Bool.false_or]
    simp only [bitAt_collect _ (show k < 8 * 4 from hk)]
    generalize p32i.getD k 0 - 1 = l at hl ⊢
    rw [bitAt_of_lt x (by omega), Bool.eq_iff_iff, List.any_eq_true]
    constructor
    · rintro ⟨j, -, hj⟩
      rw [Bool.and_eq_true, decide_eq_true_iff, byte_bit _ (by omega)] at hj
      simp only [hj.1]
      exact hj.2
    · intro hbit
      refine ⟨⟨l / 8, by omega⟩, List.mem_finRange _, ?_⟩
      rw [Bool.and_eq_true, decide_eq_true_iff, byte_bit _ (by omega)]
      exact ⟨rfl, hbit⟩
  · rw [bitAt_of_le _ (by omega), select_of_le (by omega)]

theorem bitAt_expand (right : Block 4) : bitAt (expand right) = select expansion (bitAt right) := by
  funext k
  by_cases hk : k < 48
  · rw [bitAt_of_lt _ (by omega)]
    interval_cases k <;> simp [expand, select, expansion, bitAt]
  · rw [bitAt_of_le _ (by omega), select_of_le (not_lt.mp hk)]

/-! ## Compressions -/

theorem compression_lt (k : Nat) (b : Fin 6 → Bool) : compression k b < 16 := by
  have hall : ∀ row ∈ si, ∀ e ∈ row, e < 16 := by decide
  unfold compression
  simp only [List.getD_eq_getElem?_getD]
  generalize 16 * (2 * (b 0).toNat + (b 5).toNat) + (8 * (b 1).toNat + 4 * (b 2).toNat + 2 * (b 3).toNat + (b 4).toNat) = n
  rcases hrow : si[k]? with _ | row
  · exact Nat.zero_lt_succ _
  · rw [Option.getD_some]
    rcases he : row[n]? with _ | e
    · exact Nat.zero_lt_succ _
    · exact hall row (List.mem_of_getElem? hrow) e (List.mem_of_getElem? he)

/-- The compression of a number is that of its bits. -/
theorem getcomp_eq (k : Nat) {v : Nat} (hv : v < 64) : getcomp k v = compression k fun j => v.testBit (5 - j) := by
  have hall : ∀ v : Fin 64, ((((v.val &&& 0o40) >>> 4) ||| (v.val &&& 1)) <<< 4) + ((v.val &&& 0o37) >>> 1) =
      16 * (2 * (v.val.testBit 5).toNat + (v.val.testBit 0).toNat) +
        (8 * (v.val.testBit 4).toNat + 4 * (v.val.testBit 3).toNat + 2 * (v.val.testBit 2).toNat +
          (v.val.testBit 1).toNat) := by decide +kernel
  exact congrArg (fun n => (si.getD k []).getD n 0) (hall ⟨v, hv⟩)

/-- Two numbers below 16 side by side in a byte. -/
theorem getMsbD_pair {a b : Nat} (ha : a < 16) (hb : b < 16) {n : Nat} (hn : n < 8) :
    (UInt8.ofNat ((a <<< 4) ||| (0x0f &&& b))).toBitVec.getMsbD n =
      (if n < 4 then a else b).testBit (3 - n % 4) := by
  have hall : ∀ (a b : Fin 16) (n : Fin 8), (UInt8.ofNat ((a.val <<< 4) ||| (0x0f &&& b.val))).toBitVec.getMsbD n =
      (if n.val < 4 then a.val else b.val).testBit (3 - n.val % 4) := by decide +kernel
  exact hall ⟨a, ha⟩ ⟨b, hb⟩ ⟨n, hn⟩

/-- An entry of the compressions holds two of them, for the two halves of the twelve bits that it is looked up by. -/
theorem getMsbD_sinit {i c : Nat} {y : Nat → Bool} (hc : c < 4096) (hy : ∀ t < 12, c.testBit (11 - t) = y t) {n : Nat}
    (hn : n < 8) :
    (sinit i c).toBitVec.getMsbD n =
      (compression (2 * i + n / 4) fun j => y (6 * (n / 4) + j)).testBit (3 - n % 4) := by
  have hlow : c &&& 0o77 = c % 64 := Nat.and_two_pow_sub_one_eq_mod c 6
  have hhigh : c >>> 6 = c / 64 := Nat.shiftRight_eq_div_pow c 6
  have hbits : ∀ j : Fin 6, (c / 64).testBit (5 - j) = y j ∧ (c % 64).testBit (5 - j) = y (6 + j) := by
    intro j
    constructor
    · rw [← hhigh, Nat.testBit_shiftRight, ← hy j (by omega)]
      congr 1
      omega
    · rw [show (64 : Nat) = 2 ^ 6 from rfl, Nat.testBit_mod_two_pow, decide_eq_true (by omega), Bool.true_and,
        ← hy (6 + j) (by omega)]
      congr 1
      omega
  unfold sinit
  rw [hlow, hhigh, getcomp_eq _ (by omega), getcomp_eq _ (Nat.mod_lt _ (by decide)),
    getMsbD_pair (compression_lt ..) (compression_lt ..) hn, Nat.mul_comm i 2]
  split_ifs with h
  · rw [show n / 4 = 0 by omega]
    simp only [hbits, Nat.mul_zero, Nat.zero_add, Nat.add_zero]
  · rw [show n / 4 = 1 by omega]
    simp only [hbits, Nat.mul_one]

theorem getMsbD_eq_testBit (c : UInt8) {n : Nat} (hn : n < 8) : c.toBitVec.getMsbD n = c.toNat.testBit (7 - n) := by
  rw [BitVec.getMsbD, decide_eq_true hn, Bool.true_and]
  rfl

theorem and_0xfff (n : Nat) : 0xfff &&& n = n % 2 ^ 12 := by
  rw [Nat.and_comm]
  exact Nat.and_two_pow_sub_one_eq_mod n 12

/-- A byte and the upper half of the next one as twelve bits. -/
theorem testBit_upper (a b : UInt8) {t : Nat} (ht : t < 12) :
    (0xfff &&& ((a.toNat <<< 4) ||| ((b.toNat >>> 4) &&& 0x0f))).testBit (11 - t) =
      if t < 8 then a.toBitVec.getMsbD t else b.toBitVec.getMsbD (t - 8) := by
  have hmod : (b.toNat >>> 4) &&& 0x0f = (b.toNat >>> 4) % 2 ^ 4 := Nat.and_two_pow_sub_one_eq_mod _ 4
  rw [and_0xfff, hmod, Nat.testBit_mod_two_pow, Nat.testBit_or, Nat.testBit_shiftLeft, Nat.testBit_mod_two_pow,
    Nat.testBit_shiftRight, decide_eq_true (show 11 - t < 12 by omega), Bool.true_and]
  split_ifs with h
  · rw [getMsbD_eq_testBit _ h, decide_eq_true (by omega), decide_eq_false (by omega), Bool.true_and, Bool.false_and,
      Bool.or_false]
    congr 1
    omega
  · rw [getMsbD_eq_testBit _ (by omega), decide_eq_false (by omega), decide_eq_true (by omega), Bool.false_and,
      Bool.false_or, Bool.true_and]
    congr 1
    omega

/-- The lower half of a byte and the next one. -/
theorem testBit_lower (a b : UInt8) {t : Nat} (ht : t < 12) :
    (0xfff &&& ((a.toNat <<< 8) ||| (b.toNat &&& 0xff))).testBit (11 - t) =
      if t < 4 then a.toBitVec.getMsbD (4 + t) else b.toBitVec.getMsbD (t - 4) := by
  have hmod : b.toNat &&& 0xff = b.toNat % 2 ^ 8 := Nat.and_two_pow_sub_one_eq_mod _ 8
  rw [and_0xfff, hmod, Nat.testBit_mod_two_pow, Nat.testBit_or, Nat.testBit_shiftLeft, Nat.testBit_mod_two_pow,
    decide_eq_true (show 11 - t < 12 by omega), Bool.true_and]
  split_ifs with h
  · rw [getMsbD_eq_testBit _ (by omega), decide_eq_true (by omega), decide_eq_false (by omega), Bool.true_and,
      Bool.false_and, Bool.or_false]
    congr 1
    omega
  · rw [getMsbD_eq_testBit _ (by omega), decide_eq_false (by omega), decide_eq_true (by omega), Bool.false_and,
      Bool.false_or, Bool.true_and]
    congr 1
    omega

/-- The compressions by twelve bits are the compressions by six. -/
theorem bitAt_contract (d : XDes) (hd : d.m_s = sinit) (x : Block 6) :
    bitAt (d.contract x) = substitute (bitAt x) := by
  have hlt : ∀ n, 0xfff &&& n < 4096 := fun n => and_0xfff n ▸ Nat.mod_lt _ (by decide)
  funext k
  unfold substitute
  by_cases hk : k < 32
  · rw [decide_eq_true hk, Bool.true_and]
    -- the twelve bits that a byte is looked up by are those from `12 * i` on
    have hbyte : ∀ (i c : Nat) (hi : i < 4), (d.contract x)[i] = sinit i (0xfff &&& c) → k / 8 = i →
        (∀ t < 12, (0xfff &&& c).testBit (11 - t) = bitAt x (12 * i + t)) →
        bitAt (d.contract x) k = (compression (k / 4) fun j => bitAt x (6 * (k / 4) + j)).testBit (3 - k % 4) := by
      intro i c hi hentry hki hy
      rw [bitAt_byte _ hi (show k % 8 < 8 by omega) (by omega), hentry, getMsbD_sinit (hlt c) hy (by omega),
        show 2 * i + k % 8 / 4 = k / 4 by omega, show k % 8 % 4 = k % 4 by omega]
      congr 3
      funext j
      congr 1
      omega
    have hcases : k / 8 = 0 ∨ k / 8 = 1 ∨ k / 8 = 2 ∨ k / 8 = 3 := by omega
    rcases hcases with h | h | h | h
    · refine hbyte 0 ((x[0].toNat <<< 4) ||| ((x[1].toNat >>> 4) &&& 0x0f)) (by decide)
        (congrFun (congrFun hd 0) _) h fun t ht => ?_
      rw [testBit_upper _ _ ht]
      split_ifs with h8
      · rw [bitAt_byte x (show 0 < 6 by decide) h8 (by omega)]
      · rw [bitAt_byte x (show 1 < 6 by decide) (show t - 8 < 8 by omega) (by omega)]
    · refine hbyte 1 ((x[1].toNat <<< 8) ||| (x[2].toNat &&& 0xff)) (by decide) (congrFun (congrFun hd 1) _) h fun t ht => ?_
      rw [testBit_lower _ _ ht]
      split_ifs with h4
      · rw [bitAt_byte x (show 1 < 6 by decide) (show 4 + t < 8 by omega) (by omega)]
      · rw [bitAt_byte x (show 2 < 6 by decide) (show t - 4 < 8 by omega) (by omega)]
    · refine hbyte 2 ((x[3].toNat <<< 4) ||| ((x[4].toNat >>> 4) &&& 0x0f)) (by decide)
        (congrFun (congrFun hd 2) _) h fun t ht => ?_
      rw [testBit_upper _ _ ht]
      split_ifs with h8
      · rw [bitAt_byte x (show 3 < 6 by decide) h8 (by omega)]
      · rw [bitAt_byte x (show 4 < 6 by decide) (show t - 8 < 8 by omega) (by omega)]
    · refine hbyte 3 ((x[4].toNat <<< 8) ||| (x[5].toNat &&& 0xff)) (by decide) (congrFun (congrFun hd 3) _) h fun t ht => ?_
      rw [testBit_lower _ _ ht]
      split_ifs with h4
      · rw [bitAt_byte x (show 4 < 6 by decide) (show 4 + t < 8 by omega) (by omega)]
      · rw [bitAt_byte x (show 5 < 6 by decide) (show t - 4 < 8 by omega) (by omega)]
  · rw [bitAt_of_le _ (by omega), decide_eq_false hk, Bool.false_and]

/-! ## The keys of the rounds -/

/-- How far the registers are rotated before the round `i`. -/
def rotated (i : Nat) : Nat := (shifts.take i).sum

theorem registers_eq (key : BitString) (i : Nat) {j : Nat} (hj : j < 56) :
    registers key i j =
      select pc1 key (if j < 28 then (j + rotated i) % 28 else 28 + (j - 28 + rotated i) % 28) := by
  induction i generalizing j with
  | zero =>
    show select pc1 key j = _
    congr 1
    rw [show rotated 0 = 0 from rfl]
    split_ifs <;> omega
  | succ i ih =>
    have hsum : rotated (i + 1) = rotated i + shifts.getD i 0 := by
      unfold rotated
      rw [List.getD_eq_getElem?_getD]
      rcases hi : shifts[i]? with _ | s
      · rw [List.take_of_length_le (List.getElem?_eq_none_iff.mp hi),
          List.take_of_length_le (Nat.le_succ_of_le (List.getElem?_eq_none_iff.mp hi))]
        rfl
      · rw [List.take_add_one, hi, List.sum_append]
        simp
    rw [registers, hsum]
    unfold rotate
    split_ifs with h28
    · rw [ih (by omega), if_pos (by omega)]
      congr 1
      omega
    · rw [ih (by omega), if_neg (by omega)]
      congr 1
      omega

theorem totrot_eq {i : Nat} (hi : i < 16) : totrot.getD i 0 = rotated (i + 1) ∧ rotated (i + 1) ≤ 28 := by
  have hall : ∀ i : Fin 16, totrot.getD i 0 = rotated (i + 1) ∧ rotated (i + 1) ≤ 28 := by decide
  exact hall ⟨i, hi⟩

theorem pc1m_eq (key : Block 8) {j : Nat} (hj : j < 56) : pc1m key j = select pc1 (bitAt key) j := by
  have hl := getD_mem_range (t := pc1) (n := 64) (by decide) (show j < pc1.length from hj)
  rw [select_eq (show j < pc1.length from hj)]
  unfold pc1m
  simp only
  generalize pc1.getD j 0 - 1 = l at hl ⊢
  rw [byte_bit _ (by omega), bitAt_of_lt _ (by omega)]
  congr 2
  rw [List.getD_eq_getElem?_getD, List.getElem?_eq_getElem (by rw [Vector.length_toList]; omega)]
  rfl

/-- The keys of the rounds are the selections of the rotated registers. -/
theorem bitAt_kinit (key : Block 8) {i : Nat} (hi : i < 16) : bitAt (kinit key i) = subkey (bitAt key) i := by
  obtain ⟨htotrot, hle⟩ := totrot_eq hi
  funext k
  unfold subkey
  by_cases hk : k < 48
  · have hl := getD_mem_range (t := pc2) (n := 56) (by decide) (show k < pc2.length from hk)
    rw [select_eq (show k < pc2.length from hk)]
    unfold kinit
    rw [bitAt_collect _ (show k < 8 * 6 from hk), registers_eq _ _ hl]
    generalize pc2.getD k 0 - 1 = l at hl ⊢
    unfold pcr
    rw [htotrot]
    rw [pc1m_eq _ (by split_ifs <;> omega)]
    congr 1
    split_ifs <;> omega
  · rw [bitAt_of_le _ (by omega), select_of_le (show pc2.length ≤ k from not_lt.mp hk)]

/-! ## The cipher -/

theorem bitAt_halves_fst (b : Block 8) (k : Nat) : bitAt (halves b).1 k = (k < 32 && bitAt b k) := by
  by_cases hk : k < 32
  · rw [decide_eq_true hk, Bool.true_and]
    interval_cases k <;> rfl
  · rw [bitAt_of_le _ (by omega), decide_eq_false hk, Bool.false_and]

theorem bitAt_halves_snd (b : Block 8) (k : Nat) : bitAt (halves b).2 k = bitAt b (32 + k) := by
  by_cases hk : k < 32
  · interval_cases k <;> rfl
  · rw [bitAt_of_le _ (by omega), bitAt_of_le _ (by omega)]

theorem bitAt_joined (h : Block 4 × Block 4) (k : Nat) :
    bitAt (joined h) k = if k < 32 then bitAt h.1 k else bitAt h.2 (k - 32) := by
  have hfst := bitAt_halves_fst (joined h) k
  have hsnd := bitAt_halves_snd (joined h) (k - 32)
  rw [halves_joined] at hfst hsnd
  split_ifs with hk
  · rw [hfst, decide_eq_true hk, Bool.true_and]
  · rw [hsnd, show 32 + (k - 32) = k by omega]

/-- The function of a round is that of the standard. -/
theorem bitAt_f (password : List UInt8) {i : Nat} (hi : i < 16) (right : Block 4) :
    bitAt ((init password).f right i) =
      roundFunction (subkey (bitAt (key64bit password)) i) (bitAt right) := by
  unfold f roundFunction
  rw [bitAt_perm32 _ rfl, bitAt_contract _ rfl]
  congr 2
  funext k
  rw [bitAt_xor, bitAt_expand]
  exact congrArg _ (congrFun (bitAt_kinit _ hi) k)

/-- What the object does to a block with the functions of its rounds in some order, the standard does with the keys in
that order. -/
theorem bitAt_crypt (password : List UInt8) {l : List Nat} (hl : ∀ i ∈ l, i < 16) (b : Block 8) :
    bitAt (permute (joined (Feistel.network xorBytes (l.map fun i right => (init password).f right i)
      (halves (permute b (init password).m_iperm)))) (init password).m_fperm) =
    crypt (l.map (subkey (bitAt (key64bit password)))) (bitAt b) := by
  have hfun : List.Forall₂ (fun F G => ∀ a, bitAt (F a) = G (bitAt a))
      (l.map fun i right => (init password).f right i)
      ((l.map (subkey (bitAt (key64bit password)))).map roundFunction) := by
    rw [List.map_map, List.forall₂_map_left_iff, List.forall₂_map_right_iff, List.forall₂_same]
    exact fun i hi => bitAt_f password (hl i hi)
  have hmix : ∀ a b : Block 4, bitAt (xorBytes a b) = add (bitAt a) (bitAt b) :=
    fun a b => funext fun k => bitAt_xor a b k
  have hnetwork := Feistel.network_map hmix hfun (halves (permute b (init password).m_iperm))
  have hstart : (halves (permute b (init password).m_iperm)).map bitAt bitAt =
      (fun k => k < 32 && select ip (bitAt b) k, fun k => select ip (bitAt b) (32 + k)) := by
    rw [← bitAt_permute (p := ip) rfl (by decide)]
    exact Prod.ext (funext (bitAt_halves_fst _)) (funext (bitAt_halves_snd _))
  rw [show (init password).m_fperm = perminit fp from rfl, bitAt_permute rfl (by decide)]
  unfold crypt
  rw [hstart] at hnetwork
  dsimp only
  rw [← hnetwork]
  congr 1
  funext k
  exact bitAt_joined _ k

theorem bitAt_endes (password : List UInt8) (b : Block 8) :
    bitAt ((init password).endes b) = encipher (bitAt (key64bit password)) (bitAt b) := by
  rw [endes_eq]
  exact bitAt_crypt password (fun i hi => List.mem_range.mp hi) b

theorem bitAt_dedes (password : List UInt8) (b : Block 8) :
    bitAt ((init password).dedes b) = decipher (bitAt (key64bit password)) (bitAt b) := by
  rw [dedes_eq]
  unfold roundFunctions decipher
  rw [← List.map_reverse, ← List.map_reverse]
  exact bitAt_crypt password (fun i hi => List.mem_range.mp (List.mem_reverse.mp hi)) b

/-- **The tables compute the standard**: a block is enciphered and deciphered with the key that the password gives. -/
theorem des_computes_standard (password : List UInt8) (b : Block 8) :
    bitAt ((init password).endes b) = encipher (bitAt (key64bit password)) (bitAt b) ∧
      bitAt ((init password).dedes b) = decipher (bitAt (key64bit password)) (bitAt b) :=
  ⟨bitAt_endes password b, bitAt_dedes password b⟩

end RZEmulator.Shared.XDes
