import Mathlib.Data.Nat.Bitwise
import Mathlib.Tactic.IntervalCases

/-!
# Encoded numbers

Some numbers of an enter packet are sent in four words: `EncodingRandomized` mixes two random words into them, or would,
and `EncodingScrambled` moves the bits of the number about before that. The game server does not use these classes to
send; it writes the words itself with `Messages::GetEncodedInt`. A reader finds the number all the same
(`encodedInt_of_written`), with whatever random words it has been written.
-/

namespace RZEmulator.Shared

/-! ## Words -/

namespace EncodingRandomized

/-- `SerializedValue::u16`. -/
structure SerializedValue where
  u0 : UInt16
  u1 : UInt16
  u2 : UInt16
  u3 : UInt16
  deriving DecidableEq

/-- The eight bytes of `u64` in the memory. -/
def SerializedValue.bytes (sv : SerializedValue) : List UInt8 :=
  [sv.u0, sv.u1, sv.u2, sv.u3].flatMap fun w : UInt16 => [w.toUInt8, (w >>> 8).toUInt8]

/-- A word of two bytes. -/
def word (low high : UInt8) : UInt16 := low.toUInt16 ||| (high.toUInt16 <<< 8)

/-- `read<uint64_t>`, which needs eight bytes. -/
def SerializedValue.ofBytes : List UInt8 → Option SerializedValue
  | [b0, b1, b2, b3, b4, b5, b6, b7] => some ⟨word b0 b1, word b2 b3, word b4 b5, word b6 b7⟩
  | _ => none

/-- `EncodingRandomized::serialize`. -/
def serialize (value : UInt32) : List UInt8 :=
  SerializedValue.bytes ⟨0, (value >>> 16).toUInt16, 0, (value &&& 0xffff).toUInt16⟩

/-- What its comment calls the true implementation, with the random words. -/
def serializeWith (r0 r2 : UInt16) (value : UInt32) : List UInt8 :=
  SerializedValue.bytes
    ⟨r0, (value >>> 16).toUInt16 + 2 * (r2 - r0), r2, (value &&& 0xffff).toUInt16 - 2 * (r2 + r0)⟩

/-- `EncodingRandomized::deserialize`. -/
def deserialize (buffer : List UInt8) : Option UInt32 :=
  (SerializedValue.ofBytes buffer).map fun sv =>
    (sv.u1 - 2 * (sv.u2 - sv.u0)).toUInt32 <<< (16 : UInt32) ||| (sv.u3 + 2 * (sv.u2 + sv.u0)).toUInt32

/-- Two halves put together. -/
theorem or_shiftLeft {low high n : Nat} (hlow : low < 2 ^ n) : low ||| high <<< n = high * 2 ^ n + low := by
  rw [Nat.or_comm, ← Nat.shiftLeft_add_eq_or_of_lt hlow, Nat.shiftLeft_eq]

theorem word_halves (w : UInt16) : word w.toUInt8 (w >>> 8).toUInt8 = w := by
  have hw := w.toNat_lt
  apply UInt16.toNat_inj.mp
  unfold word
  rw [UInt16.toNat_or, UInt16.toNat_shiftLeft, UInt8.toNat_toUInt16, UInt8.toNat_toUInt16, UInt16.toNat_toUInt8,
    UInt16.toNat_toUInt8, UInt16.toNat_shiftRight]
  show w.toNat % 2 ^ 8 ||| (w.toNat >>> 8 % 2 ^ 8) <<< 8 % 2 ^ 16 = w.toNat
  have hhigh : (w.toNat >>> 8 % 2 ^ 8) <<< 8 % 2 ^ 16 = (w.toNat / 2 ^ 8) <<< 8 := by
    rw [Nat.shiftRight_eq_div_pow, Nat.shiftLeft_eq, Nat.shiftLeft_eq]
    omega
  rw [hhigh, or_shiftLeft (Nat.mod_lt _ (by decide))]
  omega

theorem ofBytes_bytes (sv : SerializedValue) : SerializedValue.ofBytes sv.bytes = some sv := by
  show some (SerializedValue.mk (word sv.u0.toUInt8 _) (word sv.u1.toUInt8 _) (word sv.u2.toUInt8 _)
    (word sv.u3.toUInt8 _)) = some sv
  rw [word_halves, word_halves, word_halves, word_halves]

theorem value_halves (v : UInt32) :
    ((v >>> 16).toUInt16.toUInt32 <<< (16 : UInt32) ||| (v &&& 0xffff).toUInt16.toUInt32) = v := by
  have hv := v.toNat_lt
  apply UInt32.toNat_inj.mp
  rw [UInt32.toNat_or, UInt32.toNat_shiftLeft, UInt16.toNat_toUInt32, UInt16.toNat_toUInt32, UInt32.toNat_toUInt16,
    UInt32.toNat_toUInt16, UInt32.toNat_shiftRight, UInt32.toNat_and]
  show (v.toNat >>> 16 % 2 ^ 16) <<< 16 % 2 ^ 32 ||| (v.toNat &&& 2 ^ 16 - 1) % 2 ^ 16 = v.toNat
  have hhigh : (v.toNat >>> 16 % 2 ^ 16) <<< 16 % 2 ^ 32 = (v.toNat / 2 ^ 16) <<< 16 := by
    rw [Nat.shiftRight_eq_div_pow, Nat.shiftLeft_eq, Nat.shiftLeft_eq]
    omega
  rw [hhigh, Nat.or_comm, Nat.and_two_pow_sub_one_eq_mod, or_shiftLeft (Nat.mod_lt _ (by decide))]
  omega

/-- The random words drop out. -/
theorem deserialize_serializeWith (r0 r2 : UInt16) (value : UInt32) :
    deserialize (serializeWith r0 r2 value) = some value := by
  unfold deserialize serializeWith
  rw [ofBytes_bytes, Option.map_some]
  dsimp only
  rw [UInt16.add_sub_cancel, UInt16.sub_add_cancel, value_halves]

theorem serialize_eq (value : UInt32) : serialize value = serializeWith 0 0 value := by
  unfold serialize serializeWith
  rw [show (2 : UInt16) * (0 - 0) = 0 from rfl, show (2 : UInt16) * (0 + 0) = 0 from rfl, UInt16.add_zero, UInt16.sub_zero]

end EncodingRandomized

/-- `Messages::GetEncodedInt`: what it appends to a packet. -/
def getEncodedInt (nDecoded : UInt32) : List UInt8 :=
  let loword : UInt16 := nDecoded.toUInt16
  let hiword : UInt16 := ((nDecoded >>> 16) &&& 0xffff).toUInt16
  [0, hiword, 0, loword].flatMap fun w : UInt16 => [w.toUInt8, (w >>> 8).toUInt8]

namespace EncodingScrambled

/-! ## Maps of bits -/

/-- Exchanges two entries. -/
def exchanged (map : List Nat) (i j : Nat) : List Nat := (map.set i (map.getD j 0)).set j (map.getD i 0)

/-- `encodeMap` after `EncodingScrambled::init`. -/
def encodeMap : List Nat :=
  ((List.range 32).foldl (fun r i => (exchanged r.1 i r.2, (r.2 + i + 3) % 32)) (List.range 32, 3)).1

/-- `decodeMap` after `EncodingScrambled::init`. -/
def decodeMap : List Nat := (List.range 32).foldl (fun map i => map.set (encodeMap.getD i 0) i) (List.replicate 32 0)

/-- The loop of `encode` and of `decode` over the bits from `i` on. -/
def moveBits (map : List Nat) : Nat → Nat → UInt32 → UInt32 → UInt32
  | 0, _, result, _ => result
  | count + 1, i, result, v =>
    moveBits map count (i + 1) (if v &&& 1 = 0 then result else result ||| (1 : UInt32) <<< UInt32.ofNat (map.getD i 0)) (v >>> 1)

/-- `EncodingScrambled::encode`, and `Scramble`. -/
def encode (v : UInt32) : UInt32 := moveBits encodeMap 32 0 0 v

/-- `EncodingScrambled::decode`. -/
def decode (v : UInt32) : UInt32 := moveBits decodeMap 32 0 0 v

/-- `EncodingScrambled::serialize`. -/
def serialize (value : UInt32) : List UInt8 := EncodingRandomized.serialize (encode value)

/-- `EncodingScrambled::deserialize`. -/
def deserialize (buffer : List UInt8) : Option UInt32 := (EncodingRandomized.deserialize buffer).map decode

/-- Two maps of the bits of a word that undo each other. -/
structure Inverse (map back : List Nat) : Prop where
  lt : ∀ i < 32, map.getD i 0 < 32
  back : ∀ i < 32, back.getD (map.getD i 0) 0 = i

theorem inverse_encodeMap : Inverse encodeMap decodeMap := ⟨by decide, by decide⟩

theorem inverse_decodeMap : Inverse decodeMap encodeMap := ⟨by decide, by decide⟩

theorem testBit_one_shiftLeft {m : Nat} (hm : m < 32) (j : Nat) :
    ((1 : UInt32) <<< UInt32.ofNat m).toNat.testBit j = decide (m = j) := by
  rw [UInt32.toNat_shiftLeft, UInt32.toNat_ofNat_of_lt' (Nat.lt_trans hm (by decide)), Nat.mod_eq_of_lt hm]
  have hone : (1 : UInt32).toNat = 1 := rfl
  rw [hone, Nat.one_shiftLeft, Nat.mod_eq_of_lt (Nat.pow_lt_pow_right (by decide) hm), Nat.testBit_two_pow]

theorem and_one_eq_zero_iff (v : UInt32) : v &&& 1 = 0 ↔ v.toNat.testBit 0 = false := by
  rw [← UInt32.toNat_inj, UInt32.toNat_and]
  have hone : (1 : UInt32).toNat = 1 := rfl
  have hzero : (0 : UInt32).toNat = 0 := rfl
  rw [hone, hzero, Nat.and_one_is_mod, Nat.testBit_zero, decide_eq_false_iff_not]
  omega

/-- The loop moves each bit to its place and adds no other. -/
theorem testBit_moveBits {map : List Nat} (hlt : ∀ i < 32, map.getD i 0 < 32) (count i : Nat) (hi : i + count ≤ 32)
    (result v : UInt32) (j : Nat) :
    (moveBits map count i result v).toNat.testBit j = true ↔
      result.toNat.testBit j = true ∨ ∃ k < count, map.getD (i + k) 0 = j ∧ v.toNat.testBit k = true := by
  induction count generalizing i result v with
  | zero =>
    refine ⟨.inl, fun h => h.resolve_right ?_⟩
    rintro ⟨k, hk, -⟩
    exact Nat.not_lt_zero k hk
  | succ count ih =>
    unfold moveBits
    rw [ih (i + 1) (by omega)]
    have hshift : ∀ k, (v >>> 1).toNat.testBit k = v.toNat.testBit (k + 1) := by
      intro k
      rw [UInt32.toNat_shiftRight, Nat.testBit_shiftRight, Nat.add_comm k]
      rfl
    have hfirst : (if v &&& 1 = 0 then result else result ||| (1 : UInt32) <<< UInt32.ofNat (map.getD i 0)).toNat.testBit j =
        true ↔ result.toNat.testBit j = true ∨ (map.getD i 0 = j ∧ v.toNat.testBit 0 = true) := by
      split_ifs with hv
      · rw [(and_one_eq_zero_iff v).mp hv]
        exact ⟨.inl, fun h => h.resolve_right fun h => absurd h.2 (by decide)⟩
      · have hbit : v.toNat.testBit 0 = true := by
          by_contra hne
          exact hv ((and_one_eq_zero_iff v).mpr (Bool.eq_false_iff.mpr hne))
        rw [UInt32.toNat_or, Nat.testBit_or, testBit_one_shiftLeft (hlt i (by omega)), Bool.or_eq_true, decide_eq_true_iff,
          hbit]
        exact or_congr_right ⟨fun h => ⟨h, rfl⟩, And.left⟩
    rw [hfirst]
    constructor
    · rintro ((h | ⟨hmap, hbit⟩) | ⟨k, hk, hmap, hbit⟩)
      · exact .inl h
      · exact .inr ⟨0, Nat.succ_pos _, hmap, hbit⟩
      · exact .inr ⟨k + 1, Nat.succ_lt_succ hk, by rwa [← Nat.add_assoc, Nat.add_right_comm], by rwa [← hshift]⟩
    · rintro (h | ⟨k, hk, hmap, hbit⟩)
      · exact .inl (.inl h)
      · cases k with
        | zero => exact .inl (.inr ⟨hmap, hbit⟩)
        | succ k =>
          exact .inr ⟨k, Nat.lt_of_succ_lt_succ hk, by rwa [Nat.add_right_comm, Nat.add_assoc], by rwa [hshift]⟩

/-- A bit is found at its place. -/
theorem testBit_moved {map back : List Nat} (h : Inverse map back) (v : UInt32) {i : Nat} (hi : i < 32) :
    (moveBits map 32 0 0 v).toNat.testBit (map.getD i 0) = v.toNat.testBit i := by
  rw [Bool.eq_iff_iff, testBit_moveBits h.lt 32 0 (Nat.le_refl 32)]
  constructor
  · rintro (h0 | ⟨k, hk, hmap, hbit⟩)
    · rw [show (0 : UInt32).toNat = 0 from rfl, Nat.zero_testBit] at h0
      cases h0
    · rw [Nat.zero_add] at hmap
      have hki : k = i := by rw [← h.back k hk, hmap, h.back i hi]
      rwa [← hki]
  · intro hbit
    exact .inr ⟨i, hi, by rw [Nat.zero_add], hbit⟩

/-- What one map has moved the other moves back. -/
theorem moveBits_moveBits {map back : List Nat} (h : Inverse map back) (h' : Inverse back map) (v : UInt32) :
    moveBits back 32 0 0 (moveBits map 32 0 0 v) = v := by
  apply UInt32.toNat_inj.mp
  apply Nat.eq_of_testBit_eq
  intro i
  by_cases hi : i < 32
  · have hback := testBit_moved h' (moveBits map 32 0 0 v) (h.lt i hi)
    rw [h.back i hi] at hback
    rw [hback, testBit_moved h v hi]
  · have hout : ∀ w : UInt32, w.toNat.testBit i = false := fun w =>
      Nat.testBit_lt_two_pow (Nat.lt_of_lt_of_le w.toNat_lt (Nat.pow_le_pow_right (by decide) (Nat.le_of_not_lt hi)))
    rw [hout, hout]

theorem decode_encode (v : UInt32) : decode (encode v) = v := moveBits_moveBits inverse_encodeMap inverse_decodeMap v

theorem encode_decode (v : UInt32) : encode (decode v) = v := moveBits_moveBits inverse_decodeMap inverse_encodeMap v

end EncodingScrambled

/-- The two ways to write a number agree. -/
theorem getEncodedInt_eq (value : UInt32) : getEncodedInt value = EncodingRandomized.serialize value := by
  have hhigh : ((value >>> 16) &&& 0xffff).toUInt16 = (value >>> 16).toUInt16 := by
    apply UInt16.toNat_inj.mp
    rw [UInt32.toNat_toUInt16, UInt32.toNat_toUInt16, UInt32.toNat_and]
    show ((value >>> 16).toNat &&& 2 ^ 16 - 1) % 2 ^ 16 = _
    rw [Nat.and_two_pow_sub_one_eq_mod, Nat.mod_mod]
  have hlow : (value &&& 0xffff).toUInt16 = value.toUInt16 := by
    apply UInt16.toNat_inj.mp
    rw [UInt32.toNat_toUInt16, UInt32.toNat_toUInt16, UInt32.toNat_and]
    show (value.toNat &&& 2 ^ 16 - 1) % 2 ^ 16 = _
    rw [Nat.and_two_pow_sub_one_eq_mod, Nat.mod_mod]
  unfold getEncodedInt EncodingRandomized.serialize
  dsimp only
  rw [hhigh, hlow]
  rfl

/-- **A reader finds the number that was written**: by the game server in its own way, plain or scrambled, or with any
random words. Scrambling permutes the bits. -/
theorem encodedInt_of_written (value : UInt32) (r0 r2 : UInt16) :
    EncodingRandomized.deserialize (getEncodedInt value) = some value ∧
      EncodingScrambled.deserialize (getEncodedInt (EncodingScrambled.encode value)) = some value ∧
      EncodingRandomized.deserialize (EncodingRandomized.serializeWith r0 r2 value) = some value ∧
      EncodingScrambled.deserialize (EncodingScrambled.serialize value) = some value ∧
      EncodingScrambled.encode (EncodingScrambled.decode value) = value ∧
      ∀ i < 32, (EncodingScrambled.encode value).toNat.testBit (EncodingScrambled.encodeMap.getD i 0) =
        value.toNat.testBit i := by
  have hplain : ∀ v, EncodingRandomized.deserialize (EncodingRandomized.serialize v) = some v := fun v => by
    rw [EncodingRandomized.serialize_eq, EncodingRandomized.deserialize_serializeWith]
  have hscrambled : EncodingScrambled.deserialize (EncodingScrambled.serialize value) = some value := by
    unfold EncodingScrambled.deserialize EncodingScrambled.serialize
    rw [hplain, Option.map_some, EncodingScrambled.decode_encode]
  refine ⟨by rw [getEncodedInt_eq, hplain], ?_, EncodingRandomized.deserialize_serializeWith r0 r2 value, hscrambled,
    EncodingScrambled.encode_decode value, fun i hi => EncodingScrambled.testBit_moved EncodingScrambled.inverse_encodeMap value hi⟩
  rw [getEncodedInt_eq]
  exact hscrambled

end RZEmulator.Shared
