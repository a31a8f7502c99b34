import Mathlib.Algebra.Group.Nat.Defs
import RZEmulator.Lib.BlockStream

/-!
# The digest of the login password

`MD5` takes a message in any number of pieces: it keeps the bytes that do not fill a block, and the number of bits in two
words. `digestOf` says what the digest of a whole message is: the blocks of the padded message, one after the other.
The object computes it however the message is cut (`digest_of_updates`), as long as no piece comes within a block of the
largest 32-bit length, where the sum in its loop wraps.
-/

namespace RZEmulator.Shared

open Lib BlockStream

/-- `MD5`; the two words of `count` are the low and the high half of the number of bits. -/
structure MD5 where
  finalized : Bool
  buffer : List UInt8
  count : UInt32 × UInt32
  state : UInt32 × UInt32 × UInt32 × UInt32
  digest : List UInt8
  deriving DecidableEq

namespace MD5

abbrev State := UInt32 × UInt32 × UInt32 × UInt32

def blocksize : Nat := 64

/-! ## The transformation of a block -/

def F (x y z : UInt32) : UInt32 := (x &&& y) ||| (~~~x &&& z)

def G (x y z : UInt32) : UInt32 := (x &&& z) ||| (y &&& ~~~z)

def H (x y z : UInt32) : UInt32 := x ^^^ y ^^^ z

def I (x y z : UInt32) : UInt32 := y ^^^ (x ||| ~~~z)

def rotate_left (x n : UInt32) : UInt32 := (x <<< n) ||| (x >>> (32 - n))

/-- `MD5::decode`: the words of some bytes, each with its lowest byte first. -/
def decode : List UInt8 → List UInt32
  | b0 :: b1 :: b2 :: b3 :: rest =>
    (b0.toUInt32 ||| (b1.toUInt32 <<< 8) ||| (b2.toUInt32 <<< 16) ||| (b3.toUInt32 <<< 24)) :: decode rest
  | _ => []

/-- `MD5::encode`. -/
def encode (words : List UInt32) : List UInt8 :=
  words.flatMap fun (w : UInt32) => [(w &&& 0xff).toUInt8, ((w >>> 8) &&& 0xff).toUInt8, ((w >>> 16) &&& 0xff).toUInt8,
    ((w >>> 24) &&& 0xff).toUInt8]

/-- The arguments `x`, `s` and `ac` of the 16 steps of each round. -/
def steps : List ((UInt32 → UInt32 → UInt32 → UInt32) × List (Nat × UInt32 × UInt32)) :=
  [(F,
     [(0, 7, 0xd76aa478), (1, 12, 0xe8c7b756), (2, 17, 0x242070db), (3, 22, 0xc1bdceee),
      (4, 7, 0xf57c0faf), (5, 12, 0x4787c62a), (6, 17, 0xa8304613), (7, 22, 0xfd469501),
      (8, 7, 0x698098d8), (9, 12, 0x8b44f7af), (10, 17, 0xffff5bb1), (11, 22, 0x895cd7be),
      (12, 7, 0x6b901122), (13, 12, 0xfd987193), (14, 17, 0xa679438e), (15, 22, 0x49b40821)]),
   (G,
     [(1, 5, 0xf61e2562), (6, 9, 0xc040b340), (11, 14, 0x265e5a51), (0, 20, 0xe9b6c7aa),
      (5, 5, 0xd62f105d), (10, 9, 0x2441453), (15, 14, 0xd8a1e681), (4, 20, 0xe7d3fbc8),
      (9, 5, 0x21e1cde6), (14, 9, 0xc33707d6), (3, 14, 0xf4d50d87), (8, 20, 0x455a14ed),
      (13, 5, 0xa9e3e905), (2, 9, 0xfcefa3f8), (7, 14, 0x676f02d9), (12, 20, 0x8d2a4c8a)]),
   (H,
     [(5, 4, 0xfffa3942), (8, 11, 0x8771f681), (11, 16, 0x6d9d6122), (14, 23, 0xfde5380c),
      (1, 4, 0xa4beea44), (4, 11, 0x4bdecfa9), (7, 16, 0xf6bb4b60), (10, 23, 0xbebfbc70),
      (13, 4, 0x289b7ec6), (0, 11, 0xeaa127fa), (3, 16, 0xd4ef3085), (6, 23, 0x4881d05),
      (9, 4, 0xd9d4d039), (12, 11, 0xe6db99e5), (15, 16, 0x1fa27cf8), (2, 23, 0xc4ac5665)]),
   (I,
     [(0, 6, 0xf4292244), (7, 10, 0x432aff97), (14, 15, 0xab9423a7), (5, 21, 0xfc93a039),
      (12, 6, 0x655b59c3), (3, 10, 0x8f0ccc92), (10, 15, 0xffeff47d), (1, 21, 0x85845dd1),
      (8, 6, 0x6fa87e4f), (15, 10, 0xfe2ce6e0), (6, 15, 0xa3014314), (13, 21, 0x4e0811a1),
      (4, 6, 0xf7537e82), (11, 10, 0xbd3af235), (2, 15, 0x2ad7d2bb), (9, 21, 0xeb86d391)])]

/-- `FF`, `GG`, `HH` and `II`, with the four words named anew for the step that follows. -/
def step (f : UInt32 → UInt32 → UInt32 → UInt32) (x : List UInt32) (w : State) (arg : Nat × UInt32 × UInt32) : State :=
  let (a, b, c, d) := w
  let (k, s, ac) := arg
  (d, rotate_left (a + f b c d + x.getD k 0 + ac) s + b, b, c)

/-- `MD5::transform`. -/
def transform (state : State) (block : List UInt8) : State :=
  let x := decode block
  let (a, b, c, d) := steps.foldl (fun w round => round.2.foldl (step round.1 x) w) state
  (state.1 + a, state.2.1 + b, state.2.2.1 + c, state.2.2.2 + d)

/-! ## The object -/

def init : MD5 where
  finalized := false
  buffer := List.replicate blocksize 0
  count := (0, 0)
  state := (0x67452301, 0xefcdab89, 0x98badcfe, 0x10325476)
  digest := []

/-- `memcpy(&buffer[index], src, ..)`. -/
def memcpy (index : Nat) (src buffer : List UInt8) : List UInt8 :=
  buffer.take index ++ src ++ buffer.drop (index + src.length)

/-- The loop of `update` over the whole blocks from `i` on, with the input from there on; the sum is one of 32 bits. When
it wraps the loop reads behind the input. -/
def wholeBlocks (length : Nat) (state : State) (input : List UInt8) (i : Nat) : Option (State × List UInt8) :=
  if (i + blocksize) % 2 ^ 32 ≤ length then
    if input.length < blocksize then none
    else wholeBlocks length (transform state (input.take blocksize)) (input.drop blocksize) (i + blocksize)
  else some (state, input)
termination_by input.length
decreasing_by
  rw [List.length_drop]
  unfold blocksize at *
  omega

/-- `MD5::update` with an input of less than 2^32 bytes. -/
def update (m : MD5) (input : List UInt8) : Option MD5 := do
  let length := UInt32.ofNat input.length
  let index := (m.count.1 / 8 % 64).toNat
  let low := m.count.1 + (length <<< 3)
  let high := if low < length <<< 3 then m.count.2 + 1 else m.count.2
  let m := { m with count := (low, high + (length >>> 29)) }
  let firstpart := 64 - index
  if firstpart ≤ input.length then
    let buffer := memcpy index (input.take firstpart) m.buffer
    let (state, rest) ← wholeBlocks input.length (transform m.state buffer) (input.drop firstpart) firstpart
    return { m with state, buffer := memcpy 0 rest buffer }
  else return { m with buffer := memcpy index input m.buffer }

def padding : List UInt8 := 0x80 :: List.replicate 63 0

/-- `MD5::finalize`. -/
def finalize (m : MD5) : Option MD5 :=
  if m.finalized then some m
  else do
    let bits := encode [m.count.1, m.count.2]
    let index := (m.count.1 / 8 % 64).toNat
    let padLen := if index < 56 then 56 - index else 120 - index
    let m ← m.update (padding.take padLen)
    let m ← m.update bits
    return { m with
      digest := encode [m.state.1, m.state.2.1, m.state.2.2.1, m.state.2.2.2]
      buffer := List.replicate blocksize 0
      count := (0, 0)
      finalized := true }

/-- `sprintf` with `%02x`. -/
def hexByte (b : UInt8) : List Char := [Nat.digitChar (b.toNat / 16), Nat.digitChar (b.toNat % 16)]

/-- `MD5::hexdigest`. -/
def hexdigest (m : MD5) : List Char := if !m.finalized then [] else m.digest.flatMap hexByte

/-- `md5`, of a text of less than 2^32 bytes. -/
def md5 (str : List UInt8) : Option (List Char) := do
  let m ← init.update str
  let m ← m.finalize
  return m.hexdigest

/-! ## What the digest is -/

/-- A message with a set bit, as many zeros as fill a block up to its last eight bytes, and the number of its bits. -/
def pad (msg : List UInt8) : List UInt8 :=
  let bits := 8 * msg.length
  msg ++ (0x80 :: List.replicate ((119 - msg.length % 64) % 64) 0) ++ encode [.ofNat bits, .ofNat (bits / 2 ^ 32)]

/-- The digest of a whole message. -/
def digestOf (msg : List UInt8) : List UInt8 :=
  let state := (consume blocksize transform init.state (pad msg)).1
  encode [state.1, state.2.1, state.2.2.1, state.2.2.2]

/-! ## Pieces of a message -/

/-- The object has taken the message `msg`. -/
structure Took (m : MD5) (msg : List UInt8) : Prop where
  unfinished : m.finalized = false
  length_buffer : m.buffer.length = 64
  bits : m.count.1.toNat + 2 ^ 32 * m.count.2.toNat = 8 * msg.length % 2 ^ 64
  consumed : consume blocksize transform init.state msg = (m.state, m.buffer.take (msg.length % 64))

theorem took_init : Took init [] := ⟨rfl, rfl, rfl, consume_of_lt (by decide)⟩

variable {m : MD5} {msg : List UInt8}

theorem Took.index (h : Took m msg) : (m.count.1 / 8 % 64).toNat = msg.length % 64 := by
  have hbits := h.bits
  have hlow : m.count.1.toNat < 2 ^ 32 := m.count.1.toNat_lt
  rw [UInt32.toNat_mod, UInt32.toNat_div]
  show m.count.1.toNat / 8 % 64 = _
  omega

/-- The two words of the number of bits after a piece. -/
theorem bits_add {c1 c2 n : UInt32} {len : Nat} (h : c1.toNat + 2 ^ 32 * c2.toNat = 8 * len % 2 ^ 64) :
    (c1 + (n <<< 3)).toNat +
      2 ^ 32 * ((if c1 + (n <<< 3) < n <<< 3 then c2 + 1 else c2) + (n >>> 29)).toNat =
    8 * (len + n.toNat) % 2 ^ 64 := by
  have hleft : (n <<< 3).toNat = 8 * n.toNat % 2 ^ 32 := by
    rw [UInt32.toNat_shiftLeft, Nat.shiftLeft_eq, Nat.mul_comm]
    rfl
  have hright : (n >>> 29).toNat = n.toNat / 2 ^ 29 := by
    rw [UInt32.toNat_shiftRight, Nat.shiftRight_eq_div_pow]
    rfl
  have hc1 : c1.toNat < 2 ^ 32 := c1.toNat_lt
  have hc2 : c2.toNat < 2 ^ 32 := c2.toNat_lt
  have hn : n.toNat < 2 ^ 32 := n.toNat_lt
  have hlow : (c1 + (n <<< 3)).toNat = (c1.toNat + 8 * n.toNat % 2 ^ 32) % 2 ^ 32 := by
    rw [UInt32.toNat_add, hleft]
  rw [hlow, UInt32.toNat_add, hright]
  split_ifs with hcarry
  · rw [UInt32.lt_iff_toNat_lt, hlow, hleft] at hcarry
    rw [UInt32.toNat_add, show (1 : UInt32).toNat = 1 from rfl]
    omega
  · rw [UInt32.lt_iff_toNat_lt, hlow, hleft] at hcarry
    omega

/-- While its sum does not wrap, the loop takes the whole blocks of what is left. -/
theorem wholeBlocks_eq {length : Nat} (hlength : length + 64 < 2 ^ 32) (state : State) (input : List UInt8) :
    ∀ i, i + input.length = length →
      wholeBlocks length state input i = some (consume blocksize transform state input) := by
  induction state, input using consume.induct blocksize transform with
  | case1 state input h =>
    intro i hi
    have hlt : input.length < 64 := h.resolve_left (by decide)
    unfold wholeBlocks blocksize
    rw [consume_of_lt hlt, Nat.mod_eq_of_lt (by omega), if_neg (by omega)]
  | case2 state input h ih =>
    intro i hi
    have hle : 64 ≤ input.length := Nat.not_lt.mp fun hlt => h (Or.inr hlt)
    unfold wholeBlocks
    unfold blocksize at ih ⊢
    rw [consume_of_le (by decide) hle, Nat.mod_eq_of_lt (by omega), if_pos (by omega), if_neg (by omega)]
    exact ih (i + 64) (by rw [List.length_drop]; omega)

/-- A piece is taken behind the message so far. -/
theorem Took.update (h : Took m msg) (input : List UInt8) (hinput : input.length + 64 < 2 ^ 32) :
    ∃ m', m.update input = some m' ∧ Took m' (msg ++ input) := by
  have hn : (UInt32.ofNat input.length).toNat = input.length := UInt32.toNat_ofNat_of_lt' (by
    show input.length < 2 ^ 32
    omega)
  have hbits := bits_add (n := .ofNat input.length) h.bits
  rw [hn, ← List.length_append] at hbits
  have hconsumed := consume_append (by decide : 0 < blocksize) (f := transform) init.state msg input
  rw [h.consumed] at hconsumed
  have htake : (m.buffer.take (msg.length % 64)).length = msg.length % 64 := by
    rw [List.length_take, h.length_buffer]
    omega
  unfold MD5.update
  dsimp only
  rw [h.index]
  set index := msg.length % 64 with hindex
  have hlt : index < 64 := Nat.mod_lt _ (by decide)
  by_cases hfirst : 64 - index ≤ input.length
  · -- the buffer is filled and taken, then the whole blocks of the input
    rw [if_pos hfirst]
    set buffer := memcpy index (input.take (64 - index)) m.buffer with hbuffer
    have hlen : (input.take (64 - index)).length = 64 - index := List.length_take_of_le hfirst
    have hfull : buffer = m.buffer.take index ++ input.take (64 - index) := by
      rw [hbuffer]
      unfold memcpy
      rw [hlen, List.drop_of_length_le (by rw [h.length_buffer]; omega), List.append_nil]
    have hblock : buffer.length = 64 := by
      rw [hfull, List.length_append, htake, hlen]
      omega
    rw [wholeBlocks_eq hinput _ _ _ (by rw [List.length_drop]; omega)]
    refine ⟨_, rfl, h.unfinished, ?_, hbits, ?_⟩
    · unfold memcpy
      simp only [List.take_zero, List.nil_append, Nat.zero_add, List.length_append, List.length_drop, hblock]
      have hrest := length_consume_snd (by decide : 0 < blocksize) (f := transform) (transform m.state buffer)
        (input.drop (64 - index))
      have := Nat.mod_lt (input.drop (64 - index)).length (by decide : 0 < blocksize)
      unfold blocksize at *
      omega
    · have hrest : (consume blocksize transform (transform m.state buffer) (input.drop (64 - index))).2.length =
          (msg ++ input).length % 64 := by
        rw [length_consume_snd (by decide), List.length_drop, List.length_append]
        unfold blocksize
        omega
      rw [hconsumed]
      have hsplit : m.buffer.take index ++ input = buffer ++ input.drop (64 - index) := by
        rw [hfull, List.append_assoc, List.take_append_drop]
      rw [hsplit, consume_block (n := blocksize) (by decide) hblock]
      unfold memcpy
      rw [List.take_zero, List.nil_append, ← hrest, List.take_left]
  · -- what there is does not fill a block
    rw [if_neg hfirst]
    have hlen : (memcpy index input m.buffer).length = 64 := by
      unfold memcpy
      rw [List.length_append, List.length_append, htake, List.length_drop, h.length_buffer]
      omega
    refine ⟨_, rfl, h.unfinished, hlen, hbits, ?_⟩
    rw [hconsumed, consume_of_lt (by rw [List.length_append, htake]; unfold blocksize; omega)]
    have hmod : (msg ++ input).length % 64 = (m.buffer.take index ++ input).length := by
      rw [List.length_append, List.length_append, htake]
      omega
    unfold memcpy
    rw [hmod, List.take_left]

/-- What `finalize` appends to a message. -/
theorem pad_eq (msg : List UInt8) :
    pad msg = msg ++ padding.take (if msg.length % 64 < 56 then 56 - msg.length % 64 else 120 - msg.length % 64) ++
      encode [.ofNat (8 * msg.length), .ofNat (8 * msg.length / 2 ^ 32)] := by
  have hpadding : ∀ n, 1 ≤ n → n ≤ 64 → padding.take n = 0x80 :: List.replicate (n - 1) 0 := by
    intro n h1 h64
    obtain ⟨k, rfl⟩ : ∃ k, n = k + 1 := ⟨n - 1, by omega⟩
    unfold padding
    rw [List.take_succ_cons, List.take_replicate, Nat.min_eq_left (by omega), Nat.add_sub_cancel]
  unfold pad
  have hlt := Nat.mod_lt msg.length (by decide : 0 < 64)
  split_ifs with h
  · rw [hpadding _ (by omega) (by omega), show 56 - msg.length % 64 - 1 = (119 - msg.length % 64) % 64 by omega]
  · rw [hpadding _ (by omega) (by omega), show 120 - msg.length % 64 - 1 = (119 - msg.length % 64) % 64 by omega]

theorem Took.finalize (h : Took m msg) : ∃ m', m.finalize = some m' ∧ m'.finalized = true ∧ m'.digest = digestOf msg := by
  have hbits := h.bits
  have hc1 : m.count.1 = .ofNat (8 * msg.length) := by
    have := m.count.1.toNat_lt
    apply UInt32.toNat_inj.mp
    rw [UInt32.toNat_ofNat']
    omega
  have hc2 : m.count.2 = .ofNat (8 * msg.length / 2 ^ 32) := by
    have := m.count.1.toNat_lt
    have := m.count.2.toNat_lt
    apply UInt32.toNat_inj.mp
    rw [UInt32.toNat_ofNat']
    omega
  have hlt := Nat.mod_lt msg.length (by decide : 0 < 64)
  obtain ⟨m₁, hm₁, htook₁⟩ := h.update (padding.take
    (if msg.length % 64 < 56 then 56 - msg.length % 64 else 120 - msg.length % 64))
    (by rw [List.length_take]; exact Nat.lt_of_le_of_lt (Nat.add_le_add_right (Nat.min_le_right ..) 64) (by decide))
  obtain ⟨m₂, hm₂, htook₂⟩ := htook₁.update (encode [m.count.1, m.count.2])
    (show 8 + 64 < 2 ^ 32 by decide)
  unfold MD5.finalize
  rw [if_neg (by rw [h.unfinished]; decide), h.index]
  dsimp only
  rw [hm₁]
  dsimp only [Option.bind_eq_bind, Option.bind_some]
  rw [hm₂]
  refine ⟨_, rfl, rfl, ?_⟩
  have hpad := htook₂.consumed
  rw [hc1, hc2, ← pad_eq] at hpad
  unfold digestOf
  rw [hpad]

/-- **The digest of a message in pieces is that of the whole message.** -/
theorem digest_of_pieces (pieces : List (List UInt8)) (hpieces : ∀ p ∈ pieces, p.length + 64 < 2 ^ 32) :
    ((pieces.foldlM MD5.update init).bind MD5.finalize).map MD5.digest = some (digestOf pieces.flatten) := by
  have hall : ∀ (ps : List (List UInt8)) (m : MD5) (msg : List UInt8), (∀ p ∈ ps, p.length + 64 < 2 ^ 32) →
      Took m msg → ∃ m', ps.foldlM MD5.update m = some m' ∧ Took m' (msg ++ ps.flatten) := by
    intro ps
    induction ps with
    | nil =>
      intro m msg _ h
      exact ⟨m, rfl, by rwa [List.flatten_nil, List.append_nil]⟩
    | cons p ps ih =>
      intro m msg hps h
      obtain ⟨m₁, hm₁, h₁⟩ := h.update p (hps p List.mem_cons_self)
      obtain ⟨m₂, hm₂, h₂⟩ := ih m₁ _ (fun q hq => hps q (List.mem_cons_of_mem _ hq)) h₁
      refine ⟨m₂, ?_, ?_⟩
      · rw [List.foldlM_cons, hm₁]
        exact hm₂
      · rwa [List.flatten_cons, ← List.append_assoc]
  obtain ⟨m, hm, htook⟩ := hall pieces init [] hpieces took_init
  obtain ⟨m', hm', -, hdigest⟩ := htook.finalize
  rw [hm, Option.bind_some, hm', Option.map_some, hdigest, List.nil_append]

theorem digest_of_pieces_two :
    ((([[0x61], [0x62, 0x63]] : List (List UInt8)).foldlM MD5.update init).bind MD5.finalize).map MD5.digest =
      some (digestOf [0x61, 0x62, 0x63]) :=
  digest_of_pieces [[0x61], [0x62, 0x63]] (by decide)

end MD5

end RZEmulator.Shared
