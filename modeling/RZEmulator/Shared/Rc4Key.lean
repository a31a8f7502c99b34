import Mathlib.Data.Fintype.Card
import RZEmulator.Lib.Mealy
import RZEmulator.Shared.XSocket

/-!
# The keys of the stream ciphers

`prepareKey` fills the table of `RC4Cipher` from a key and skips the first bytes of its stream; `XRC4Cipher` adds a peek,
which works on the state and puts it back. The table is a permutation of the bytes from the first key on
(`permutes_afterCalls`), whatever is encoded, decoded or peeked at in between, and no two states ever run together
(`next_injective`). Where a cipher stands depends on the last key and the number of bytes since (`afterCalls_eq`), so two
objects for which these agree understand each other.
-/

namespace RZEmulator.Shared

open Lib

namespace RC4Cipher

/-! ## The stream -/

/-- How the state goes on. -/
def next (c : RC4Cipher) : RC4Cipher :=
  let x := c.x + 1
  let sx := c.s.get x.toFin
  let y := c.y + sx
  let sy := c.s.get y.toFin
  ⟨x, y, (c.s.set x.toNat sy x.toNat_lt).set y.toNat sx y.toNat_lt⟩

/-- The byte of the stream at a state. -/
def key (c : RC4Cipher) : UInt8 :=
  let x := c.x + 1
  let sx := c.s.get x.toFin
  let y := c.y + sx
  let sy := c.s.get y.toFin
  c.next.s.get (sx + sy).toFin

theorem stream_eq : stream = keystream next key (· ^^^ ·) := rfl

theorem xor_xor (a k : UInt8) : a ^^^ k ^^^ k = a := by
  rw [UInt8.xor_assoc, UInt8.xor_self, UInt8.xor_zero]

/-! ## The key -/

/-- `RC4Cipher::skipFor`. -/
def skipFor (c : RC4Cipher) (len : Nat) : RC4Cipher := next^[len] c

/-- One turn of the loop of `prepareKey` over the table; the position `j` is masked to a byte. -/
def keyTurn (key : Vector UInt8 256) (r : Vector UInt8 256 × UInt8) (i : Fin 256) : Vector UInt8 256 × UInt8 :=
  let j := r.2 + r.1.get r.2.toFin + key.get r.2.toFin
  ((r.1.set i (r.1.get j.toFin)).set j.toNat (r.1.get i) j.toNat_lt, j)

/-- `RC4Cipher::prepareKey` with a length of 0, so that the key ends at its first zero. A key that is empty changes
nothing. -/
def prepareKey (c : RC4Cipher) (pKey : List UInt8) : RC4Cipher :=
  let pKey := pKey.takeWhile (· ≠ 0)
  if pKey = [] then c
  else
    let key := Vector.ofFn fun i : Fin 256 => pKey.getD (i % pKey.length) 0
    let s := ((List.finRange 256).foldl (keyTurn key) (Vector.ofFn fun i : Fin 256 => .ofNat i, 0)).1
    skipFor ⟨0, 0, s⟩ 1013

/-- `"Neat & Simple"`. -/
def defaultKey : List UInt8 := [0x4e, 0x65, 0x61, 0x74, 0x20, 0x26, 0x20, 0x53, 0x69, 0x6d, 0x70, 0x6c, 0x65]

/-- The key that the constructor of `XSocket` sets. -/
def socketKey : List UInt8 :=
  [0x7d, 0x68, 0x37, 0x39, 0x71, 0x7e, 0x42, 0x25, 0x61, 0x6c, 0x3b, 0x6b, 0x27, 0x79, 0x20, 0x24, 0x45]

/-! ## The calls of `XRC4Cipher` -/

inductive Call
  | setKey (pKey : List UInt8)
  | encode (source : List UInt8) (bIsPeek : Bool)
  | decode (source : List UInt8) (bIsPeek : Bool)
  | clear

/-- `XRC4Cipher::tryCipher` if it is a peek, and `doCipher` otherwise: the state after it and the target. -/
def cipher (c : RC4Cipher) (source : List UInt8) (bIsPeek : Bool) : RC4Cipher × List UInt8 :=
  (if bIsPeek then c else stream.after c source, stream.out c source)

def call (c : RC4Cipher) : Call → RC4Cipher
  | .setKey pKey => c.prepareKey pKey
  | .encode source bIsPeek => (c.cipher source bIsPeek).1
  | .decode source bIsPeek => (c.cipher source bIsPeek).1
  | .clear => c.prepareKey defaultKey

/-- A new `XRC4Cipher` after some calls; its constructor clears it, whatever is in the memory. -/
def afterCalls (memory : RC4Cipher) (calls : List Call) : RC4Cipher := calls.foldl call (memory.call .clear)

/-! ## The table is a permutation -/

/-- Exchanging two entries of a table. -/
theorem get_exchange (v : Vector UInt8 256) (i j : Fin 256) :
    ((v.set i (v.get j)).set j (v.get i)).get = v.get ∘ Equiv.swap i j := by
  funext k
  show ((v.set i (v.get j)).set j (v.get i))[k] = v.get (Equiv.swap i j k)
  rw [Fin.getElem_fin, Vector.getElem_set, Vector.getElem_set]
  by_cases hj : j = k
  · rw [if_pos (congrArg Fin.val hj), ← hj, Equiv.swap_apply_right]
  · rw [if_neg fun h => hj (Fin.ext h)]
    by_cases hi : i = k
    · rw [if_pos (congrArg Fin.val hi), ← hi, Equiv.swap_apply_left]
    · rw [if_neg fun h => hi (Fin.ext h), Equiv.swap_apply_of_ne_of_ne (Ne.symm hi) (Ne.symm hj)]
      rfl

theorem next_s (c : RC4Cipher) :
    c.next.s.get = c.s.get ∘ Equiv.swap (c.x + 1).toFin (c.y + c.s.get (c.x + 1).toFin).toFin :=
  get_exchange ..

/-- Every byte stands in the table once. -/
def Permutes (c : RC4Cipher) : Prop := Function.Bijective c.s.get

theorem Permutes.next {c : RC4Cipher} (h : c.Permutes) : c.next.Permutes := by
  unfold Permutes
  rw [next_s]
  exact h.comp (Equiv.bijective _)

theorem Permutes.iterate {c : RC4Cipher} (h : c.Permutes) (n : Nat) : (RC4Cipher.next^[n] c).Permutes := by
  induction n generalizing c with
  | zero => exact h
  | succ n ih => exact ih h.next

theorem bijective_keyTurn {key : Vector UInt8 256} {r : Vector UInt8 256 × UInt8} (h : Function.Bijective r.1.get)
    (i : Fin 256) : Function.Bijective (keyTurn key r i).1.get := by
  have hswap := get_exchange r.1 i (r.2 + r.1.get r.2.toFin + key.get r.2.toFin).toFin
  show Function.Bijective (Vector.get _)
  unfold keyTurn
  dsimp only
  rw [show (Vector.set _ (r.2 + r.1.get r.2.toFin + key.get r.2.toFin).toNat _ _).get = _ from hswap]
  exact h.comp (Equiv.bijective _)

theorem permutes_prepareKey (c : RC4Cipher) {pKey : List UInt8} (h : pKey.takeWhile (· ≠ 0) ≠ []) :
    (c.prepareKey pKey).Permutes := by
  have hloop : ∀ (key : Vector UInt8 256) (l : List (Fin 256)) (r : Vector UInt8 256 × UInt8),
      Function.Bijective r.1.get → Function.Bijective (l.foldl (keyTurn key) r).1.get := by
    intro key l
    induction l with
    | nil =>
      intro r hr
      exact hr
    | cons i l ih =>
      intro r hr
      exact ih _ (bijective_keyTurn hr i)
  have hstart : Function.Bijective (Vector.ofFn fun i : Fin 256 => UInt8.ofNat i).get := by
    have hinj : Function.Injective (Vector.ofFn fun i : Fin 256 => UInt8.ofNat i).get := by
      intro i j hij
      have hget : ∀ k : Fin 256, (Vector.ofFn fun i : Fin 256 => UInt8.ofNat i).get k = UInt8.ofNat k := fun k =>
        Vector.getElem_ofFn k.isLt
      rw [hget, hget] at hij
      have hnat := congrArg UInt8.toNat hij
      rw [UInt8.toNat_ofNat', UInt8.toNat_ofNat', Nat.mod_eq_of_lt i.isLt, Nat.mod_eq_of_lt j.isLt] at hnat
      exact Fin.ext hnat
    refine ⟨hinj, fun b => ⟨b.toFin, ?_⟩⟩
    show (Vector.ofFn fun i : Fin 256 => UInt8.ofNat i)[b.toFin] = b
    rw [Fin.getElem_fin, Vector.getElem_ofFn]
    exact UInt8.ofNat_toNat
  unfold prepareKey skipFor
  dsimp only
  rw [if_neg h]
  refine Permutes.iterate ?_ 1013
  exact hloop _ _ _ hstart

/-- No two states run together: the state before a byte can be read off the one after it. -/
theorem next_injective : Function.Injective next := by
  intro c d h
  have hx : c.x = d.x := by
    have := congrArg RC4Cipher.x h
    exact (UInt8.add_left_inj 1).mp this
  have hy := congrArg RC4Cipher.y h
  have hs : c.next.s.get = d.next.s.get := congrArg (fun e => e.s.get) h
  rw [next_s, next_s] at hs
  have hyc : c.next.y = c.y + c.s.get (c.x + 1).toFin := rfl
  have hyd : d.next.y = d.y + d.s.get (d.x + 1).toFin := rfl
  rw [hyc, hyd] at hy
  rw [hy, hx] at hs
  -- the same exchange on both sides
  have hget : c.s.get = d.s.get := by
    funext k
    have := congrFun hs (Equiv.swap (d.x + 1).toFin (d.y + d.s.get (d.x + 1).toFin).toFin k)
    simpa using this
  have hvec : c.s = d.s := Vector.ext fun i hi => congrFun hget ⟨i, hi⟩
  rw [hx, hvec] at hy
  have hyy : c.y = d.y := (UInt8.add_left_inj _).mp hy
  cases c
  cases d
  simp_all

/-! ## Where a cipher stands -/

/-- The last key that was set and the number of bytes that have been coded with it. -/
abbrev Position := List UInt8 × Nat

def moved (p : Position) : Call → Position
  | .setKey pKey => if pKey.takeWhile (· ≠ 0) = [] then p else (pKey, 0)
  | .encode source bIsPeek => if bIsPeek then p else (p.1, p.2 + source.length)
  | .decode source bIsPeek => if bIsPeek then p else (p.1, p.2 + source.length)
  | .clear => (defaultKey, 0)

def position (calls : List Call) : Position := calls.foldl moved (defaultKey, 0)

/-- A cipher before its constructor. -/
def blank : RC4Cipher := ⟨0, 0, .replicate 256 0⟩

/-- The state at a position. -/
def standing (p : Position) : RC4Cipher := next^[p.2] (blank.prepareKey p.1)

/-- A key that is not empty leaves nothing of the state before. -/
theorem prepareKey_congr (c d : RC4Cipher) {pKey : List UInt8} (h : pKey.takeWhile (· ≠ 0) ≠ []) :
    c.prepareKey pKey = d.prepareKey pKey := by
  unfold prepareKey
  dsimp only
  rw [if_neg h, if_neg h]

theorem defaultKey_ne : defaultKey.takeWhile (· ≠ 0) ≠ [] := by decide

theorem prepareKey_eq (c : RC4Cipher) {pKey : List UInt8} (h : pKey.takeWhile (· ≠ 0) ≠ []) :
    c.prepareKey pKey = standing (pKey, 0) := by
  unfold standing
  rw [Function.iterate_zero_apply]
  exact prepareKey_congr c blank h

theorem cipher_standing (p : Position) (source : List UInt8) (bIsPeek : Bool) :
    ((standing p).cipher source bIsPeek).1 = standing (if bIsPeek then p else (p.1, p.2 + source.length)) := by
  unfold cipher
  cases bIsPeek with
  | true => rfl
  | false =>
    show stream.after _ _ = standing (p.1, p.2 + source.length)
    rw [stream_eq, Mealy.after_keystream]
    unfold standing
    rw [← Function.iterate_add_apply, Nat.add_comm]

/-- **Where a cipher stands depends on the last key and the bytes since.** -/
theorem foldl_call (calls : List Call) (p : Position) :
    calls.foldl call (standing p) = standing (calls.foldl moved p) := by
  induction calls generalizing p with
  | nil => rfl
  | cons e calls ih =>
    have hstep : (standing p).call e = standing (moved p e) := by
      cases e with
      | setKey pKey =>
        unfold call moved
        dsimp only
        split_ifs with h
        · unfold prepareKey
          exact if_pos h
        · exact prepareKey_eq _ h
      | encode source bIsPeek => exact cipher_standing p source bIsPeek
      | decode source bIsPeek => exact cipher_standing p source bIsPeek
      | clear =>
        show (standing p).prepareKey defaultKey = standing (defaultKey, 0)
        exact prepareKey_eq _ defaultKey_ne
    rw [List.foldl_cons, List.foldl_cons, hstep, ih]

theorem afterCalls_eq (memory : RC4Cipher) (calls : List Call) :
    afterCalls memory calls = standing (position calls) := by
  unfold afterCalls position
  have hclear : memory.call .clear = memory.prepareKey defaultKey := rfl
  rw [hclear, prepareKey_eq memory defaultKey_ne]
  exact foldl_call calls _

theorem position_key (calls : List Call) : (position calls).1.takeWhile (· ≠ 0) ≠ [] := by
  have hall : ∀ (calls : List Call) (p : Position), p.1.takeWhile (· ≠ 0) ≠ [] →
      (calls.foldl moved p).1.takeWhile (· ≠ 0) ≠ [] := by
    intro calls
    induction calls with
    | nil =>
      intro p hp
      exact hp
    | cons e calls ih =>
      intro p hp
      refine ih _ ?_
      cases e with
      | setKey pKey =>
        unfold moved
        dsimp only
        split_ifs with h
        · exact hp
        · exact h
      | encode source bIsPeek =>
        unfold moved
        dsimp only
        split_ifs <;> exact hp
      | decode source bIsPeek =>
        unfold moved
        dsimp only
        split_ifs <;> exact hp
      | clear => exact defaultKey_ne
  exact hall calls _ defaultKey_ne

theorem permutes_afterCalls (memory : RC4Cipher) (calls : List Call) : (afterCalls memory calls).Permutes := by
  rw [afterCalls_eq]
  exact (permutes_prepareKey _ (position_key calls)).iterate _

/-- **Two ciphers at one position understand each other**, and stay together. Both tables are permutations, and states
that differ never run together, so a receiver that has lost a byte does not get back in step by coding more. -/
theorem calls_in_step (memory memory' : RC4Cipher) (calls calls' : List Call) (h : position calls = position calls')
    (source : List UInt8) (bIsPeek : Bool) :
    let sender := afterCalls memory calls
    let receiver := afterCalls memory' calls'
    (receiver.cipher (sender.cipher source bIsPeek).2 bIsPeek).2 = source ∧
      (receiver.cipher (sender.cipher source bIsPeek).2 bIsPeek).1 = (sender.cipher source bIsPeek).1 ∧
      sender.Permutes ∧ receiver.Permutes ∧
      ∀ (c d : RC4Cipher) (x y : List UInt8), x.length = y.length →
        (c.cipher x false).1 = (d.cipher y false).1 → c = d := by
  intro sender receiver
  have hsame : receiver = sender := by
    show afterCalls memory' calls' = afterCalls memory calls
    rw [afterCalls_eq, afterCalls_eq, h]
  rw [hsame]
  refine ⟨Mealy.out_out xor_xor sender source, ?_, permutes_afterCalls memory calls, permutes_afterCalls memory calls,
    fun c d x y hlen heq => ?_⟩
  · unfold cipher
    cases bIsPeek with
    | true => rfl
    | false =>
      show stream.after sender (stream.out sender source) = stream.after sender source
      rw [stream_eq, Mealy.after_out]
  · change stream.after c x = stream.after d y at heq
    rw [stream_eq, Mealy.after_keystream, Mealy.after_keystream, ← hlen] at heq
    exact next_injective.iterate _ heq

/-- A sender that has sent three bytes and a receiver that has read them and looked at the next. -/
theorem calls_in_step_three :
    position [.setKey socketKey, .encode [1, 2, 3] false] =
        position [.clear, .setKey socketKey, .decode [7, 7, 7] false, .decode [8] true] ∧
      ((afterCalls blank [.clear, .setKey socketKey, .decode [7, 7, 7] false, .decode [8] true]).cipher
        ((afterCalls blank [.setKey socketKey, .encode [1, 2, 3] false]).cipher [5, 6] false).2 false).2 = [5, 6] :=
  ⟨by decide, (calls_in_step blank blank _ _ (by decide) [5, 6] false).1⟩

end RC4Cipher

end RZEmulator.Shared
