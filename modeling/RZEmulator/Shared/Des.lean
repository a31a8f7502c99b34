import RZEmulator.Lib.BitBlock
import RZEmulator.Lib.Feistel

/-!
# The block cipher of the login password

`XDes` is the data encryption standard by table lookup. Its permutations are masks, one for each value of a nibble or a
byte of the input, that are or-ed together; its compressions are looked up twelve bits at a time. The tables of an object
are functions of their indices here, and a character is a byte: wherever the source widens a negative one it masks the
result. That the tables compute the standard is shown in `DesStandard`, that `Decrypt` undoes `Encrypt` in `DesBuffer`.
-/

namespace RZEmulator.Shared

open Lib BitBlock

namespace XDes

/-! ## The tables -/

/-- The initial permutation; the positions count from 1. -/
def ip : List Nat :=
  [58, 50, 42, 34, 26, 18, 10, 2, 60, 52, 44, 36, 28, 20, 12, 4,
   62, 54, 46, 38, 30, 22, 14, 6, 64, 56, 48, 40, 32, 24, 16, 8,
   57, 49, 41, 33, 25, 17, 9, 1, 59, 51, 43, 35, 27, 19, 11, 3,
   61, 53, 45, 37, 29, 21, 13, 5, 63, 55, 47, 39, 31, 23, 15, 7]

/-- The final permutation. -/
def fp : List Nat :=
  [40, 8, 48, 16, 56, 24, 64, 32, 39, 7, 47, 15, 55, 23, 63, 31,
   38, 6, 46, 14, 54, 22, 62, 30, 37, 5, 45, 13, 53, 21, 61, 29,
   36, 4, 44, 12, 52, 20, 60, 28, 35, 3, 43, 11, 51, 19, 59, 27,
   34, 2, 42, 10, 50, 18, 58, 26, 33, 1, 41, 9, 49, 17, 57, 25]

/-- The bits of the key that are used. -/
def pc1 : List Nat :=
  [57, 49, 41, 33, 25, 17, 9, 1, 58, 50, 42, 34, 26, 18,
   10, 2, 59, 51, 43, 35, 27, 19, 11, 3, 60, 52, 44, 36,
   63, 55, 47, 39, 31, 23, 15, 7, 62, 54, 46, 38, 30, 22,
   14, 6, 61, 53, 45, 37, 29, 21, 13, 5, 28, 20, 12, 4]

/-- The left rotations of the key before each round, counted from the start. -/
def totrot : List Nat := [1, 2, 4, 6, 8, 10, 12, 14, 15, 17, 19, 21, 23, 25, 27, 28]

/-- The bits of the rotated key that a round uses. -/
def pc2 : List Nat :=
  [14, 17, 11, 24, 1, 5, 3, 28, 15, 6, 21, 10,
   23, 19, 12, 4, 26, 8, 16, 7, 27, 20, 13, 2,
   41, 52, 31, 37, 47, 55, 30, 40, 51, 45, 33, 48,
   44, 49, 39, 56, 34, 53, 46, 42, 50, 36, 29, 32]

/-- The compressions from 6 bits to 4, each with its four rows of 16. -/
def si : List (List Nat) :=
  [[14, 4, 13, 1, 2, 15, 11, 8, 3, 10, 6, 12, 5, 9, 0, 7, 0, 15, 7, 4, 14, 2, 13, 1, 10, 6, 12, 11, 9, 5, 3, 8,
    4, 1, 14, 8, 13, 6, 2, 11, 15, 12, 9, 7, 3, 10, 5, 0, 15, 12, 8, 2, 4, 9, 1, 7, 5, 11, 3, 14, 10, 0, 6, 13],
   [15, 1, 8, 14, 6, 11, 3, 4, 9, 7, 2, 13, 12, 0, 5, 10, 3, 13, 4, 7, 15, 2, 8, 14, 12, 0, 1, 10, 6, 9, 11, 5,
    0, 14, 7, 11, 10, 4, 13, 1, 5, 8, 12, 6, 9, 3, 2, 15, 13, 8, 10, 1, 3, 15, 4, 2, 11, 6, 7, 12, 0, 5, 14, 9],
   [10, 0, 9, 14, 6, 3, 15, 5, 1, 13, 12, 7, 11, 4, 2, 8, 13, 7, 0, 9, 3, 4, 6, 10, 2, 8, 5, 14, 12, 11, 15, 1,
    13, 6, 4, 9, 8, 15, 3, 0, 11, 1, 2, 12, 5, 10, 14, 7, 1, 10, 13, 0, 6, 9, 8, 7, 4, 15, 14, 3, 11, 5, 2, 12],
   [7, 13, 14, 3, 0, 6, 9, 10, 1, 2, 8, 5, 11, 12, 4, 15, 13, 8, 11, 5, 6, 15, 0, 3, 4, 7, 2, 12, 1, 10, 14, 9,
    10, 6, 9, 0, 12, 11, 7, 13, 15, 1, 3, 14, 5, 2, 8, 4, 3, 15, 0, 6, 10, 1, 13, 8, 9, 4, 5, 11, 12, 7, 2, 14],
   [2, 12, 4, 1, 7, 10, 11, 6, 8, 5, 3, 15, 13, 0, 14, 9, 14, 11, 2, 12, 4, 7, 13, 1, 5, 0, 15, 10, 3, 9, 8, 6,
    4, 2, 1, 11, 10, 13, 7, 8, 15, 9, 12, 5, 6, 3, 0, 14, 11, 8, 12, 7, 1, 14, 2, 13, 6, 15, 0, 9, 10, 4, 5, 3],
   [12, 1, 10, 15, 9, 2, 6, 8, 0, 13, 3, 4, 14, 7, 5, 11, 10, 15, 4, 2, 7, 12, 9, 5, 6, 1, 13, 14, 0, 11, 3, 8,
    9, 14, 15, 5, 2, 8, 12, 3, 7, 0, 4, 10, 1, 13, 11, 6, 4, 3, 2, 12, 9, 5, 15, 10, 11, 14, 1, 7, 6, 0, 8, 13],
   [4, 11, 2, 14, 15, 0, 8, 13, 3, 12, 9, 7, 5, 10, 6, 1, 13, 0, 11, 7, 4, 9, 1, 10, 14, 3, 5, 12, 2, 15, 8, 6,
    1, 4, 11, 13, 12, 3, 7, 14, 10, 15, 6, 8, 0, 5, 9, 2, 6, 11, 13, 8, 1, 4, 10, 7, 9, 5, 0, 15, 14, 2, 3, 12],
   [13, 2, 8, 4, 6, 15, 11, 1, 10, 9, 3, 14, 5, 0, 12, 7, 1, 15, 13, 8, 10, 3, 7, 4, 12, 5, 6, 11, 0, 14, 9, 2,
    7, 11, 4, 1, 9, 12, 14, 2, 0, 6, 10, 13, 15, 3, 5, 8, 2, 1, 14, 7, 4, 10, 8, 13, 15, 12, 9, 0, 3, 5, 6, 11]]

def p32i : List Nat :=
  [16, 7, 20, 21, 29, 12, 28, 17, 1, 15, 23, 26, 5, 18, 31, 10,
   2, 8, 24, 14, 32, 27, 3, 9, 19, 13, 30, 6, 22, 11, 4, 25]

def bytebit : List Nat := [0o200, 0o100, 0o40, 0o20, 0o10, 0o4, 0o2, 0o1]

def nibblebit : List Nat := [0o10, 0o4, 0o2, 0o1]

/-! ## Filling the tables -/

/-- `perminit`: the entry for the value `j` of the nibble `i` has the output bits that the set bits of the nibble go to. -/
def perminit (p : List Nat) (i j : Nat) : Block 8 :=
  collect 8 fun k =>
    let l := p.getD k 0 - 1
    l / 4 = i && j &&& nibblebit.getD (l % 4) 0 != 0

/-- `XDes::p32init`, by bytes instead of nibbles. -/
def p32init (i j : Nat) : Block 4 :=
  collect 4 fun k =>
    let l := p32i.getD k 0 - 1
    l / 8 = i && j &&& bytebit.getD (l % 8) 0 != 0

def getcomp (k v : Nat) : Nat :=
  let i := ((v &&& 0o40) >>> 4) ||| (v &&& 1)
  let j := (v &&& 0o37) >>> 1
  (si.getD k []).getD ((i <<< 4) + j) 0

/-- `XDes::sinit`: two compressions in a byte. -/
def sinit (i j : Nat) : UInt8 :=
  .ofNat ((getcomp (i * 2) (j >>> 6) <<< 4) ||| (0x0f &&& getcomp (i * 2 + 1) (j &&& 0o77)))

/-- The bits of the key by `pc1`. -/
def pc1m (key64bit : Block 8) (j : Nat) : Bool :=
  let l := pc1.getD j 0 - 1
  (key64bit.toList.getD (l / 8) 0).toNat &&& bytebit.getD (l % 8) 0 != 0

/-- The two halves of them, rotated. -/
def pcr (key64bit : Block 8) (i j : Nat) : Bool :=
  let l := j + totrot.getD i 0
  pc1m key64bit (if l < (if j < 28 then 28 else 56) then l else l - 28)

/-- `XDes::kinit`. -/
def kinit (key64bit : Block 8) (i : Nat) : Block 6 :=
  collect 6 fun j => pcr key64bit i (pc2.getD j 0 - 1)

end XDes

/-- `XDes`. The index of `m_kn` is the round. -/
structure XDes where
  m_iperm : Nat → Nat → Block 8
  m_fperm : Nat → Nat → Block 8
  m_s : Nat → Nat → UInt8
  m_p32 : Nat → Nat → Block 4
  m_kn : Nat → Block 6

namespace XDes

/-- The key of a password: its first 40 characters, in turns of eight. -/
def key64bit (password : List UInt8) : Block 8 :=
  (((password.takeWhile (· ≠ 0)).take 40).zipIdx).foldl
    (fun key c => key.set (c.2 % 8) (key[c.2 % 8] ^^^ c.1)) (zero 8)

/-- `XDes::Init`. -/
def init (password : List UInt8) : XDes where
  m_iperm := perminit ip
  m_fperm := perminit fp
  m_kn := kinit (key64bit password)
  m_s := sinit
  m_p32 := p32init

/-! ## One block -/

def permute (inblock : Block 8) (perm : Nat → Nat → Block 8) : Block 8 :=
  (List.finRange 8).foldl (fun outblock (j : Fin 8) =>
    let ib := inblock[j]
    orBytes outblock (orBytes (perm (2 * j) ((ib >>> 4) &&& 0x0f).toNat) (perm (2 * j + 1) (ib &&& 0x0f).toNat))) (zero 8)

/-- `expand`: the 32 bits to 48. -/
def expand (right : Block 4) : Block 6 :=
  let r0 := right[0]
  let r1 := right[1]
  let r2 := right[2]
  let r3 := right[3]
  #v[((r3 &&& 0o001) <<< 7) ||| ((r0 &&& 0o370) >>> 1) ||| ((r0 &&& 0o030) >>> 3),
    ((r0 &&& 0o007) <<< 5) ||| ((r1 &&& 0o200) >>> 3) ||| ((r0 &&& 0o001) <<< 3) ||| ((r1 &&& 0o340) >>> 5),
    ((r1 &&& 0o030) <<< 3) ||| ((r1 &&& 0o037) <<< 1) ||| ((r2 &&& 0o200) >>> 7),
    ((r1 &&& 0o001) <<< 7) ||| ((r2 &&& 0o370) >>> 1) ||| ((r2 &&& 0o030) >>> 3),
    ((r2 &&& 0o007) <<< 5) ||| ((r3 &&& 0o200) >>> 3) ||| ((r2 &&& 0o001) <<< 3) ||| ((r3 &&& 0o340) >>> 5),
    ((r3 &&& 0o030) <<< 3) ||| ((r3 &&& 0o037) <<< 1) ||| ((r0 &&& 0o200) >>> 7)]

variable (d : XDes)

/-- `XDes::perm32`. -/
def perm32 (inblock : Block 4) : Block 4 :=
  (List.finRange 4).foldl (fun outblock (j : Fin 4) => orBytes outblock (d.m_p32 j inblock[j].toNat)) (zero 4)

/-- `XDes::contract`. -/
def contract (in48 : Block 6) : Block 4 :=
  let i0 := in48[0].toNat
  let i1 := in48[1].toNat
  let i2 := in48[2].toNat
  let i3 := in48[3].toNat
  let i4 := in48[4].toNat
  let i5 := in48[5].toNat
  #v[d.m_s 0 (0xfff &&& ((i0 <<< 4) ||| ((i1 >>> 4) &&& 0x0f))),
    d.m_s 1 (0xfff &&& ((i1 <<< 8) ||| (i2 &&& 0xff))),
    d.m_s 2 (0xfff &&& ((i3 <<< 4) ||| ((i4 >>> 4) &&& 0x0f))),
    d.m_s 3 (0xfff &&& ((i4 <<< 8) ||| (i5 &&& 0xff)))]

/-- `XDes::f`. -/
def f (right : Block 4) (num : Nat) : Block 4 := d.perm32 (d.contract (xorBytes (expand right) (d.m_kn num)))

/-- The first and the last four bytes of a block. -/
def halves (b : Block 8) : Block 4 × Block 4 := (#v[b[0], b[1], b[2], b[3]], #v[b[4], b[5], b[6], b[7]])

/-- The block of two halves. -/
def joined (h : Block 4 × Block 4) : Block 8 := h.1 ++ h.2

/-- `XDes::iter`. -/
def iter (num : Nat) (inblock : Block 8) : Block 8 :=
  let h := halves inblock
  joined (h.2, xorBytes h.1 (d.f h.2 num))

/-- Left and right interchanged. -/
def interchange (b : Block 8) : Block 8 := joined (halves b).swap

/-- `XDes::endes`. -/
def endes (inblock : Block 8) : Block 8 :=
  let iters := (List.range 16).foldl (fun b i => d.iter i b) (permute inblock d.m_iperm)
  permute (interchange iters) d.m_fperm

/-- `XDes::dedes`: the rounds in the reverse order. -/
def dedes (inblock : Block 8) : Block 8 :=
  let iters := (List.range 16).foldl (fun b i => d.iter (15 - i) b) (permute inblock d.m_iperm)
  permute (interchange iters) d.m_fperm

/-! ## The rounds as a Feistel network -/

@[simp] theorem halves_joined (h : Block 4 × Block 4) : halves (joined h) = h := by
  obtain ⟨⟨⟨l⟩, hl⟩, ⟨⟨r⟩, hr⟩⟩ := h
  obtain ⟨l0, l1, l2, l3, rfl⟩ := List.length_eq_four.mp hl
  obtain ⟨r0, r1, r2, r3, rfl⟩ := List.length_eq_four.mp hr
  rfl

@[simp] theorem joined_halves (b : Block 8) : joined (halves b) = b := by
  obtain ⟨⟨l⟩, hl⟩ := b
  match l, hl with
  | [_, _, _, _, _, _, _, _], _ => rfl

theorem foldl_iter (l : List Nat) (b : Block 8) :
    l.foldl (fun b i => d.iter i b) b =
      joined (Feistel.rounds xorBytes (l.map fun i right => d.f right i) (halves b)) := by
  induction l generalizing b with
  | nil => exact (joined_halves b).symm
  | cons i l ih =>
    rw [List.foldl_cons, ih]
    unfold iter
    rw [halves_joined]
    rfl

/-- The functions of the rounds. -/
def roundFunctions : List (Block 4 → Block 4) := (List.range 16).map fun i right => d.f right i

theorem endes_eq (b : Block 8) :
    d.endes b = permute (joined (Feistel.network xorBytes d.roundFunctions (halves (permute b d.m_iperm))))
      d.m_fperm := by
  unfold endes interchange Feistel.network roundFunctions
  dsimp only
  rw [foldl_iter, halves_joined]

theorem dedes_eq (b : Block 8) :
    d.dedes b = permute (joined (Feistel.network xorBytes d.roundFunctions.reverse
      (halves (permute b d.m_iperm)))) d.m_fperm := by
  have hreverse : (List.range 16).map (15 - ·) = (List.range 16).reverse := by decide
  have hfold := d.foldl_iter ((List.range 16).map (15 - ·)) (permute b d.m_iperm)
  rw [List.foldl_map, hreverse, List.map_reverse] at hfold
  unfold dedes interchange Feistel.network roundFunctions
  dsimp only
  rw [hfold, halves_joined]

end XDes

end RZEmulator.Shared
