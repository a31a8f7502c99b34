import Mathlib.Data.List.GetD
import RZEmulator.Lib.Stride

/-!
# The simple cipher

`SimpleCipher::Encrypt` puts the differences of a message into a buffer along a walk with a fixed stride, masks them and
appends the number that start, stride and mask come from. The stride is searched for among the numbers that no proper
divisor of the length divides; the search is by a list of these divisors, and it ends at a number that is prime to the
length (`coprime_jump`). So the walk comes to every place once, no assertion fails, and `Decrypt` finds the message
(`decrypt_of_encrypt`).

A sum of `int`s that does not fit and an assertion that fails have no result.
-/

namespace RZEmulator.Shared.SimpleCipher

open Lib.Stride

/-! ## The stride -/

/-- The loop of the divisors from `nDivisor` on; a divisor below the root of `sz` is found with its quotient. -/
def divisorLoop (sz nDivisor nMaxValue : Nat) (vDivisorList vQuotientList : List Nat) : List Nat :=
  if nDivisor < nMaxValue then
    if sz % nDivisor ≠ 0 then divisorLoop sz (nDivisor + 1) nMaxValue vDivisorList vQuotientList
    else
      let maxValue := sz / nDivisor
      divisorLoop sz (nDivisor + 1) maxValue (vDivisorList ++ [nDivisor])
        (if nDivisor ≠ maxValue then vQuotientList ++ [maxValue] else vQuotientList)
  else vDivisorList ++ vQuotientList.reverse
termination_by max sz nMaxValue - nDivisor
decreasing_by
  · omega
  · have := Nat.div_le_self sz nDivisor
    omega

def divisorList (sz : Nat) : List Nat := divisorLoop sz 2 sz [] []

/-- `nJump` before the search. -/
def firstJump (magicnum : UInt32) (sz : Nat) : Nat :=
  let nJump : Int := (((magicnum &&& 0xfff0).toNat + 1) % sz / 2 : Nat) - 2
  if nJump ≤ 1 then
    if sz ≤ 4 then sz - 1
    else if sz ≤ 16 then sz - 2
    else sz / 2 - 1
  else nJump.toNat

/-- The search downwards from `nJump`. -/
def searchJump (vDivisorList : List Nat) : Nat → Nat
  | 0 => 0
  | 1 => 1
  | nJump + 2 =>
    if vDivisorList.any fun it => (nJump + 2) % it == 0 then searchJump vDivisorList (nJump + 1) else nJump + 2

/-- The stride of both directions. -/
def jump (magicnum : UInt32) (sz : Nat) : Nat := searchJump (divisorList sz) (firstJump magicnum sz)

/-- `nStart += nJump; nStart %= sz` with an `int`. -/
def advance (sz nJump nStart : Nat) : Option Nat := if nStart + nJump < 2 ^ 31 then some ((nStart + nJump) % sz) else none

/-! ## Encryption -/

/-- `std::accumulate` with `MagicNumOp`. -/
def magicNumber (src : List UInt8) : UInt32 :=
  src.foldl (fun left right => left + right.toUInt32 * 65539) (.ofNat src.length)

/-- The low 32 bits, the highest byte first. -/
def bytes (v : Nat) : List UInt8 := [.ofNat (v / 2 ^ 24), .ofNat (v / 2 ^ 16), .ofNat (v / 2 ^ 8), .ofNat v]

/-- The loop of `Encrypt` with its assertion. -/
def spread (mask : UInt8) (sz nJump : Nat) : List UInt8 → Nat → UInt8 → List UInt8 → Option (List UInt8)
  | [], _, _, dest => some dest
  | c :: src, nStart, ucValue, dest =>
    if dest.getD nStart 0 ≠ 0 then none
    else (advance sz nJump nStart).bind fun next =>
      spread mask sz nJump src next c (dest.set nStart ((c - ucValue) ^^^ mask))

/-- `Encrypt` into a new buffer. -/
def encrypt (nOriginalLength : Nat) : List UInt8 → Option (List UInt8)
  | [] => some []
  | [b] => some [b]
  | ucValue :: src => do
    let sz := (ucValue :: src).length
    let magicnum := magicNumber (ucValue :: src)
    let mask := magicnum.toUInt8
    let nStart := magicnum.toNat % sz
    let nJump := jump magicnum sz
    let next ← advance sz nJump nStart
    let dest ← spread mask sz nJump src next ucValue ((List.replicate (sz + 8) 0).set nStart (ucValue ^^^ mask))
    return dest.take sz ++ ((bytes nOriginalLength).map (· ^^^ mask) ++ bytes magicnum.toNat)

/-! ## Decryption -/

def ofBytes (l : List UInt8) : Nat := l.foldl (fun v b => v * 256 + b.toNat) 0

/-- The loop of `Decrypt`. -/
def unspread (temp : List UInt8) (sz nJump : Nat) : Nat → Nat → UInt8 → Option (List UInt8)
  | 0, _, _ => some []
  | count + 1, nStart, ucValue =>
    let value := ucValue + temp.getD nStart 0
    (advance sz nJump nStart).bind fun next => (unspread temp sz nJump count next value).map (value :: ·)

/-- `Decrypt` into a new buffer, which gets the size of the source, and `*pnOriginalLength`. -/
def decrypt : List UInt8 → Option (List UInt8 × Nat)
  | [b] => some ([b], 1)
  | src => do
    if src.length < 10 then none
    let sz := src.length - 8
    let magicnum := UInt32.ofNat (ofBytes (src.drop (sz + 4)))
    let temp := (src.take (sz + 4)).map (· ^^^ magicnum.toUInt8)
    let dest ← unspread temp sz (jump magicnum sz) sz (magicnum.toNat % sz) 0
    return (dest ++ List.replicate 8 0, ofBytes (temp.drop sz))

/-! ## The stride is prime to the length -/

/-- What the loop of the divisors has found before `nDivisor`. -/
structure Collected (sz nDivisor nMaxValue : Nat) (l : List Nat) : Prop where
  last : ∃ d, 0 < d ∧ d ∣ sz ∧ d < nDivisor ∧ nMaxValue = sz / d
  found : ∀ d, d ∣ sz → 1 < d → d < nDivisor → d ∈ l ∧ sz / d ∈ l

/-- When the loop ends, a divisor it has not come to is the quotient of one it has come to. -/
theorem Collected.mem {sz nDivisor nMaxValue : Nat} {l : List Nat} (h : Collected sz nDivisor nMaxValue l)
    (hend : nMaxValue ≤ nDivisor) {d : Nat} (hd : d ∣ sz) (h1 : 1 < d) (hlt : d < sz) : d ∈ l := by
  by_cases hsmall : d < nDivisor
  · exact (h.found d hd h1 hsmall).1
  · obtain ⟨e, he0, he, helt, hmax⟩ := h.last
    obtain ⟨f, hf⟩ := hd
    obtain ⟨g, hg⟩ := he
    have hquot : sz / e = g := by rw [hg, Nat.mul_div_cancel_left g he0]
    have hfe : f ≤ e := by
      have hgd : g ≤ d := by omega
      have : d * f ≤ d * e := by
        calc d * f = e * g := by rw [← hf, hg]
          _ ≤ e * d := Nat.mul_le_mul_left e hgd
          _ = d * e := Nat.mul_comm e d
      exact Nat.le_of_mul_le_mul_left this (Nat.zero_lt_of_lt h1)
    have hf1 : 1 < f := by
      have h0 : f ≠ 0 := by
        rintro rfl
        omega
      have h1' : f ≠ 1 := by
        rintro rfl
        omega
      omega
    have hfd : f ∣ sz := ⟨d, by rw [hf, Nat.mul_comm]⟩
    have hback : sz / f = d := by rw [hf, Nat.mul_div_cancel d (Nat.zero_lt_of_lt hf1)]
    rw [← hback]
    exact (h.found f hfd hf1 (Nat.lt_of_le_of_lt hfe helt)).2

theorem mem_divisorLoop {sz nDivisor nMaxValue : Nat} {vDivisorList vQuotientList : List Nat} (h2 : 2 ≤ nDivisor)
    (h : Collected sz nDivisor nMaxValue (vDivisorList ++ vQuotientList)) {d : Nat} (hd : d ∣ sz) (h1 : 1 < d) (hlt : d < sz) :
    d ∈ divisorLoop sz nDivisor nMaxValue vDivisorList vQuotientList := by
  induction nDivisor, nMaxValue, vDivisorList, vQuotientList using divisorLoop.induct sz with
  | case1 n m ds qs hnm hmod ih =>
    unfold divisorLoop
    rw [if_pos hnm, if_pos hmod]
    obtain ⟨e, he0, he, helt, hmax⟩ := h.last
    refine ih (by omega) ⟨⟨e, he0, he, by omega, hmax⟩, fun c hc hc1 hcn => h.found c hc hc1 ?_⟩
    have hne : c ≠ n := by
      rintro rfl
      exact hmod (Nat.mod_eq_zero_of_dvd hc)
    omega
  | case2 n m ds qs hnm hmod q ih =>
    unfold divisorLoop
    rw [if_pos hnm, if_neg hmod]
    have hn : n ∣ sz := Nat.dvd_of_mod_eq_zero (Decidable.not_not.mp hmod)
    refine ih (by omega) ⟨⟨n, by omega, hn, Nat.lt_succ_self n, rfl⟩, fun c hc hc1 hcn => ?_⟩
    have hkeep : ∀ x, x ∈ ds ++ qs → x ∈ ds ++ [n] ++ if n ≠ q then qs ++ [q] else qs := by
      intro x hx
      rcases List.mem_append.mp hx with hx | hx
      · exact List.mem_append_left _ (List.mem_append_left _ hx)
      · refine List.mem_append_right _ ?_
        split_ifs
        · exact List.mem_append_left _ hx
        · exact hx
    by_cases hcn' : c = n
    · subst hcn'
      refine ⟨List.mem_append_left _ (List.mem_append_right _ (List.mem_singleton_self c)), ?_⟩
      by_cases hq : c = q
      · rw [show sz / c = c from hq.symm]
        exact List.mem_append_left _ (List.mem_append_right _ (List.mem_singleton_self c))
      · rw [dif_pos hq]
        exact List.mem_append_right _ (List.mem_append_right _ (List.mem_singleton_self _))
    · obtain ⟨hmem, hquot⟩ := h.found c hc hc1 (by omega)
      exact ⟨hkeep _ hmem, hkeep _ hquot⟩
  | case3 n m ds qs hnm =>
    unfold divisorLoop
    rw [if_neg hnm]
    rcases List.mem_append.mp (h.mem (by omega) hd h1 hlt) with hmem | hmem
    · exact List.mem_append_left _ hmem
    · exact List.mem_append_right _ (List.mem_reverse.mpr hmem)

/-- The list of the divisors is complete. -/
theorem mem_divisorList {sz d : Nat} (hd : d ∣ sz) (h1 : 1 < d) (hlt : d < sz) : d ∈ divisorList sz :=
  mem_divisorLoop (Nat.le_refl 2)
    ⟨⟨1, Nat.one_pos, Nat.one_dvd sz, Nat.lt_succ_self 1, (Nat.div_one sz).symm⟩, fun _ _ _ _ => by omega⟩ hd h1 hlt

theorem searchJump_spec (l : List Nat) {nJump : Nat} (h : 1 ≤ nJump) :
    1 ≤ searchJump l nJump ∧ searchJump l nJump ≤ nJump ∧
      (searchJump l nJump = 1 ∨ ∀ d ∈ l, ¬d ∣ searchJump l nJump) := by
  induction nJump using searchJump.induct l with
  | case1 => exact absurd h (by decide)
  | case2 => exact ⟨Nat.le_refl 1, Nat.le_refl 1, .inl rfl⟩
  | case3 n hany ih =>
    unfold searchJump
    rw [if_pos hany]
    obtain ⟨h1, hle, hend⟩ := ih (by omega)
    exact ⟨h1, Nat.le_succ_of_le hle, hend⟩
  | case4 n hany =>
    unfold searchJump
    rw [if_neg hany]
    refine ⟨h, Nat.le_refl _, .inr fun d hd hdvd => hany ?_⟩
    exact List.any_eq_true.mpr ⟨d, hd, beq_iff_eq.mpr (Nat.mod_eq_zero_of_dvd hdvd)⟩

theorem firstJump_bounds (magicnum : UInt32) {sz : Nat} (h : 2 ≤ sz) :
    1 ≤ firstJump magicnum sz ∧ firstJump magicnum sz < sz := by
  unfold firstJump
  have hlt := Nat.mod_lt ((magicnum &&& 0xfff0).toNat + 1) (Nat.zero_lt_of_lt h)
  dsimp only
  split_ifs <;> omega

theorem jump_lt (magicnum : UInt32) {sz : Nat} (h : 2 ≤ sz) : jump magicnum sz < sz := by
  obtain ⟨h1, hlt⟩ := firstJump_bounds magicnum h
  exact Nat.lt_of_le_of_lt (searchJump_spec _ h1).2.1 hlt

/-- The search ends at a stride that is prime to the length. -/
theorem coprime_jump (magicnum : UInt32) {sz : Nat} (h : 2 ≤ sz) : Nat.Coprime (jump magicnum sz) sz := by
  obtain ⟨h1, -⟩ := firstJump_bounds magicnum h
  obtain ⟨hpos, -, hend⟩ := searchJump_spec (divisorList sz) h1
  rcases hend with hone | hnone
  · unfold jump
    rw [hone]
    exact Nat.coprime_one_left sz
  · -- a common divisor would be in the list
    refine Decidable.byContradiction fun hne => ?_
    have hg : 1 < Nat.gcd (jump magicnum sz) sz :=
      Nat.lt_of_le_of_ne (Nat.gcd_pos_of_pos_left sz hpos) fun heq => hne heq.symm
    have hle : Nat.gcd (jump magicnum sz) sz ≤ jump magicnum sz := Nat.gcd_le_left sz hpos
    exact hnone _ (mem_divisorList (Nat.gcd_dvd_right _ _) hg (Nat.lt_of_le_of_lt hle (jump_lt magicnum h)))
      (Nat.gcd_dvd_left _ _)

/-! ## The loops walk -/

/-- The differences of a message. -/
def differences (ucValue : UInt8) : List UInt8 → List UInt8
  | [] => []
  | c :: src => (c - ucValue) :: differences c src

/-- The sums of differences. -/
def sums (ucValue : UInt8) : List UInt8 → List UInt8
  | [] => []
  | b :: l => (ucValue + b) :: sums (ucValue + b) l

theorem sums_differences (ucValue : UInt8) (src : List UInt8) : sums ucValue (differences ucValue src) = src := by
  induction src generalizing ucValue with
  | nil => rfl
  | cons c src ih =>
    show (ucValue + (c - ucValue)) :: sums (ucValue + (c - ucValue)) (differences c src) = c :: src
    rw [UInt8.add_comm, UInt8.sub_add_cancel, ih]

theorem length_differences (ucValue : UInt8) (src : List UInt8) : (differences ucValue src).length = src.length := by
  induction src generalizing ucValue with
  | nil => rfl
  | cons c src ih => exact congrArg Nat.succ (ih c)

section Walk

variable {sz nJump : Nat} (hcop : Nat.Coprime nJump sz) (hjump : nJump < sz) (hsz : sz ≤ 2 ^ 30)
include hjump hsz

theorem advance_eq {p : Nat} (hp : p < sz) : advance sz nJump p = some ((p + nJump) % sz) := if_pos (by omega)

include hcop in
/-- No assertion of `Encrypt` fails while the places ahead are empty. -/
theorem spread_eq (mask : UInt8) {src : List UInt8} {p : Nat} {ucValue : UInt8} {dest : List UInt8} (hp : p < sz)
    (hlen : src.length ≤ sz) (hzero : ∀ i < src.length, dest.getD (place sz nJump p i) 0 = 0) :
    spread mask sz nJump src p ucValue dest =
      some (scatter sz nJump ((differences ucValue src).map (· ^^^ mask)) p dest) := by
  induction src generalizing p ucValue dest with
  | nil => rfl
  | cons c src ih =>
    have h0 := hzero 0 (Nat.succ_pos _)
    rw [place_zero hp] at h0
    unfold spread
    rw [if_neg (not_not_intro h0), advance_eq hjump hsz hp, Option.bind_some,
      ih (Nat.mod_lt _ (Nat.zero_lt_of_lt hp)) (Nat.le_of_succ_le hlen) fun i hi => ?_]
    · rfl
    · rw [place_succ]
      have hne : p ≠ place sz nJump p (i + 1) := by
        intro heq
        have hlt : i + 1 < sz := Nat.lt_of_lt_of_le (Nat.succ_lt_succ hi) hlen
        exact Nat.succ_ne_zero i (place_inj hcop hlt (Nat.zero_lt_of_lt hp) (heq.symm.trans (place_zero hp).symm))
      rw [List.getD_eq_getElem?_getD, List.getElem?_set_ne hne, ← List.getD_eq_getElem?_getD]
      exact hzero (i + 1) (Nat.succ_lt_succ hi)

theorem unspread_eq (temp : List UInt8) (count : Nat) {p : Nat} (ucValue : UInt8) (hp : p < sz) :
    unspread temp sz nJump count p ucValue = some (sums ucValue (gather sz nJump (temp.getD · 0) count p)) := by
  induction count generalizing p ucValue with
  | zero => rfl
  | succ count ih =>
    unfold unspread
    dsimp only
    rw [advance_eq hjump hsz hp, Option.bind_some, ih _ (Nat.mod_lt _ (Nat.zero_lt_of_lt hp))]
    rfl

end Walk

/-! ## The round trip -/

theorem length_bytes (v : Nat) : (bytes v).length = 4 := rfl

theorem ofBytes_bytes (v : Nat) : ofBytes (bytes v) = v % 2 ^ 32 := by
  have h : ∀ n, (UInt8.ofNat n).toNat = n % 2 ^ 8 := fun _ => UInt8.toNat_ofNat'
  show (((0 * 256 + (UInt8.ofNat (v / 2 ^ 24)).toNat) * 256 + (UInt8.ofNat (v / 2 ^ 16)).toNat) * 256 +
    (UInt8.ofNat (v / 2 ^ 8)).toNat) * 256 + (UInt8.ofNat v).toNat = _
  rw [h, h, h, h]
  omega

theorem map_mask_mask (mask : UInt8) (l : List UInt8) : (l.map (· ^^^ mask)).map (· ^^^ mask) = l := by
  rw [List.map_map]
  refine (List.map_congr_left fun b _ => ?_).trans (List.map_id l)
  show b ^^^ mask ^^^ mask = b
  rw [UInt8.xor_assoc, UInt8.xor_self, UInt8.xor_zero]

/-- The message in its buffer. -/
theorem encrypt_eq (nOriginalLength : Nat) {src : List UInt8} (h2 : 2 ≤ src.length) (hsz : src.length ≤ 2 ^ 30) :
    encrypt nOriginalLength src =
      let magicnum := magicNumber src
      let mask := magicnum.toUInt8
      some ((scatter src.length (jump magicnum src.length) ((differences 0 src).map (· ^^^ mask))
          (magicnum.toNat % src.length) (List.replicate (src.length + 8) 0)).take src.length ++
        ((bytes nOriginalLength).map (· ^^^ mask) ++ bytes magicnum.toNat)) := by
  match src, h2 with
  | c :: d :: src, h2 =>
    set l := c :: d :: src with hl
    have hp : (magicNumber l).toNat % l.length < l.length := Nat.mod_lt _ (Nat.zero_lt_of_lt h2)
    have hjump := jump_lt (magicNumber l) h2
    have hcop := coprime_jump (magicNumber l) h2
    have hspread : spread (magicNumber l).toUInt8 l.length (jump (magicNumber l) l.length) (d :: src)
        (((magicNumber l).toNat % l.length + jump (magicNumber l) l.length) % l.length) c
        ((List.replicate (l.length + 8) 0).set ((magicNumber l).toNat % l.length) (c ^^^ (magicNumber l).toUInt8)) =
          some (scatter l.length (jump (magicNumber l) l.length) ((differences 0 l).map (· ^^^ (magicNumber l).toUInt8))
            ((magicNumber l).toNat % l.length) (List.replicate (l.length + 8) 0)) := by
      have hfirst : (differences 0 l).map (· ^^^ (magicNumber l).toUInt8) =
          (c ^^^ (magicNumber l).toUInt8) :: (differences c (d :: src)).map (· ^^^ (magicNumber l).toUInt8) := by
        show ((c - 0) ^^^ _) :: _ = _
        rw [UInt8.sub_zero]
      rw [hfirst]
      refine spread_eq hcop hjump hsz _ (Nat.mod_lt _ (Nat.zero_lt_of_lt h2)) (Nat.le_succ _) fun i hi => ?_
      -- the first place is not ahead
      have hne : (magicNumber l).toNat % l.length ≠
          place l.length (jump (magicNumber l) l.length) ((magicNumber l).toNat % l.length) (i + 1) := by
        intro heq
        exact Nat.succ_ne_zero i (place_inj hcop (Nat.succ_lt_succ hi) (Nat.zero_lt_of_lt h2)
          (heq.symm.trans (place_zero hp).symm))
      rw [place_succ, List.getD_eq_getElem?_getD, List.getElem?_set_ne hne, List.getElem?_replicate]
      split_ifs <;> rfl
    show (advance l.length _ _).bind _ = _
    rw [advance_eq hjump hsz hp, Option.bind_some]
    show (spread _ _ _ (d :: src) _ c _).bind _ = _
    rw [hspread]
    rfl

theorem decrypt_eq {src : List UInt8} (h : 10 ≤ src.length) :
    decrypt src =
      let sz := src.length - 8
      let magicnum := UInt32.ofNat (ofBytes (src.drop (sz + 4)))
      let temp := (src.take (sz + 4)).map (· ^^^ magicnum.toUInt8)
      (unspread temp sz (jump magicnum sz) sz (magicnum.toNat % sz) 0).map fun dest =>
        (dest ++ List.replicate 8 0, ofBytes (temp.drop sz)) := by
  match src, h with
  | b :: c :: src, h =>
    unfold decrypt
    dsimp only
    rw [if_neg (Nat.not_lt.mpr h), Option.map_eq_bind]
    rfl

/-- **`Decrypt` finds what `Encrypt` was given**, with the original length; it leaves eight zeros behind a message of more
than one byte. An empty message has no decryption. -/
theorem decrypt_of_encrypt (nOriginalLength : Nat) (src : List UInt8) (hsz : src.length ≤ 2 ^ 30) :
    (encrypt nOriginalLength src).bind decrypt =
      match src with
      | [] => none
      | [b] => some ([b], 1)
      | src => some (src ++ List.replicate 8 0, nOriginalLength % 2 ^ 32) := by
  match src with
  | [] => rfl
  | [b] => rfl
  | c :: d :: rest =>
    have h2 : 2 ≤ (c :: d :: rest).length := Nat.le_add_left ..
    dsimp only
    generalize c :: d :: rest = src at h2 hsz
    rw [encrypt_eq nOriginalLength h2 hsz, Option.bind_some]
    set magicnum := magicNumber src with hmagicnum
    set mask := magicnum.toUInt8 with hmask
    set dest := scatter src.length (jump magicnum src.length) ((differences 0 src).map (· ^^^ mask))
      (magicnum.toNat % src.length) (List.replicate (src.length + 8) 0) with hdest
    have hdestlen : dest.length = src.length + 8 := by rw [hdest, length_scatter, List.length_replicate]
    have hlen : (dest.take src.length).length = src.length := by
      rw [List.length_take, hdestlen]
      omega
    have hfront : (dest.take src.length ++ (bytes nOriginalLength).map (· ^^^ mask)).length = src.length + 4 := by
      rw [List.length_append, hlen, List.length_map, length_bytes]
    have hall : (dest.take src.length ++ ((bytes nOriginalLength).map (· ^^^ mask) ++ bytes magicnum.toNat)).length =
        src.length + 8 := by
      rw [← List.append_assoc, List.length_append, hfront, length_bytes]
    have hmagic : UInt32.ofNat (ofBytes (bytes magicnum.toNat)) = magicnum := by
      rw [ofBytes_bytes, Nat.mod_eq_of_lt magicnum.toNat_lt, UInt32.ofNat_toNat]
    rw [decrypt_eq (by rw [hall]; omega), hall]
    dsimp only
    rw [Nat.add_sub_cancel, ← List.append_assoc, List.drop_left' hfront, List.take_left' hfront, hmagic, ← hmask,
      List.map_append, map_mask_mask, List.drop_left' (by rw [List.length_map, hlen]), ofBytes_bytes]
    have hjump := jump_lt magicnum h2
    have hp : magicnum.toNat % src.length < src.length := Nat.mod_lt _ (Nat.zero_lt_of_lt h2)
    rw [unspread_eq hjump hsz _ _ _ hp]
    have hgather : gather src.length (jump magicnum src.length)
        (((dest.take src.length).map (· ^^^ mask) ++ bytes nOriginalLength).getD · 0) src.length
        (magicnum.toNat % src.length) = differences 0 src := by
      refine gather_eq_of_place (length_differences 0 src) hp fun i hi => ?_
      have hq : place src.length (jump magicnum src.length) (magicnum.toNat % src.length) i < src.length :=
        place_lt (Nat.zero_lt_of_lt h2) i
      rw [List.getD_eq_getElem?_getD, List.getElem?_append_left (by rwa [List.length_map, hlen]), List.getElem?_map,
        List.getElem?_take_of_lt hq, hdest, getElem?_scatter_place (coprime_jump magicnum h2) hp ?_ ?_ ?_,
        List.getElem?_map, List.getElem?_eq_getElem hi]
      · show (differences 0 src)[i] ^^^ mask ^^^ mask = (differences 0 src)[i]
        rw [UInt8.xor_assoc, UInt8.xor_self, UInt8.xor_zero]
      · rw [List.length_map, length_differences]
      · rw [List.length_replicate]
        exact Nat.le_add_right ..
      · rwa [List.length_map]
    rw [hgather, sums_differences]
    rfl

theorem decrypt_of_encrypt_three :
    (encrypt 70000 [1, 2, 3]).bind decrypt = some ([1, 2, 3] ++ List.replicate 8 0, 70000) :=
  decrypt_of_encrypt 70000 [1, 2, 3] (by decide)

end RZEmulator.Shared.SimpleCipher
