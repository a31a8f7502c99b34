import RZEmulator.Shared.DesStandard

/-!
# Encrypting a buffer in place

`XDes::Encrypt` and `XDes::Decrypt` go over the whole blocks of a buffer and leave the bytes behind them alone. As the two
permutations of a block are inverse to each other and the rounds are a Feistel network, the one undoes the other for
every password (`decrypt_encrypt_eq`).
-/

namespace RZEmulator.Shared.XDes

open Lib BitBlock Standard

/-! ## One block -/

/-- What a block is selected to and back again. -/
theorem select_select {s t : List Nat} {n : Nat} (ht : t.length = n) (hs : s.length = n)
    (hinv : ∀ k < n, t.getD k 0 - 1 < n ∧ s.getD (t.getD k 0 - 1) 0 - 1 = k) {x : BitString}
    (hx : ∀ k, n ≤ k → x k = false) : select t (select s x) = x := by
  funext k
  by_cases hk : k < n
  · obtain ⟨hlt, hback⟩ := hinv k hk
    rw [select_eq (ht ▸ hk), select_eq (hs ▸ hlt), hback]
  · rw [select_of_le (by omega), hx k (not_lt.mp hk)]

theorem ip_fp : ∀ k < 64, fp.getD k 0 - 1 < 64 ∧ ip.getD (fp.getD k 0 - 1) 0 - 1 = k := by decide

theorem fp_ip : ∀ k < 64, ip.getD k 0 - 1 < 64 ∧ fp.getD (ip.getD k 0 - 1) 0 - 1 = k := by decide

theorem permute_fp_ip (b : Block 8) : permute (permute b (perminit ip)) (perminit fp) = b := by
  refine BitBlock.ext fun k _ => ?_
  rw [bitAt_permute rfl (by decide), bitAt_permute rfl (by decide),
    select_select (s := ip) (t := fp) (n := 64) rfl rfl ip_fp fun k hk => bitAt_of_le b hk]

theorem permute_ip_fp (b : Block 8) : permute (permute b (perminit fp)) (perminit ip) = b := by
  refine BitBlock.ext fun k _ => ?_
  rw [bitAt_permute rfl (by decide), bitAt_permute rfl (by decide),
    select_select (s := fp) (t := ip) (n := 64) rfl rfl fp_ip fun k hk => bitAt_of_le b hk]

/-- A block is deciphered with the same password. -/
theorem dedes_endes (password : List UInt8) (b : Block 8) :
    (init password).dedes ((init password).endes b) = b := by
  rw [dedes_eq, endes_eq]
  show permute (joined (Feistel.network _ _ (halves (permute (permute _ (perminit fp)) (perminit ip)))))
    (perminit fp) = b
  rw [permute_ip_fp, halves_joined, Feistel.network_reverse xorBytes_xorBytes_cancel, joined_halves]
  exact permute_fp_ip b

/-! ## The buffer -/

/-- The loop of `XDes::DesMem` with the function of its blocks. A buffer that ends before the loop is overrun. -/
def desMem (block : Block 8 → Block 8) : List UInt8 → Int → Option (List UInt8)
  | b0 :: b1 :: b2 :: b3 :: b4 :: b5 :: b6 :: b7 :: rest, mlen =>
    if 0 < mlen then (desMem block rest (mlen - 8)).map ((block #v[b0, b1, b2, b3, b4, b5, b6, b7]).toList ++ ·)
    else some (b0 :: b1 :: b2 :: b3 :: b4 :: b5 :: b6 :: b7 :: rest)
  | buf, mlen => if 0 < mlen then none else some buf

/-- `len & 0xfffffff8`, a signed number again where it is passed on. -/
def wholeBlocks (len : Int) : Int := len - len % 8

variable (d : XDes)

/-- `XDes::Encrypt`: whether it has been done, and the buffer after it. -/
def encrypt (buf : List UInt8) (len : Int) : Option (Bool × List UInt8) :=
  if wholeBlocks len = 0 then some (false, buf)
  else (desMem d.endes buf (wholeBlocks len)).map (true, ·)

/-- `XDes::Decrypt`. -/
def decrypt (buf : List UInt8) (len : Int) : Option (Bool × List UInt8) :=
  if wholeBlocks len = 0 then some (false, buf)
  else (desMem d.dedes buf (wholeBlocks len)).map (true, ·)

/-! ### What the loop does -/

theorem desMem_block (block : Block 8 → Block 8) (b : Block 8) (rest : List UInt8) {mlen : Int} (h : 0 < mlen) :
    desMem block (b.toList ++ rest) mlen = (desMem block rest (mlen - 8)).map ((block b).toList ++ ·) := by
  obtain ⟨⟨l⟩, hl⟩ := b
  match l, hl with
  | [_, _, _, _, _, _, _, _], _ => exact if_pos h

theorem desMem_of_le (block : Block 8 → Block 8) (buf : List UInt8) {mlen : Int} (h : mlen ≤ 0) :
    desMem block buf mlen = some buf := by
  unfold desMem
  split
  · exact if_neg (not_lt.mpr h)
  · exact if_neg (not_lt.mpr h)

theorem desMem_short (block : Block 8 → Block 8) {buf : List UInt8} (hbuf : buf.length < 8) {mlen : Int} (h : 0 < mlen) :
    desMem block buf mlen = none := by
  unfold desMem
  split
  · simp only [List.length_cons] at hbuf
    omega
  · exact if_pos h

/-- A buffer with a whole block in front. -/
theorem exists_block {buf : List UInt8} (h : 8 ≤ buf.length) : ∃ (b : Block 8) (rest : List UInt8), buf = b.toList ++ rest :=
  ⟨⟨(buf.take 8).toArray, by rw [List.size_toArray, List.length_take]; omega⟩, buf.drop 8, (List.take_append_drop 8 buf).symm⟩

/-- Two loops over the same blocks, the functions of which undo each other. -/
theorem desMem_desMem {g h : Block 8 → Block 8} (hgh : ∀ b, h (g b) = b) (n : Nat) (buf : List UInt8) :
    (desMem g buf (8 * n)).bind (desMem h · (8 * n)) = if 8 * n ≤ buf.length then some buf else none := by
  induction n generalizing buf with
  | zero =>
    rw [desMem_of_le g buf (by omega), if_pos (by omega)]
    exact desMem_of_le h buf (by omega)
  | succ n ih =>
    by_cases hbuf : 8 ≤ buf.length
    · obtain ⟨b, rest, rfl⟩ := exists_block hbuf
      rw [desMem_block g b rest (by omega), show (8 * (n + 1 : Nat) : Int) - 8 = 8 * n by omega, Option.bind_map]
      have hback : (fun r => desMem h r (8 * (n + 1 : Nat))) ∘ ((g b).toList ++ ·) =
          fun r => (desMem h r (8 * n)).map (b.toList ++ ·) := by
        funext r
        show desMem h ((g b).toList ++ r) (8 * (n + 1 : Nat)) = _
        rw [desMem_block h (g b) r (by omega), hgh, show (8 * (n + 1 : Nat) : Int) - 8 = 8 * n by omega]
      rw [hback, ← Function.comp_def (Option.map _), ← Option.map_bind, ih, List.length_append, Vector.length_toList]
      split_ifs <;> first | rfl | omega
    · rw [desMem_short g (not_le.mp hbuf) (by omega), if_neg (by omega)]
      rfl

/-- The loop keeps the length of the buffer and the bytes behind its blocks. -/
theorem desMem_frame {g : Block 8 → Block 8} (n : Nat) {buf c : List UInt8} (h : desMem g buf (8 * n) = some c) :
    c.length = buf.length ∧ c.drop (8 * n) = buf.drop (8 * n) := by
  induction n generalizing buf c with
  | zero =>
    rw [desMem_of_le g buf (by omega)] at h
    cases h
    exact ⟨rfl, rfl⟩
  | succ n ih =>
    by_cases hbuf : 8 ≤ buf.length
    · obtain ⟨b, rest, rfl⟩ := exists_block hbuf
      rw [desMem_block g b rest (by omega), show (8 * (n + 1 : Nat) : Int) - 8 = 8 * n by omega] at h
      obtain ⟨r, hr, rfl⟩ := Option.map_eq_some_iff.mp h
      obtain ⟨hlen, htail⟩ := ih hr
      have hdrop : ∀ (b : Block 8) (r : List UInt8), (b.toList ++ r).drop (8 * (n + 1)) = r.drop (8 * n) := by
        intro b r
        rw [List.drop_append, List.drop_of_length_le (by rw [Vector.length_toList]; omega), List.nil_append,
          Vector.length_toList, show 8 * (n + 1) - 8 = 8 * n by omega]
      refine ⟨?_, ?_⟩
      · rw [List.length_append, List.length_append, Vector.length_toList, Vector.length_toList, hlen]
      · rw [hdrop, hdrop, htail]
    · rw [desMem_short g (not_le.mp hbuf) (by omega)] at h
      cases h

theorem exists_wholeBlocks {len : Int} (h : ¬wholeBlocks len < 0) : ∃ n : Nat, wholeBlocks len = 8 * n := by
  unfold wholeBlocks at h ⊢
  exact ⟨((len - len % 8) / 8).toNat, by omega⟩

/-- `Encrypt` keeps the length of a buffer and the bytes behind the whole blocks. -/
theorem encrypt_frame {d : XDes} {buf c : List UInt8} {len : Int} {done : Bool} (h : d.encrypt buf len = some (done, c)) :
    c.length = buf.length ∧ c.drop (wholeBlocks len).toNat = buf.drop (wholeBlocks len).toNat := by
  unfold encrypt at h
  split_ifs at h with hzero
  · cases h
    exact ⟨rfl, rfl⟩
  · obtain ⟨c', hc, hcc⟩ := Option.map_eq_some_iff.mp h
    cases hcc
    by_cases hneg : wholeBlocks len < 0
    · rw [desMem_of_le _ _ hneg.le] at hc
      cases hc
      exact ⟨rfl, rfl⟩
    · obtain ⟨n, hn⟩ := exists_wholeBlocks hneg
      rw [hn] at hc ⊢
      exact desMem_frame n hc

/-- `Decrypt` undoes `Encrypt` with the same password and length. -/
theorem decrypt_encrypt_eq (password buf : List UInt8) (len : Int) :
    ((init password).encrypt buf len).bind (fun r => (init password).decrypt r.2 len) =
      if wholeBlocks len ≤ buf.length then some (decide (wholeBlocks len ≠ 0), buf) else none := by
  unfold encrypt decrypt
  by_cases hzero : wholeBlocks len = 0
  · rw [if_pos hzero]
    show (if wholeBlocks len = 0 then _ else _) = _
    rw [if_pos hzero, if_pos (by omega), decide_eq_false (not_not.mpr hzero)]
  · rw [if_neg hzero, decide_eq_true hzero, Option.bind_map]
    simp only [if_neg hzero, Function.comp_def]
    rw [← Function.comp_def (Option.map _), ← Option.map_bind]
    by_cases hneg : wholeBlocks len < 0
    · rw [desMem_of_le _ _ hneg.le, Option.bind_some, desMem_of_le _ _ hneg.le, if_pos (by omega)]
      rfl
    · obtain ⟨n, hn⟩ := exists_wholeBlocks hneg
      rw [hn, desMem_desMem (dedes_endes password)]
      split_ifs <;> first | rfl | omega

/-- **A buffer that has been encrypted comes back**: `Encrypt` runs past the end of a buffer exactly if its whole blocks
do not fit; otherwise it leaves the length and the bytes behind the whole blocks alone, and `Decrypt` puts the buffer
back as it was, and reports the same. -/
theorem buffer_of_encrypt (password buf : List UInt8) (len : Int) :
    ((init password).encrypt buf len).bind (fun r => (init password).decrypt r.2 len) =
        (if wholeBlocks len ≤ buf.length then some (decide (wholeBlocks len ≠ 0), buf) else none) ∧
      ∀ done c, (init password).encrypt buf len = some (done, c) →
        c.length = buf.length ∧ c.drop (wholeBlocks len).toNat = buf.drop (wholeBlocks len).toNat :=
  ⟨decrypt_encrypt_eq password buf len, fun _ _ h => encrypt_frame h⟩

end RZEmulator.Shared.XDes
