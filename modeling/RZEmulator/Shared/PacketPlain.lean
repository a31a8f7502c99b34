import RZEmulator.Shared.PacketElements
import Mathlib.Data.List.TakeWhile
import Mathlib.Tactic.NormNum

/-!
# Lines without a type

What the three functions do for counts, strings and padding. These lines use the locals of the functions: `Here` is
what the three have in common before a line, the values of `ref##_size` and how many bytes ago each marker stood.
-/

namespace RZEmulator.Shared.Packet

open Lib

/-- What is known where a line begins. -/
structure Here where
  markers : List Nat
  counts : Nat → Nat
  since : Nat → Nat

namespace Here

/-- The locals of one of the functions, at its own position. -/
structure At (h : Here) (L : Locals) (pos : Nat) : Prop where
  counts : L.size = h.counts
  since : ∀ m ∈ h.markers, L.marker m + h.since m = pos

def move (h : Here) (k : Nat) : Here := { h with since := fun m => h.since m + k }

/-- Some bytes stand after a marker. -/
def Moved (h : Here) : Prop := ∃ m ∈ h.markers, 0 < h.since m

theorem At.move {h : Here} {L : Locals} {pos : Nat} (hat : h.At L pos) (k : Nat) : (h.move k).At L (pos + k) := by
  refine ⟨hat.counts, fun m hm => ?_⟩
  have hm' := hat.since m hm
  show L.marker m + (h.since m + k) = pos + k
  omega

theorem Moved.of_move {h : Here} {b : List UInt8} (hmoved : (h.move b.length).Moved) : b ≠ [] ∨ h.Moved := by
  obtain ⟨m, hm, hpos⟩ := hmoved
  by_cases hb : b = []
  · refine .inr ⟨m, hm, ?_⟩
    rw [hb] at hpos
    exact hpos
  · exact .inl hb

end Here

theorem Locals.setSize_size (L : Locals) (name n : Nat) : (L.setSize name n).size = Function.update L.size name n := by
  funext a
  rw [Function.update_apply]
  rfl

namespace PlainField

/-- What is known after a line with `k` bytes. -/
def after (f : PlainField) (name : Nat) (cond : Bool) (x : Val) (k : Nat) (h : Here) : Here where
  markers := f.markers name h.markers
  counts := f.counts name cond x h.counts
  since := match f with
    | padmarker => Function.update h.since name 0
    | _ => fun m => h.since m + k

/-- The three functions at a line with the bytes `b`. -/
structure Agrees (f : PlainField) (name : Nat) (cond : Bool) (x : Val) (h : Here) (b : List UInt8) : Prop where
  getSize : ∀ L s, h.At L s → (f.size name cond x L s).1 = s + b.length ∧
    (f.after name cond (x.get name) b.length h).At (f.size name cond x L s).2 (s + b.length)
  write : ∀ L pos, h.At L pos → ∃ L', f.serialize name cond x L pos = some (b, L') ∧
    (f.after name cond (x.get name) b.length h).At L' (pos + b.length)
  read : ∀ y tail, (cond && f.opens → tail = []) → ∀ L rpos, h.At L rpos →
    ∃ y' L', f.deserialize name cond y ⟨rpos, b ++ tail⟩ L = some (y', ⟨rpos + b.length, tail⟩, L') ∧
      (f.after name cond (x.get name) b.length h).At L' (rpos + b.length) ∧
      (f.Same cond (x.get name) (y'.get name) ↔ f.Clean cond (x.get name))
  empty : (cond && f.opens) = false → b ≠ [] → cond && f.occupies (h.counts name)
  occupies : cond && f.occupies (h.counts name) → b ≠ [] ∨ h.Moved
  moved : (f.after name cond (x.get name) b.length h).Moved → b ≠ [] ∨ h.Moved

section

variable {f : PlainField} {name : Nat} {cond : Bool} {x : Val} {h : Here} {b : List UInt8}

/-- A line that leaves the locals as they are. -/
theorem Agrees.of_frame (hafter : ∀ k, f.after name cond (x.get name) k h = h.move k)
    (hsize : ∀ L s, h.At L s → f.size name cond x L s = (s + b.length, L))
    (hwrite : ∀ L pos, h.At L pos → f.serialize name cond x L pos = some (b, L))
    (hread : ∀ y tail, (cond && f.opens → tail = []) → ∀ L rpos, h.At L rpos →
      ∃ y', f.deserialize name cond y ⟨rpos, b ++ tail⟩ L = some (y', ⟨rpos + b.length, tail⟩, L) ∧
        (f.Same cond (x.get name) (y'.get name) ↔ f.Clean cond (x.get name)))
    (hempty : (cond && f.opens) = false → b ≠ [] → cond && f.occupies (h.counts name))
    (hocc : cond && f.occupies (h.counts name) → b ≠ [] ∨ h.Moved) : f.Agrees name cond x h b := by
  constructor
  · intro L s hat
    rw [hafter, hsize L s hat]
    exact ⟨rfl, hat.move _⟩
  · intro L pos hat
    rw [hafter]
    exact ⟨L, hwrite L pos hat, hat.move _⟩
  · intro y tail htail L rpos hat
    obtain ⟨y', hy, hsame⟩ := hread y tail htail L rpos hat
    rw [hafter]
    exact ⟨y', L, hy, hat.move _, hsame⟩
  · exact hempty
  · exact hocc
  · intro hmoved
    rw [hafter] at hmoved
    exact hmoved.of_move

/-- A line that the version lacks. -/
theorem Agrees.of_absent (hcount : ∀ k, f.after name false (x.get name) k h = h.move k)
    (hsize : ∀ L s, f.size name false x L s = (s, L)) (hwrite : ∀ L pos, f.serialize name false x L pos = some ([], L))
    (hread : ∀ y r L, ∃ y', f.deserialize name false y r L = some (y', r, L) ∧
      (f.Same false (x.get name) (y'.get name) ↔ f.Clean false (x.get name))) : f.Agrees name false x h [] := by
  apply Agrees.of_frame hcount
  · intro L s _
    exact hsize L s
  · intro L pos _
    exact hwrite L pos
  · intro y tail _ L rpos _
    exact hread y ⟨rpos, tail⟩ L
  · simp
  · simp

end

/-! ## Strings -/

theorem takeWhile_eq_iff (s : List UInt8) {k : Nat} (hk : 0 < k) :
    (s ++ List.replicate k 0).takeWhile (· ≠ 0) = s ↔ 0 ∉ s := by
  constructor
  · intro h hmem
    rw [← h] at hmem
    have hne := List.mem_takeWhile_imp hmem
    simp at hne
  · intro h
    have hne : ∀ c ∈ s, decide (c ≠ 0) = true := by
      intro c hc
      rw [decide_eq_true_eq]
      rintro rfl
      exact h hc
    obtain ⟨k, rfl⟩ : ∃ m, k = m + 1 := ⟨k - 1, by omega⟩
    rw [List.takeWhile_append_of_pos hne, List.replicate_succ]
    simp

theorem writeString_eq {s : List UInt8} {n : Nat} (h : s.length < n) :
    writeString s n = s ++ List.replicate (n - s.length) 0 := by
  have htake : s.take (n - 1) = s := List.take_of_length_le (by omega)
  simp only [writeString, if_neg (by omega : n ≠ 0), htake]

theorem writeDynString_eq (s : List UInt8) (null : Bool) :
    writeDynString s (s.length + null.toNat) = some (s ++ List.replicate null.toNat 0) := by
  rw [writeDynString, if_pos (by cases null <;> simp)]
  cases null with
  | false => simp
  | true => simp [List.take_of_length_le]

/-- What is read ends where the terminator begins. -/
theorem readTerminated_append (s t : List UInt8) {null : Bool} (ht : t.length = null.toNat) (rpos : Nat)
    (tail : List UInt8) :
    readTerminated ⟨rpos, s ++ t ++ tail⟩ (s ++ t).length null = some (s, ⟨rpos + (s ++ t).length, tail⟩) := by
  rw [List.length_append, ht, readTerminated]
  by_cases hzero : s.length + null.toNat = 0
  · obtain rfl : s = [] := List.length_eq_zero_iff.mp (by omega)
    obtain rfl : t = [] := List.length_eq_zero_iff.mp (by omega)
    rw [if_pos hzero, hzero]
    rfl
  · rw [if_neg hzero, Nat.add_sub_cancel, List.append_assoc, Reader.take_append rfl, Option.bind_some]
    simp only
    rw [Reader.take_append ht, Option.map_some, Nat.add_assoc]

variable {name : Nat} {cond : Bool} {x : Val} {h : Here}

theorem get_setDefault (y : Val) (name : Nat) (d : Option (List UInt8)) :
    ∀ s ∈ d, ((y.setDefault name d).get name).toStr = s := by
  rintro s rfl
  show (if name = name then Val.str s else y.get name).toStr = s
  rw [if_pos rfl]
  rfl

theorem exists_agrees_string {n : Nat} {d : Option (List UInt8)}
    (hfits : cond → (string n d).Fits (x.get name) (h.counts name)) : ∃ b, (string n d).Agrees name cond x h b := by
  cases cond with
  | false =>
    refine ⟨[], .of_absent (fun _ => rfl) (fun _ _ => rfl) (fun _ _ => rfl) fun y r L => ⟨y.setDefault name d, rfl, ?_⟩⟩
    cases d with
    | none => simp [Same, Clean]
    | some s => simp [Same, Clean, get_setDefault y name (some s) s rfl]
  | true =>
    have hlen : (x.get name).toStr.length < n := hfits rfl
    have hb : (writeString (x.get name).toStr n).length = n := by
      rw [writeString_eq hlen, List.length_append, List.length_replicate]
      omega
    refine ⟨writeString (x.get name).toStr n, .of_frame (fun _ => rfl) ?_ (fun _ _ _ => rfl) ?_ ?_ ?_⟩
    · intro L s _
      rw [hb]
      rfl
    · intro y tail _ L rpos _
      refine ⟨y.set name (.str ((writeString (x.get name).toStr n).takeWhile (· ≠ 0))), ?_, ?_⟩
      · simp only [deserialize, if_true]
        rw [Reader.take_append hb, Option.map_some, hb]
      · show (if name = name then Val.str _ else y.get name).toStr = _ ↔ _
        rw [if_pos rfl, writeString_eq hlen]
        exact takeWhile_eq_iff _ (by omega)
    · intro _ _
      simp only [occupies, Bool.true_and, decide_eq_true_eq]
      omega
    · intro _
      left
      rw [← List.length_pos_iff, hb]
      omega

theorem exists_agrees_dynstring {null : Bool} {d : Option (List UInt8)}
    (hfits : cond → (dynstring null d).Fits (x.get name) (h.counts name)) :
    ∃ b, (dynstring null d).Agrees name cond x h b := by
  cases cond with
  | false =>
    refine ⟨[], .of_absent (fun _ => rfl) (fun _ _ => rfl) (fun _ _ => rfl) fun y r L => ⟨y.setDefault name d, rfl, ?_⟩⟩
    cases d with
    | none => simp [Same, Clean]
    | some s => simp [Same, Clean, get_setDefault y name (some s) s rfl]
  | true =>
    -- the count of an empty string may leave its terminator out
    obtain ⟨b, hlen, hwrite, hread⟩ : ∃ b : List UInt8, b.length = h.counts name ∧
        writeDynString (x.get name).toStr (h.counts name) = some b ∧
        ∀ rpos tail, readTerminated ⟨rpos, b ++ tail⟩ (h.counts name) null =
          some ((x.get name).toStr, ⟨rpos + b.length, tail⟩) := by
      rcases hfits rfl with hcount | ⟨hempty, hcount⟩
      · have hb : ((x.get name).toStr ++ List.replicate null.toNat 0).length = h.counts name := by
          rw [List.length_append, List.length_replicate, hcount]
        refine ⟨(x.get name).toStr ++ List.replicate null.toNat 0, hb, hcount ▸ writeDynString_eq _ _, ?_⟩
        intro rpos tail
        rw [← hb]
        exact readTerminated_append _ _ List.length_replicate rpos tail
      · refine ⟨[], hcount.symm, ?_, ?_⟩
        · rw [hcount, hempty]
          rfl
        · intro rpos tail
          rw [hcount, hempty]
          rfl
    refine ⟨b, .of_frame (fun _ => rfl) ?_ ?_ ?_ ?_ ?_⟩
    · intro L s hat
      rw [hlen, ← hat.counts]
      rfl
    · intro L pos hat
      simp only [serialize, if_true, hat.counts, hwrite, Option.map_some]
    · intro y tail _ L rpos hat
      refine ⟨y.set name (.str (x.get name).toStr), ?_, ?_⟩
      · simp only [deserialize, if_true, hat.counts, hread, Option.map_some]
      · show (if name = name then Val.str _ else y.get name).toStr = _ ↔ _
        rw [if_pos rfl]
        simp [Clean, Val.toStr]
    · intro _ hb
      simpa [occupies, ← hlen, List.length_pos_iff] using hb
    · intro hocc
      left
      simpa [occupies, ← hlen, List.length_pos_iff] using hocc

theorem exists_agrees_endstring {null : Bool} {d : Option (List UInt8)} :
    ∃ b, (endstring null d).Agrees name cond x h b := by
  cases cond with
  | false =>
    refine ⟨[], .of_absent (fun _ => rfl) (fun _ _ => rfl) (fun _ _ => rfl) fun y r L => ⟨y.setDefault name d, rfl, ?_⟩⟩
    cases d with
    | none => simp [Same, Clean]
    | some s => simp [Same, Clean, get_setDefault y name (some s) s rfl]
  | true =>
    -- the terminator that is not written is the last byte of the string
    have hread : ∀ rpos, ∃ s, readTerminated ⟨rpos, (x.get name).toStr⟩ (x.get name).toStr.length null =
        some (s, ⟨rpos + (x.get name).toStr.length, []⟩) ∧
          (s = (x.get name).toStr ↔ (null → (x.get name).toStr = [])) := by
      intro rpos
      generalize (x.get name).toStr = s
      cases null with
      | false =>
        refine ⟨s, ?_, by simp⟩
        have hnone : ([] : List UInt8).length = false.toNat := rfl
        simpa using readTerminated_append s [] hnone rpos []
      | true =>
        rcases List.eq_nil_or_concat s with rfl | ⟨s', c, rfl⟩
        · exact ⟨[], rfl, by simp⟩
        · refine ⟨s', ?_, by simp⟩
          have hlast : [c].length = true.toNat := rfl
          simpa using readTerminated_append s' [c] hlast rpos []
    refine ⟨(x.get name).toStr, .of_frame (fun _ => rfl) (fun _ _ _ => rfl) (fun _ _ _ => rfl) ?_ nofun (by simp [occupies])⟩
    intro y tail htail L rpos _
    obtain rfl := htail rfl
    obtain ⟨s, hs, hsame⟩ := hread rpos
    refine ⟨y.set name (.str s), ?_, ?_⟩
    · simp only [deserialize, if_true, List.append_nil, hs, Option.map_some]
    · show (if name = name then Val.str _ else y.get name).toStr = _ ↔ _
      rw [if_pos rfl]
      exact hsame

/-! ## Counts -/

theorem inRange_of_le_max {p : Prim} {n : Nat} (h : n ≤ p.max) : p.InRange n := by
  have hpos : 0 < 256 ^ p.size := Nat.pow_pos (by decide)
  have hcast : ((256 ^ p.size : Nat) : Int) = 256 ^ p.size := by push_cast; rfl
  unfold Prim.max at h
  unfold Prim.InRange
  rw [← hcast]
  split_ifs at h ⊢ <;> omega

theorem le_max_lt {p : Prim} (hsize : p.size ≤ 4) {n : Nat} (h : n ≤ p.max) : n < 2 ^ 32 := by
  have hpos : 0 < 256 ^ p.size := Nat.pow_pos (by decide)
  have hle : 256 ^ p.size ≤ 256 ^ 4 := Nat.pow_le_pow_right (by decide) hsize
  unfold Prim.max at h
  split_ifs at h <;> omega

/-- A count that fits is written and read as it is. -/
theorem read_count {p : Prim} (hsize : p.size ≤ 4) {n : Nat} (h : n ≤ p.max) :
    p.getClampedCount n = n ∧ (p.read (p.write n) % 2 ^ 32).toNat = n := by
  constructor
  · unfold Prim.getClampedCount
    split_ifs <;> omega
  · have hlt := le_max_lt hsize h
    rw [Prim.read_write (inRange_of_le_max h)]
    omega

theorem exists_agrees_count {type : Prim} {null : Bool} {d : Option Nat} (hwf : 0 < type.size ∧ type.size ≤ 4)
    (hfits : cond → (count type null d).Fits (x.get name) (h.counts name)) :
    ∃ b, (count type null d).Agrees name cond x h b := by
  cases cond with
  | false =>
    have hat : ∀ L pos, h.At L pos → ((count type null d).after name false (x.get name) 0 h).At (L.defaultSize name d) pos := by
      intro L pos hat
      cases d with
      | none => exact hat
      | some n =>
        refine ⟨?_, hat.since⟩
        rw [Locals.defaultSize, Locals.setSize_size, hat.counts]
        rfl
    refine ⟨[], fun L s hL => ⟨rfl, hat L s hL⟩, fun L pos hL => ⟨_, rfl, hat L pos hL⟩,
      fun y tail _ L rpos hL => ⟨y, _, rfl, hat L rpos hL, Iff.rfl⟩, by simp, by simp, .inr⟩
  | true =>
    have hmax : (x.get name).size + null.toNat ≤ type.max := hfits rfl
    obtain ⟨hclamp, hread⟩ := read_count hwf.2 hmax
    have hlen := type.length_write ((x.get name).size + null.toNat : Nat)
    have hat : ∀ L pos, h.At L pos → ((count type null d).after name true (x.get name) type.size h).At
        (L.setSize name ((x.get name).size + null.toNat)) (pos + type.size) := by
      intro L pos hL
      refine ⟨?_, (hL.move type.size).since⟩
      rw [Locals.setSize_size, hL.counts]
      rfl
    have hb : type.write ((x.get name).size + null.toNat : Nat) ≠ [] := by
      rw [← List.length_pos_iff, hlen]
      exact hwf.1
    refine ⟨type.write ((x.get name).size + null.toNat : Nat), ?_, ?_, ?_, fun _ _ => rfl, fun _ => .inl hb,
      fun _ => .inl hb⟩
    · intro L s hL
      rw [hlen]
      simp only [PlainField.size, if_true, hclamp]
      exact ⟨trivial, hat L s hL⟩
    · intro L pos hL
      rw [hlen]
      simp only [serialize, if_true, hclamp]
      exact ⟨_, rfl, hat L pos hL⟩
    · intro y tail _ L rpos hL
      rw [hlen]
      refine ⟨y, _, ?_, hat L rpos hL, Iff.rfl⟩
      simp only [deserialize, if_true]
      rw [Reader.take_append hlen, Option.map_some, hread]

/-! ## Padding -/

theorem exists_agrees_padmarker : ∃ b, padmarker.Agrees name cond x h b := by
  have hat : ∀ L pos, h.At L pos → (padmarker.after name cond (x.get name) 0 h).At (L.setMarker name pos) pos := by
    intro L pos hL
    refine ⟨by cases cond <;> exact hL.counts, fun m hm => ?_⟩
    show (if m = name then pos else L.marker m) + Function.update h.since name 0 m = pos
    rw [Function.update_apply]
    split_ifs with hne
    · rfl
    · exact hL.since m ((List.mem_cons.mp hm).resolve_left hne)
  refine ⟨[], fun L s hL => ⟨rfl, hat L s hL⟩, fun L pos hL => ⟨_, rfl, hat L pos hL⟩,
    fun y tail _ L rpos hL => ⟨y, _, rfl, hat L rpos hL, by cases cond <;> exact Iff.rfl⟩, by simp, by simp [occupies],
    ?_⟩
  rintro ⟨m, hm, hpos⟩
  have hpos' : 0 < Function.update h.since name 0 m := hpos
  rw [Function.update_apply] at hpos'
  split_ifs at hpos' with hne
  · cases hpos'
  · exact .inr ⟨m, (List.mem_cons.mp hm).resolve_left hne, hpos'⟩

theorem exists_agrees_pad {n : Nat} (hwf : name ∈ h.markers) : ∃ b, (pad n).Agrees name cond x h b := by
  cases cond with
  | false =>
    refine ⟨[], .of_absent (fun _ => rfl) ?_ ?_ ?_⟩
    · intro L s
      simp [PlainField.size]
    · intro L pos
      simp [serialize]
    · intro y r L
      exact ⟨y, by simp [deserialize], Iff.rfl⟩
  | true =>
    refine ⟨List.replicate (n - h.since name) 0, .of_frame (fun _ => rfl) ?_ ?_ ?_ ?_ ?_⟩
    · intro L s hat
      have hm := hat.since name hwf
      simp only [PlainField.size, true_and, List.length_replicate, Prod.mk.injEq, and_true]
      split_ifs <;> omega
    · intro L pos hat
      have hm := hat.since name hwf
      have hk : L.marker name + n - pos = n - h.since name := by omega
      simp only [serialize, true_and, hk, Option.some.injEq, Prod.mk.injEq, and_true]
      split_ifs with hlt
      · rfl
      · rw [show n - h.since name = 0 by omega]
        rfl
    · intro y tail _ L rpos hat
      have hm := hat.since name hwf
      have hk : L.marker name + n - rpos = n - h.since name := by omega
      refine ⟨y, ?_, Iff.rfl⟩
      simp only [deserialize, true_and, hk]
      split_ifs with hlt
      · rw [Reader.take_append List.length_replicate, Option.map_some, List.length_replicate]
      · rw [show n - h.since name = 0 by omega]
        rfl
    · intro _ hb
      have hpos : 0 < n - h.since name := by
        rwa [← List.length_pos_iff, List.length_replicate] at hb
      simp only [occupies, Bool.true_and, decide_eq_true_eq]
      omega
    · intro hocc
      simp only [occupies, Bool.true_and, decide_eq_true_eq] at hocc
      by_cases hlt : h.since name < n
      · left
        rw [← List.length_pos_iff, List.length_replicate]
        omega
      · right
        exact ⟨name, hwf, by omega⟩

theorem exists_agrees (f : PlainField) (hwf : f.WF name h.markers)
    (hfits : cond → f.Fits (x.get name) (h.counts name)) : ∃ b, f.Agrees name cond x h b := by
  cases f with
  | count type null d => exact exists_agrees_count hwf hfits
  | string n d => exact exists_agrees_string hfits
  | dynstring null d => exact exists_agrees_dynstring hfits
  | padmarker => exact exists_agrees_padmarker
  | pad n => exact exists_agrees_pad hwf
  | endstring null d => exact exists_agrees_endstring

end PlainField

end RZEmulator.Shared.Packet
