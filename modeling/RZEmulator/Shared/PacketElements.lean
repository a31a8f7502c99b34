import RZEmulator.Shared.PacketValue

/-!
# Numbers and elements

How one value stands in the bytes of a packet (`Agrees`): its size is the number of its bytes, it is written as
these bytes wherever it stands, and reading them, whatever follows, uses them up and gives the value back exactly
when nothing in it is unclean. Numbers are the first such values, and what holds of the elements of an array holds
of the array.
-/

namespace RZEmulator.Shared.Packet

open Lib

/-- Reading the bytes `b`, and no more of what follows. -/
def ReadsBack (read : Reader → Option (Val × Reader)) (opens : Bool) (same : Val → Prop) (clean : Prop)
    (b : List UInt8) : Prop :=
  ∀ tail, (opens → tail = []) → ∀ rpos, ∃ y, read ⟨rpos, b ++ tail⟩ = some (y, ⟨rpos + b.length, tail⟩) ∧
    (same y ↔ clean)

/-- A value with the bytes `b`. -/
structure Agrees (getSize : Option Nat) (write : Nat → Option (List UInt8)) (read : Reader → Option (Val × Reader))
    (opens occupies : Bool) (same : Val → Prop) (clean : Prop) (b : List UInt8) : Prop where
  getSize : getSize = some b.length
  write : ∀ pos, write pos = some b
  read : ReadsBack read opens same clean b
  occupies : opens = false → (b ≠ [] ↔ occupies)

theorem Reader.take_append {b : List UInt8} {n : Nat} (h : b.length = n) (rpos : Nat) (tail : List UInt8) :
    Reader.take ⟨rpos, b ++ tail⟩ n = some (b, ⟨rpos + n, tail⟩) := by
  subst h
  simp [Reader.take]

/-! ## Numbers -/

theorem Prim.length_write (p : Prim) (n : Int) : (p.write n).length = p.size := length_toLE _ _

/-- Bytes are a value of the type. -/
theorem Prim.inRange_read (p : Prim) {b : List UInt8} (hb : b.length = p.size) : p.InRange (p.read b) := by
  have hrange := ofLE_range b
  rw [hb] at hrange
  unfold Prim.InRange Prim.read ofSignedLE
  rw [hb]
  split_ifs <;> omega

theorem Prim.read_write {p : Prim} {n : Int} (h : p.InRange n) : p.read (p.write n) = n := by
  unfold Prim.InRange at h
  unfold Prim.read Prim.write
  split_ifs at h ⊢
  · exact ofSignedLE_toLE h.1 h.2
  · exact ofLE_toLE_of_range h.1 h.2

theorem Prim.read_write_iff (p : Prim) (n : Int) : p.read (p.write n) = n ↔ p.InRange n := by
  constructor
  · intro h
    rw [← h]
    exact p.inRange_read (p.length_write n)
  · exact Prim.read_write

theorem Prim.read_injective (p : Prim) {b b' : List UInt8} (hlen : b.length = b'.length)
    (h : p.read b = p.read b') : b = b' := by
  unfold Prim.read at h
  split_ifs at h
  · exact ofSignedLE_injective hlen h
  · exact ofLE_injective hlen h

theorem Prim.agrees (v : Int) (p : Prim) (x o : Val) :
    Agrees ((Ty.prim p).getSize v x {} 0) ((Ty.prim p).serialize v x {}) (fun r => (Ty.prim p).deserialize v o r {})
      ((Ty.prim p).opens v) ((Ty.prim p).occupies v fun _ => 0) ((Ty.prim p).Same v x) ((Ty.prim p).Clean v x o)
      (p.write x.toInt) where
  getSize := by rw [Ty.getSize, p.length_write, Nat.zero_add]
  write _ := rfl
  read tail _ rpos := by
    refine ⟨.int (p.read (p.write x.toInt)), ?_, p.read_write_iff x.toInt⟩
    simp only [Ty.deserialize]
    rw [Reader.take_append (p.length_write _), p.length_write]
    rfl
  occupies _ := by
    rw [← List.length_pos_iff, p.length_write, Ty.occupies, decide_eq_true_eq]

/-! ## Elements -/

section

variable {getSize : Val → Option Nat} {write : Val → Nat → Option (List UInt8)}
  {read : Val → Reader → Option (Val × Reader)} {same clean : Val → Val → Prop} {bytes : Val → List UInt8}

theorem sizes_eq {l : List Val} (h : ∀ e ∈ l, getSize e = some (bytes e).length) :
    sizes getSize l = some (l.flatMap bytes).length := by
  induction l with
  | nil => rfl
  | cons e l ih =>
    rw [sizes, h e List.mem_cons_self, ih fun e' he => h e' (List.mem_cons_of_mem e he), List.flatMap_cons,
      List.length_append]
    rfl

theorem writes_eq {l : List Val} (h : ∀ e ∈ l, ∀ pos, write e pos = some (bytes e)) (pos : Nat) :
    writes write l pos = some (l.flatMap bytes) := by
  induction l generalizing pos with
  | nil => rfl
  | cons e l ih =>
    rw [writes, h e List.mem_cons_self, Option.bind_some, ih fun e' he => h e' (List.mem_cons_of_mem e he),
      List.flatMap_cons]
    rfl

theorem reads_eq {l os : List Val} (hlen : l.length = os.length)
    (h : ∀ e ∈ l, ∀ o ∈ os, ReadsBack (read o) false (same e) (clean e o) (bytes e)) (tail : List UInt8)
    (rpos : Nat) :
    ∃ ys, reads read os ⟨rpos, l.flatMap bytes ++ tail⟩ = some (ys, ⟨rpos + (l.flatMap bytes).length, tail⟩) ∧
      ys.length = os.length ∧ (List.Forall₂ same l ys ↔ List.Forall₂ clean l os) := by
  induction l generalizing os rpos with
  | nil =>
    obtain rfl := List.length_eq_zero_iff.mp hlen.symm
    exact ⟨[], rfl, rfl, by simp⟩
  | cons e l ih =>
    cases os with
    | nil => cases hlen
    | cons o os =>
      obtain ⟨y, hread, hy⟩ := h e List.mem_cons_self o List.mem_cons_self (l.flatMap bytes ++ tail) nofun rpos
      obtain ⟨ys, hreads, hlength, hys⟩ := ih (Nat.succ.inj hlen)
        (fun e' he o' ho => h e' (List.mem_cons_of_mem e he) o' (List.mem_cons_of_mem o ho))
        (rpos + (bytes e).length)
      refine ⟨y :: ys, ?_, by rw [List.length_cons, hlength, List.length_cons], ?_⟩
      · rw [List.flatMap_cons, List.append_assoc, reads, hread, Option.bind_some]
        simp only
        rw [hreads, List.length_append, Nat.add_assoc]
        rfl
      · rw [List.forall₂_cons, List.forall₂_cons, hy, hys]

/-- The loop ends with the buffer, when each round reads something. -/
theorem readEndArray_eq {new : Val} {l : List Val}
    (h : ∀ e ∈ l, ReadsBack (read new) false (same e) (clean e new) (bytes e)) (hbytes : ∀ e ∈ l, bytes e ≠ [])
    {n : Nat} (hn : (l.flatMap bytes).length ≤ n) (rpos : Nat) :
    ∃ ys, readEndArray read new n ⟨rpos, l.flatMap bytes⟩ = some (ys, ⟨rpos + (l.flatMap bytes).length, []⟩) ∧
      (List.Forall₂ same l ys ↔ ∀ e ∈ l, clean e new) := by
  induction l generalizing n rpos with
  | nil =>
    refine ⟨[], ?_, by simp⟩
    cases n <;> rfl
  | cons e l ih =>
    have hpos : 0 < (bytes e).length := List.length_pos_iff.mpr (hbytes e List.mem_cons_self)
    rw [List.flatMap_cons, List.length_append] at hn
    obtain ⟨n, rfl⟩ : ∃ m, n = m + 1 := ⟨n - 1, by omega⟩
    obtain ⟨y, hread, hy⟩ := h e List.mem_cons_self (l.flatMap bytes) nofun rpos
    obtain ⟨ys, hreads, hys⟩ := ih (n := n) (fun e' he => h e' (List.mem_cons_of_mem e he))
      (fun e' he => hbytes e' (List.mem_cons_of_mem e he)) (by omega) (rpos + (bytes e).length)
    refine ⟨y :: ys, ?_, ?_⟩
    · have hne : bytes e ++ l.flatMap bytes ≠ [] := by simp [hbytes e List.mem_cons_self]
      rw [List.flatMap_cons, readEndArray, if_neg hne, hread, Option.bind_some]
      simp only
      rw [if_neg (by omega), hreads, List.length_append, Nat.add_assoc]
      rfl
    · rw [List.forall₂_cons, List.forall_mem_cons, hy, hys]

theorem flatMap_ne_nil_iff {l : List Val} {occupies : Bool} (h : ∀ e ∈ l, (bytes e ≠ [] ↔ occupies)) :
    l.flatMap bytes ≠ [] ↔ 0 < l.length ∧ occupies := by
  cases l with
  | nil => simp
  | cons e l =>
    by_cases ho : occupies = true
    · simp [(h e List.mem_cons_self).mpr ho, ho]
    · have hnil : ∀ e' ∈ e :: l, bytes e' = [] := fun e' he => by
        by_contra hne
        exact ho ((h e' he).mp hne)
      rw [List.flatMap_eq_nil_iff.mpr hnil]
      simp [ho]

end

end RZEmulator.Shared.Packet
