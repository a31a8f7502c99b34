import Mathlib.Data.List.TakeDrop

/-!
# Message buffers

`MessageBuffer.cpp`: a vector of bytes with a write position and a read position. A `memcpy` past the
end of the vector has no result.

A proof reads a buffer through `view done active junk`: the bytes already read, those still to be read,
and the rest of the vector, whose content nothing depends on. `filled` is a buffer nothing has been
read from. Each operation on a view is a view again, and these equations are all that is used of the
definitions below.
-/

namespace RZEmulator.Shared

structure MessageBuffer where
  wpos : Nat
  rpos : Nat
  storage : List UInt8
  deriving DecidableEq, Repr

namespace MessageBuffer

/-- The constructor from a size. -/
def ofSize (initialSize : Nat) : MessageBuffer := ⟨0, 0, List.replicate initialSize 0⟩

/-- The default constructor. -/
def default : MessageBuffer := ofSize 4096

def reset (b : MessageBuffer) : MessageBuffer := { b with wpos := 0, rpos := 0 }

/-- The vector is cut off or filled up with zeros; the positions stay. -/
def resize (b : MessageBuffer) (bytes : Nat) : MessageBuffer :=
  { b with storage := b.storage.takeD bytes 0 }

def readCompleted (b : MessageBuffer) (bytes : Nat) : MessageBuffer := { b with rpos := b.rpos + bytes }

def getActiveSize (b : MessageBuffer) : Nat := b.wpos - b.rpos

def getRemainingSpace (b : MessageBuffer) : Nat := b.storage.length - b.wpos

def getBufferSize (b : MessageBuffer) : Nat := b.storage.length

/-- What `GetReadPointer` points to: the vector from the read position on. -/
def atReadPointer (b : MessageBuffer) : List UInt8 := b.storage.drop b.rpos

/-- The bytes that are written and not yet read. -/
def active (b : MessageBuffer) : List UInt8 := b.atReadPointer.take b.getActiveSize

def normalize (b : MessageBuffer) : MessageBuffer :=
  if b.rpos = 0 then b
  else
    { wpos := b.wpos - b.rpos
      rpos := 0
      storage :=
        if b.rpos ≠ b.wpos then b.active ++ b.storage.drop b.getActiveSize else b.storage }

def ensureFreeSpace (b : MessageBuffer) : MessageBuffer :=
  if b.getRemainingSpace = 0 then b.resize (b.getBufferSize * 3 / 2) else b

def write (b : MessageBuffer) (data : List UInt8) : Option MessageBuffer :=
  if b.wpos + data.length ≤ b.getBufferSize then
    some { b with
      storage := b.storage.take b.wpos ++ data ++ b.storage.drop (b.wpos + data.length)
      wpos := b.wpos + data.length }
  else none

/-- What `Move` leaves behind; the vector is moved out. -/
def moved (_ : MessageBuffer) : MessageBuffer := ⟨0, 0, []⟩

/-! ## Views -/

/-- The buffer with the given bytes read, to be read, and unused. -/
def view (done active junk : List UInt8) : MessageBuffer :=
  ⟨done.length + active.length, done.length, done ++ active ++ junk⟩

/-- A buffer from which nothing has been read. -/
abbrev filled (active junk : List UInt8) : MessageBuffer := view [] active junk

variable (done act junk data : List UInt8)

theorem ofSize_eq (n : Nat) : ofSize n = filled [] (List.replicate n 0) := rfl

@[simp] theorem getActiveSize_view : (view done act junk).getActiveSize = act.length := by
  simp [getActiveSize, view]

@[simp] theorem getRemainingSpace_view : (view done act junk).getRemainingSpace = junk.length := by
  simp only [getRemainingSpace, view, List.length_append]
  omega

@[simp] theorem getBufferSize_view :
    (view done act junk).getBufferSize = done.length + act.length + junk.length := by
  simp [getBufferSize, view, Nat.add_assoc]

@[simp] theorem atReadPointer_view : (view done act junk).atReadPointer = act ++ junk := by
  simp [atReadPointer, view]

@[simp] theorem active_view : (view done act junk).active = act := by
  simp [active]

@[simp] theorem reset_view : (view done act junk).reset = filled [] (done ++ act ++ junk) := rfl

@[simp] theorem moved_eq (b : MessageBuffer) : b.moved = filled [] [] := rfl

theorem readCompleted_view {n : Nat} (h : n ≤ act.length) :
    (view done act junk).readCompleted n = view (done ++ act.take n) (act.drop n) junk := by
  simp only [readCompleted, view, List.length_append, List.length_take, List.length_drop,
    List.append_assoc, MessageBuffer.mk.injEq]
  refine ⟨by omega, by omega, ?_⟩
  rw [← List.append_assoc (act.take n), List.take_append_drop]

theorem write_view (h : data.length ≤ junk.length) :
    (view done act junk).write data = some (view done (act ++ data) (junk.drop data.length)) := by
  have hfits : (view done act junk).wpos + data.length ≤ (view done act junk).getBufferSize := by
    rw [getBufferSize_view]
    exact Nat.add_le_add_left h _
  have hlen : done.length + act.length = (done ++ act).length := List.length_append.symm
  rw [write, if_pos hfits]
  simp only [view, Option.some.injEq, MessageBuffer.mk.injEq, true_and]
  constructor
  · simp only [List.length_append]
    omega
  · rw [hlen, List.take_left, List.drop_append, List.drop_eq_nil_of_le (by omega)]
    simp

theorem resize_filled (n : Nat) : (filled [] junk).resize n = filled [] (junk.takeD n 0) := rfl

/-- A buffer that has been read to its end gives all of its vector back. -/
theorem normalize_view : (view done [] junk).normalize = filled [] (done ++ junk) := by
  have hpos : (view done [] junk).wpos = (view done [] junk).rpos := rfl
  by_cases h : (view done [] junk).rpos = 0
  · have hnil : done = [] := List.length_eq_zero_iff.mp h
    subst hnil
    exact if_pos h
  · rw [normalize, if_neg h, hpos, if_neg (not_not.mpr rfl), Nat.sub_self]
    simp [view]

/-- `EnsureFreeSpace` changes only a buffer of size zero, and not its size. -/
theorem ensureFreeSpace_filled : (filled [] junk).ensureFreeSpace = filled [] junk := by
  unfold ensureFreeSpace
  split_ifs with h
  · rw [getRemainingSpace_view] at h
    have : junk = [] := List.length_eq_zero_iff.mp h
    subst this
    rfl
  · rfl

end MessageBuffer

end RZEmulator.Shared
