import RZEmulator.Lib.LittleEndian

/-!
# Packet declarations

The three functions that the macros of `PacketDeclaration.h` generate from one list of fields, with the functions
of `MessageSerializerBuffer` and `ByteBuffer` that they call: `getSize`, `serialize` and `deserialize`. A
declaration is a value of `Ty`, a primitive type or the lines of a struct; a `(def)` line generates no code, and
what it says of the field (the declared length of an array) stands with the lines that do.

An object gives each field a value by its number, `ref##_size` and the markers are the `Locals` of a function, and
a condition is one on the version. What reads beyond the end of a vector or of the buffer has no result. A
`float` or an enum is the integer with its bytes. Sizes are natural numbers: a packet is limited to 16k bytes, says
`getClampedCount`.
-/

namespace RZEmulator.Shared.Packet

open Lib

/-! ## Types and values -/

/-- A fundamental type or an enum. -/
structure Prim where
  size : Nat
  signed : Bool
  deriving DecidableEq

namespace Prim

/-- The bytes of `(type) n`. -/
def write (p : Prim) (n : Int) : List UInt8 := toLE p.size n

def read (p : Prim) (b : List UInt8) : Int := if p.signed then ofSignedLE b else ofLE b

/-- `std::numeric_limits<T>::max()`. -/
def max (p : Prim) : Nat := if p.signed then 256 ^ p.size / 2 - 1 else 256 ^ p.size - 1

/-- `getClampedCount`. -/
def getClampedCount (p : Prim) (realSize : Nat) : Nat := if realSize < p.max then realSize else p.max

end Prim

inductive Val
  | int (n : Int)
  | str (s : List UInt8)
  | arr (l : List Val)
  | obj (f : Nat → Val)

namespace Val

def toInt : Val → Int
  | int n => n
  | _ => 0

def toStr : Val → List UInt8
  | str s => s
  | _ => []

def toArr : Val → List Val
  | arr l => l
  | _ => []

/-- A field of an object. -/
def get : Val → Nat → Val
  | obj f => f
  | _ => fun _ => int 0

def set (x : Val) (name : Nat) (w : Val) : Val := obj fun a => if a = name then w else x.get a

/-- `size()` of a vector or a string. -/
def size : Val → Nat
  | str s => s.length
  | arr l => l.length
  | _ => 0

end Val

/-- The metatypes of a field with a type. The declared length of an array is that of its `(def)` line. -/
inductive TypedField
  | simple (defaultval : Option Val)
  | array (size declSize : Nat) (defaultval : Option (List Int))
  | dynarray (defaultval : Option (List Val))
  | endarray (defaultval : Option (List Val))

/-- The other metatypes. -/
inductive PlainField
  | count (type : Prim) (addNullTerminator : Bool) (defaultval : Option Nat)
  | string (size : Nat) (defaultval : Option (List UInt8))
  | dynstring (hasNullTerminator : Bool) (defaultval : Option (List UInt8))
  | padmarker
  | pad (size : Nat)
  | endstring (hasNullTerminator : Bool) (defaultval : Option (List UInt8))

/-- A primitive type, or the lines of a struct, each with the name of its field (or of what it refers to) and its
condition on the version. -/
inductive Ty
  | prim (p : Prim)
  | done
  | typed (f : TypedField) (type : Ty) (name : Nat) (cond : Int → Bool) (rest : Ty)
  | plain (f : PlainField) (name : Nat) (cond : Int → Bool) (rest : Ty)

/-- `ref##_size` and the markers. -/
structure Locals where
  size : Nat → Nat := fun _ => 0
  marker : Nat → Nat := fun _ => 0

def Locals.setSize (L : Locals) (name n : Nat) : Locals :=
  { L with size := fun a => if a = name then n else L.size a }

def Locals.setMarker (L : Locals) (name n : Nat) : Locals :=
  { L with marker := fun a => if a = name then n else L.marker a }

/-- The first elements of a vector, none of which may be missing. -/
def firstN (n : Nat) (l : List Val) : Option (List Val) := if n ≤ l.length then some (l.take n) else none

/-- What a `count` line does to `ref##_size` when its value is not on the wire. -/
def Locals.defaultSize (L : Locals) (name : Nat) : Option Nat → Locals
  | none => L
  | some n => L.setSize name n

/-! ## `SIZE_F` -/

def sizes (getSize : Val → Option Nat) : List Val → Option Nat
  | [] => some 0
  | x :: l => (getSize x).bind fun n => (sizes getSize l).map (n + ·)

def TypedField.size (f : TypedField) (getSize : Val → Option Nat) (name : Nat) (cond : Bool) (x : Val)
    (L : Locals) : Option Nat :=
  if cond then
    match f with
    | simple _ => getSize (x.get name)
    | array size _ _ => (firstN size (x.get name).toArr).bind (sizes getSize)
    | dynarray _ => (firstN (L.size name) (x.get name).toArr).bind (sizes getSize)
    | endarray _ => sizes getSize (x.get name).toArr
  else some 0

def PlainField.size (f : PlainField) (name : Nat) (cond : Bool) (x : Val) (L : Locals) (size : Nat) :
    Nat × Locals :=
  match f with
  | count type addNull defaultval =>
    if cond then (size + type.size, L.setSize name (type.getClampedCount ((x.get name).size + addNull.toNat)))
    else (size, L.defaultSize name defaultval)
  | string n _ => (if cond then size + n else size, L)
  | dynstring _ _ => (if cond then size + L.size name else size, L)
  | padmarker => (size, L.setMarker name size)
  | pad n => (if cond ∧ size < L.marker name + n then L.marker name + n else size, L)
  | endstring _ _ => (if cond then size + (x.get name).toStr.length else size, L)

/-- `getSize`, from a size reached so far. -/
def Ty.getSize (v : Int) : Ty → Val → Locals → Nat → Option Nat
  | prim p, _, _, size => some (size + p.size)
  | done, _, _, size => some size
  | typed f type name cond rest, x, L, size =>
    (f.size (fun e => type.getSize v e {} 0) name (cond v) x L).bind fun n => rest.getSize v x L (size + n)
  | plain f name cond rest, x, L, size =>
    rest.getSize v x (f.size name (cond v) x L size).2 (f.size name (cond v) x L size).1

/-! ## `SERIALIZATION_F` -/

/-- Elements one after another, from a position in the buffer. -/
def writes (write : Val → Nat → Option (List UInt8)) : List Val → Nat → Option (List UInt8)
  | [], _ => some []
  | x :: l, pos => (write x pos).bind fun b => (writes write l (pos + b.length)).map (b ++ ·)

/-- `writeString`: one byte is kept for the terminator. -/
def writeString (s : List UInt8) (maxSize : Nat) : List UInt8 :=
  let s := if maxSize = 0 then s else s.take (maxSize - 1)
  s ++ List.replicate (maxSize - s.length) 0

/-- `writeDynString`: the bytes of `c_str()`, which ends with a terminator. -/
def writeDynString (s : List UInt8) (count : Nat) : Option (List UInt8) :=
  if count ≤ s.length + 1 then some ((s ++ [0]).take count) else none

def TypedField.serialize (f : TypedField) (write : Val → Nat → Option (List UInt8)) (name : Nat) (cond : Bool)
    (x : Val) (L : Locals) (pos : Nat) : Option (List UInt8) :=
  if cond then
    match f with
    | simple _ => write (x.get name) pos
    | array size _ _ => (firstN size (x.get name).toArr).bind fun l => writes write l pos
    | dynarray _ => (firstN (L.size name) (x.get name).toArr).bind fun l => writes write l pos
    | endarray _ => writes write (x.get name).toArr pos
  else some []

def PlainField.serialize (f : PlainField) (name : Nat) (cond : Bool) (x : Val) (L : Locals) (pos : Nat) :
    Option (List UInt8 × Locals) :=
  match f with
  | count type addNull defaultval =>
    if cond then
      some (type.write (type.getClampedCount ((x.get name).size + addNull.toNat)),
        L.setSize name (type.getClampedCount ((x.get name).size + addNull.toNat)))
    else some ([], L.defaultSize name defaultval)
  | string n _ => some (if cond then writeString (x.get name).toStr n else [], L)
  | dynstring _ _ => if cond then (writeDynString (x.get name).toStr (L.size name)).map (·, L) else some ([], L)
  | padmarker => some ([], L.setMarker name pos)
  | pad n => some (if cond ∧ pos < L.marker name + n then List.replicate (L.marker name + n - pos) 0 else [], L)
  | endstring _ _ => some (if cond then (x.get name).toStr else [], L)

/-- `serialize`: what it appends at a position in the buffer. -/
def Ty.serialize (v : Int) : Ty → Val → Locals → Nat → Option (List UInt8)
  | prim p, x, _, _ => some (p.write x.toInt)
  | done, _, _, _ => some []
  | typed f type name cond rest, x, L, pos =>
    (f.serialize (fun e => type.serialize v e {}) name (cond v) x L pos).bind fun b =>
      (rest.serialize v x L (pos + b.length)).map (b ++ ·)
  | plain f name cond rest, x, L, pos =>
    (f.serialize name (cond v) x L pos).bind fun (b, L) =>
      (rest.serialize v x L (pos + b.length)).map (b ++ ·)

/-! ## `DESERIALIZATION_F` -/

/-- The buffer that is read: the position, and what is left. -/
structure Reader where
  rpos : Nat
  rest : List UInt8

/-- `read` and `read_skip`: beyond the end of the buffer they throw. -/
def Reader.take (r : Reader) (n : Nat) : Option (List UInt8 × Reader) :=
  if n ≤ r.rest.length then some (r.rest.take n, ⟨r.rpos + n, r.rest.drop n⟩) else none

/-- Each element is read into the object that is there. -/
def reads (read : Val → Reader → Option (Val × Reader)) : List Val → Reader → Option (List Val × Reader)
  | [], r => some ([], r)
  | e :: l, r => (read e r).bind fun (y, r) => (reads read l r).map fun (ys, r) => (y :: ys, r)

/-- The loop of `readEndArray`, with a bound on its rounds: the new elements. -/
def readEndArray (read : Val → Reader → Option (Val × Reader)) (new : Val) :
    Nat → Reader → Option (List Val × Reader)
  | 0, r => some ([], r)
  | n + 1, r =>
    if r.rest = [] then some ([], r)
    else (read new r).bind fun (y, r') =>
      if r'.rpos = r.rpos then some ([y], r')
      else (readEndArray read new n r').map fun (ys, r) => (y :: ys, r)

/-- `vector::resize`. -/
def resize (l : List Val) (n : Nat) (new : Val) : List Val := l.take n ++ List.replicate (n - l.length) new

/-- The numbers in a block of memory. -/
def Prim.readAll (p : Prim) : Nat → List UInt8 → List Val
  | 0, _ => []
  | n + 1, b => .int (p.read (b.take p.size)) :: p.readAll n (b.drop p.size)

/-- `copyDefaultValue` of a fixed array: `memcpy` of as many bytes as it has elements. -/
def copyDefaultValue (p : Prim) (size : Nat) (old : List Val) (defaultval : List Int) : List Val :=
  p.readAll old.length ((defaultval.flatMap p.write).take size ++
    (old.flatMap fun e => p.write e.toInt).drop size)

/-- `static const type defaultArray[size] = defaultval`. -/
def defaultArray (size : Nat) (defaultval : List Int) : List Int :=
  defaultval ++ List.replicate (size - defaultval.length) 0

def TypedField.deserialize (f : TypedField) (read : Val → Reader → Option (Val × Reader)) (new : Val)
    (prim : Option Prim) (name : Nat) (cond : Bool) (y : Val) (r : Reader) (L : Locals) : Option (Val × Reader) :=
  if cond then
    match f with
    | simple _ => (read (y.get name) r).map fun (e, r) => (y.set name e, r)
    | array size _ _ => (firstN size (y.get name).toArr).bind fun l =>
        (reads read l r).map fun (l, r) => (y.set name (.arr (l ++ (y.get name).toArr.drop size)), r)
    | dynarray _ => (reads read (resize (y.get name).toArr (L.size name) new) r).map fun (l, r) =>
        (y.set name (.arr l), r)
    | endarray _ => (readEndArray read new r.rest.length r).map fun (l, r) =>
        (y.set name (.arr ((y.get name).toArr ++ l)), r)
  else
    match f with
    | simple (some d) => some (y.set name d, r)
    | array size _ (some d) => prim.map fun p =>
        (y.set name (.arr (copyDefaultValue p size (y.get name).toArr (defaultArray size d))), r)
    -- the vector is passed by value
    | dynarray (some _) | endarray (some _) => some (y, r)
    | _ => some (y, r)

/-- A string field is set to its default, if it has one. -/
def Val.setDefault (y : Val) (name : Nat) : Option (List UInt8) → Val
  | none => y
  | some d => y.set name (.str d)

/-- `readDynString` and `readEndString`: the terminator is skipped, not read. -/
def readTerminated (r : Reader) (sizeToRead : Nat) (hasNullTerminator : Bool) : Option (List UInt8 × Reader) :=
  if sizeToRead = 0 then some ([], r)
  else (r.take (sizeToRead - hasNullTerminator.toNat)).bind fun (s, r) =>
    (r.take hasNullTerminator.toNat).map fun (_, r) => (s, r)

def PlainField.deserialize (f : PlainField) (name : Nat) (cond : Bool) (y : Val) (r : Reader) (L : Locals) :
    Option (Val × Reader × Locals) :=
  match f with
  | count type _ defaultval =>
    if cond then (r.take type.size).map fun (b, r) => (y, r, L.setSize name (type.read b % 2 ^ 32).toNat)
    else some (y, r, L.defaultSize name defaultval)
  | string n defaultval =>
    if cond then (r.take n).map fun (b, r) => (y.set name (.str (b.takeWhile (· ≠ 0))), r, L)
    else some (y.setDefault name defaultval, r, L)
  | dynstring null defaultval =>
    if cond then (readTerminated r (L.size name) null).map fun (s, r) => (y.set name (.str s), r, L)
    else some (y.setDefault name defaultval, r, L)
  | padmarker => some (y, r, L.setMarker name r.rpos)
  | pad n =>
    if cond ∧ r.rpos < L.marker name + n then (r.take (L.marker name + n - r.rpos)).map fun (_, r) => (y, r, L)
    else some (y, r, L)
  | endstring null defaultval =>
    if cond then (readTerminated r r.rest.length null).map fun (s, r) => (y.set name (.str s), r, L)
    else some (y.setDefault name defaultval, r, L)

/-- A newly constructed object. -/
def Ty.new : Ty → Val
  | prim _ => .int 0
  | done => .obj fun _ => .int 0
  | typed (.simple _) type name _ rest => rest.new.set name type.new
  | typed (.array _ declSize _) type name _ rest => rest.new.set name (.arr (List.replicate declSize type.new))
  | typed (.dynarray _) _ name _ rest | typed (.endarray _) _ name _ rest => rest.new.set name (.arr [])
  | plain (.string _ _) name _ rest | plain (.dynstring _ _) name _ rest | plain (.endstring _ _) name _ rest =>
    rest.new.set name (.str [])
  | plain (.count _ _ _) _ _ rest | plain .padmarker _ _ rest | plain (.pad _) _ _ rest => rest.new

def Ty.toPrim : Ty → Option Prim
  | prim p => some p
  | _ => none

/-- `deserialize` into an object. -/
def Ty.deserialize (v : Int) : Ty → Val → Reader → Locals → Option (Val × Reader)
  | prim p, _, r, _ => (r.take p.size).map fun (b, r) => (.int (p.read b), r)
  | done, y, r, _ => some (y, r)
  | typed f type name cond rest, y, r, L =>
    (f.deserialize (fun e r => type.deserialize v e r {}) type.new type.toPrim name (cond v) y r L).bind
      fun (y, r) => rest.deserialize v y r L
  | plain f name cond rest, y, r, L =>
    (f.deserialize name (cond v) y r L).bind fun (y, r, L) => rest.deserialize v y r L

/-! ## `CREATE_STRUCT` and `CREATE_PACKET` -/

/-- A struct, or a packet with its id in each version. -/
structure Declaration where
  getId : Option (Int → Nat) := none
  lines : Ty

namespace Declaration

/-- `writeHeader`: after `Reset` only the id is there. -/
def header (d : Declaration) (v : Int) : List UInt8 :=
  match d.getId with
  | none => []
  | some id => [0, 0, 0, 0] ++ toLE 2 (id v) ++ [0]

def sizeBase (d : Declaration) : Nat := if d.getId.isSome then 7 else 0

def getSize (d : Declaration) (v : Int) (x : Val) : Option Nat := d.lines.getSize v x {} d.sizeBase

def serialize (d : Declaration) (v : Int) (x : Val) : Option (List UInt8) :=
  (d.lines.serialize v x {} (d.header v).length).map (d.header v ++ ·)

/-- The header has been taken off by the session. -/
def deserialize (d : Declaration) (v : Int) (y : Val) (bytes : List UInt8) : Option Val :=
  (d.lines.deserialize v y ⟨0, bytes.drop d.sizeBase⟩ {}).map Prod.fst

end Declaration

end RZEmulator.Shared.Packet
