import RZEmulator.Shared.PacketDeclaration
import Mathlib.Logic.Function.Basic

/-!
# What a packet should carry

The predicates on a declaration, a value and a target object that speak about one version of the protocol:

* `WF`: the rules of the field reference (an end string and an end array stand last, a pad names a marker that is
  there, no field has two lines of one version);
* `Fits`: the counts and the string lengths of a value fit what carries them;
* `Fresh`: the target object is newly constructed, so its vectors are empty and its arrays have their length;
* `Same`: the fields of the version carry the value, those it lacks have their defaults;
* `Clean`: nothing stands in a value that the three functions do not carry alike.

Each is defined for one line first, from what holds of the type of the line, and then by recursion on the lines.
-/

namespace RZEmulator.Shared.Packet

open Lib

/-- A value of the type. -/
def Prim.InRange (p : Prim) (n : Int) : Prop :=
  if p.signed then -256 ^ p.size ≤ 2 * n ∧ 2 * n < 256 ^ p.size else 0 ≤ n ∧ n < 256 ^ p.size

instance (p : Prim) (n : Int) : Decidable (p.InRange n) := by
  unfold Prim.InRange
  infer_instance

variable (v : Int)

/-! ## The fields that a version sets -/

def TypedField.hasDefault : TypedField → Bool
  | simple d => d.isSome
  | array _ _ d => d.isSome
  | dynarray d | endarray d => d.isSome

/-- The line sets its field: from the buffer, or to the default. -/
def TypedField.sets (f : TypedField) (cond : Bool) : Bool := cond || f.hasDefault

def PlainField.sets (f : PlainField) (cond : Bool) : Bool :=
  match f with
  | string _ d | dynstring _ d | endstring _ d => cond || d.isSome
  | count _ _ _ | padmarker | pad _ => false

def Ty.names : Ty → List Nat
  | prim _ | done => []
  | typed f _ name cond rest => if f.sets (cond v) then name :: rest.names else rest.names
  | plain f name cond rest => if f.sets (cond v) then name :: rest.names else rest.names

/-! ## Lines that read to the end -/

def TypedField.opens (f : TypedField) (type : Bool) : Bool :=
  match f with
  | simple _ => type
  | endarray _ => true
  | array _ _ _ | dynarray _ => false

def PlainField.opens : PlainField → Bool
  | endstring _ _ => true
  | _ => false

def Ty.opens : Ty → Bool
  | prim _ | done => false
  | typed f type _ cond rest => (cond v && f.opens type.opens) || rest.opens
  | plain f _ cond rest => (cond v && f.opens) || rest.opens

/-- No line has bytes in the version. -/
def Ty.silent : Ty → Bool
  | prim _ => false
  | done => true
  | typed _ _ _ cond rest => !cond v && rest.silent
  | plain .padmarker _ _ rest => rest.silent
  | plain _ _ cond rest => !cond v && rest.silent

/-! ## Types whose values have bytes -/

def TypedField.occupies (f : TypedField) (type : Bool) (count : Nat) : Bool :=
  match f with
  | simple _ => type
  | array size _ _ => decide (0 < size) && type
  | dynarray _ => decide (0 < count) && type
  | endarray _ => false

def PlainField.occupies (f : PlainField) (size : Nat) : Bool :=
  match f with
  | count _ _ _ => true
  | string n _ => decide (0 < n)
  | dynstring _ _ => decide (0 < size)
  | pad n => decide (0 < n)
  | padmarker | endstring _ _ => false

/-- `ref##_size` after a line whose count is not on the wire. -/
def PlainField.defaultCounts (f : PlainField) (name : Nat) (n : Nat → Nat) : Nat → Nat :=
  match f with
  | count _ _ (some d) => Function.update n name d
  | _ => n

/-- The values of the type have bytes in the version, from the `ref##_size` of the lines before. -/
def Ty.occupies : Ty → (Nat → Nat) → Bool
  | prim p, _ => decide (0 < p.size)
  | done, _ => false
  | typed f type name cond rest, n =>
    (cond v && f.occupies (type.occupies fun _ => 0) (n name)) || rest.occupies n
  | plain f name cond rest, n =>
    (cond v && f.occupies (n name)) || rest.occupies (f.defaultCounts name n)

/-! ## Values whose counts and lengths fit -/

def TypedField.Fits (f : TypedField) (fits : Val → Prop) (x : Val) (count : Nat) : Prop :=
  match f with
  | simple _ => fits x
  | array size _ _ => size ≤ x.toArr.length ∧ ∀ e ∈ x.toArr.take size, fits e
  | dynarray _ => x.toArr.length = count ∧ ∀ e ∈ x.toArr, fits e
  | endarray _ => ∀ e ∈ x.toArr, fits e

def PlainField.Fits (f : PlainField) (x : Val) (size : Nat) : Prop :=
  match f with
  | count type addNull _ => x.size + addNull.toNat ≤ type.max
  | string n _ => x.toStr.length < n
  | dynstring null _ => x.toStr.length + null.toNat = size ∨ (x.toStr = [] ∧ size = 0)
  | padmarker | pad _ | endstring _ _ => True

/-- `ref##_size` after a line. -/
def PlainField.counts (f : PlainField) (name : Nat) (cond : Bool) (x : Val) (n : Nat → Nat) : Nat → Nat :=
  match f, cond with
  | count _ addNull _, true => Function.update n name (x.size + addNull.toNat)
  | f, _ => f.defaultCounts name n

/-- The counts and the string lengths fit, with the `ref##_size` of the lines before. -/
def Ty.Fits : Ty → Val → (Nat → Nat) → Prop
  | prim _, _, _ | done, _, _ => True
  | typed f type name cond rest, x, n =>
    (cond v → f.Fits (fun e => type.Fits e fun _ => 0) (x.get name) (n name)) ∧ rest.Fits x n
  | plain f name cond rest, x, n =>
    (cond v → f.Fits (x.get name) (n name)) ∧ rest.Fits x (f.counts name (cond v) (x.get name) n)

/-! ## New objects -/

def TypedField.Fresh (f : TypedField) (fresh : Val → Prop) (y : Val) : Prop :=
  match f with
  | simple _ => fresh y
  | array _ declSize _ => y.toArr.length = declSize ∧ ∀ e ∈ y.toArr, fresh e
  | dynarray _ | endarray _ => y.toArr = []

/-- The fields that the version sets are as a constructor leaves them; a number may have any value. -/
def Ty.Fresh : Ty → Val → Prop
  | prim _, _ | done, _ => True
  | typed f type name cond rest, y => (f.sets (cond v) → f.Fresh type.Fresh (y.get name)) ∧ rest.Fresh y
  | plain _ _ _ rest, y => rest.Fresh y

/-! ## The value that arrives -/

def TypedField.Same (f : TypedField) (same : Val → Val → Prop) (cond : Bool) (x y : Val) : Prop :=
  match f, cond with
  | simple _, true => same x y
  | array size _ _, true => List.Forall₂ same (x.toArr.take size) (y.toArr.take size)
  | dynarray _, true | endarray _, true => List.Forall₂ same x.toArr y.toArr
  | simple (some d), false => y = d
  | array size _ (some d), false => y.toArr.take size = (defaultArray size d).map .int
  | dynarray (some d), false | endarray (some d), false => y.toArr = d
  | _, _ => True

def PlainField.Same (f : PlainField) (cond : Bool) (x y : Val) : Prop :=
  match f, cond with
  | string _ _, true | dynstring _ _, true | endstring _ _, true => y.toStr = x.toStr
  | string _ (some d), false | dynstring _ (some d), false | endstring _ (some d), false => y.toStr = d
  | _, _ => True

/-- The fields of the version are those of `x`, and the others that have a default have it. -/
def Ty.Same : Ty → Val → Val → Prop
  | prim _, x, y => y.toInt = x.toInt
  | done, _, _ => True
  | typed f type name cond rest, x, y => f.Same type.Same (cond v) (x.get name) (y.get name) ∧ rest.Same x y
  | plain f name cond rest, x, y => f.Same (cond v) (x.get name) (y.get name) ∧ rest.Same x y

/-! ## What arrives as it was -/

/-- The bytes of an array from byte `size` on, which `copyDefaultValue` leaves, are those of the default. -/
def LeftoverOk (p : Prim) (size : Nat) (old : List Val) (defaultval : List Int) : Prop :=
  ((old.take size).flatMap fun e => p.write e.toInt).drop size =
    ((defaultArray size defaultval).flatMap p.write).drop size

/-- `old` is the field of the target object, `new` an element that is newly constructed. -/
def TypedField.Clean (f : TypedField) (clean : Val → Val → Prop) (new : Val) (occupies : Bool)
    (prim : Option Prim) (cond : Bool) (x old : Val) : Prop :=
  match f, cond with
  | simple _, true => clean x old
  | array size _ _, true => List.Forall₂ clean (x.toArr.take size) (old.toArr.take size)
  | dynarray _, true => ∀ e ∈ x.toArr, clean e new
  | endarray _, true => (∀ e ∈ x.toArr, clean e new) ∧ (x.toArr = [] ∨ occupies)
  | array size _ (some d), false => ∀ p ∈ prim, LeftoverOk p size old.toArr d
  | dynarray (some d), false | endarray (some d), false => d = []
  | _, _ => True

def PlainField.Clean (f : PlainField) (cond : Bool) (x : Val) : Prop :=
  match f, cond with
  | string _ _, true => 0 ∉ x.toStr
  | endstring null _, true => null → x.toStr = []
  | _, _ => True

/-- Numbers are values of the type they are written as, fixed strings have no zero byte, an end string with a
terminator is empty, the elements of an end array have bytes, a default of a vector is the empty one, and one of an
array is there already from byte `size` on. -/
def Ty.Clean : Ty → Val → Val → Prop
  | prim p, x, _ => p.InRange x.toInt
  | done, _, _ => True
  | typed f type name cond rest, x, old =>
    f.Clean type.Clean type.new (type.occupies v fun _ => 0) type.toPrim (cond v) (x.get name) (old.get name) ∧
      rest.Clean x old
  | plain f name cond rest, x, old => f.Clean (cond v) (x.get name) ∧ rest.Clean x old

/-! ## Well-formed declarations -/

def Ty.isLines : Ty → Bool
  | prim _ => false
  | _ => true

def TypedField.WF (f : TypedField) (type : Ty) (cond : Bool) : Prop :=
  match f, cond with
  | array size declSize _, true => size ≤ declSize ∧ type.opens v = false
  | dynarray _, true | endarray _, true => type.opens v = false ∧ type.Fresh v type.new
  | array size declSize (some d), false =>
    size ≤ declSize ∧ d.length ≤ size ∧ ∃ p, type = .prim p ∧ ∀ n ∈ d, p.InRange n
  | _, _ => True

def PlainField.WF (f : PlainField) (name : Nat) (markers : List Nat) : Prop :=
  match f with
  | count type _ _ => 0 < type.size ∧ type.size ≤ 4
  | pad _ => name ∈ markers
  | _ => True

def PlainField.markers (f : PlainField) (name : Nat) (ms : List Nat) : List Nat :=
  match f with
  | padmarker => name :: ms
  | _ => ms

/-- The lines respect the field reference, after the markers of the lines before. -/
def Ty.WF : Ty → List Nat → Prop
  | prim _, _ | done, _ => True
  | typed f type name cond rest, ms =>
    (f.WF v type (cond v) ∧ (cond v → type.WF [])) ∧ (f.sets (cond v) → name ∉ rest.names v) ∧
      (cond v → f.opens (type.opens v) → rest.silent v) ∧ rest.isLines ∧ rest.WF ms
  | plain f name cond rest, ms =>
    f.WF name ms ∧ (f.sets (cond v) → name ∉ rest.names v) ∧ (cond v → f.opens → rest.silent v) ∧ rest.isLines ∧
      rest.WF (f.markers name ms)

end RZEmulator.Shared.Packet
