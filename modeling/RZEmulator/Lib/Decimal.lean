import Mathlib.Algebra.Ring.Nat
import Mathlib.Data.List.TakeWhile
import RZEmulator.Lib.MachineInt

/-!
# Numbers as text

How the standard library writes an integer and reads numbers back. `intPrefix` is the number that a text starts
with, as `strtol` finds it; `stoi` has no result where it throws, because there is no number or because it does
not fit into 32 bits. `readsDouble` says that the extraction of a floating-point number consumes a text and
does not fail. What `intText` writes is read back by all three (`intPrefix_intText`, `readsDouble_intText`).
-/

namespace RZEmulator.Lib

/-! ## Writing and reading -/

def intText (n : Int) : List Char :=
  if n < 0 then '-' :: Nat.toDigits 10 n.natAbs else Nat.toDigits 10 n.natAbs

def isSpace (c : Char) : Bool := c == ' ' || (9 ≤ c.toNat && c.toNat ≤ 13)

/-- The text behind its sign, and whether that is a minus. -/
def splitSign (s : List Char) : Bool × List Char :=
  match s with
  | [] => (false, [])
  | c :: cs => if c = '-' then (true, cs) else if c = '+' then (false, cs) else (false, c :: cs)

def digits (s : List Char) : List Char := s.takeWhile Char.isDigit

def afterDigits (s : List Char) : List Char := s.dropWhile Char.isDigit

def signedValue (negative : Bool) (ds : List Char) : Int :=
  if negative then -(Nat.ofDigitChars 10 ds 0 : Int) else Nat.ofDigitChars 10 ds 0

/-- The number that the text starts with, behind white space. -/
def intPrefix (s : List Char) : Option Int :=
  let (negative, s) := splitSign (s.dropWhile isSpace)
  if digits s = [] then none else some (signedValue negative (digits s))

/-- `std::stoi`. -/
def stoi (s : List Char) : Option Int := (intPrefix s).filter fun n => IsInt32 n

/-- The exponent of a floating-point number, 0 if there is none. -/
def exponent (s : List Char) : Option Int :=
  match s with
  | [] => some 0
  | c :: s =>
    let (negative, s) := splitSign s
    if (c = 'e' ∨ c = 'E') ∧ digits s ≠ [] ∧ afterDigits s = [] then some (signedValue negative (digits s)) else none

/-- `m * 10 ^ e` is rounded to infinity. -/
def overflowsDouble (m : Nat) (e : Int) : Bool :=
  if 0 ≤ e then 2 ^ 1024 - 2 ^ 970 ≤ m * 10 ^ e.toNat else (2 ^ 1024 - 2 ^ 970) * 10 ^ (-e).toNat ≤ m

/-- The digits behind a decimal point, and what is left. -/
def fraction (s : List Char) : List Char × List Char :=
  match s with
  | [] => ([], [])
  | c :: cs => if c = '.' then (digits cs, afterDigits cs) else ([], c :: cs)

/-- `iss >> f` for a `double` consumes the text without white space and does not fail. -/
def readsDouble (s : List Char) : Bool :=
  let (_, s) := splitSign s
  let (frac, rest) := fraction (afterDigits s)
  if digits s = [] ∧ frac = [] then false
  else
    match exponent rest with
    | none => false
    | some e => !overflowsDouble (Nat.ofDigitChars 10 (digits s ++ frac) 0) (e - frac.length)

/-! ## Round trip -/

variable {n : Int}

theorem digits_eq_self {s : List Char} (h : ∀ c ∈ s, c.isDigit = true) : digits s = s ∧ afterDigits s = [] :=
  ⟨List.takeWhile_eq_self_iff.mpr h, List.dropWhile_eq_nil_iff.mpr h⟩

theorem digits_toDigits (m : Nat) :
    digits (Nat.toDigits 10 m) = Nat.toDigits 10 m ∧ afterDigits (Nat.toDigits 10 m) = [] :=
  digits_eq_self fun _ hc => Nat.isDigit_of_mem_toDigits (by decide) (by decide) hc

/-- The first digit of a number is no sign and no white space. -/
theorem exists_toDigits_cons (m : Nat) :
    ∃ c cs, Nat.toDigits 10 m = c :: cs ∧ c ≠ '-' ∧ c ≠ '+' ∧ isSpace c = false := by
  obtain ⟨c, cs, hcons⟩ := List.exists_cons_of_ne_nil (Nat.toDigits_ne_nil (n := m) (b := 10))
  have hdigit : c.isDigit = true :=
    Nat.isDigit_of_mem_toDigits (by decide) (by decide) (hcons ▸ List.mem_cons_self)
  refine ⟨c, cs, hcons, ?_, ?_, ?_⟩
  · rintro rfl
    exact absurd hdigit (by decide)
  · rintro rfl
    exact absurd hdigit (by decide)
  · have hlow := (Char.isDigit_iff_toNat.mp hdigit).1
    have hne : c ≠ ' ' := by
      rintro rfl
      exact absurd hdigit (by decide)
    have hzero : '0'.toNat = 48 := rfl
    have hle : ¬c.toNat ≤ 13 := by omega
    simp [isSpace, hne, hle]

theorem splitSign_intText (n : Int) : splitSign (intText n) = (decide (n < 0), Nat.toDigits 10 n.natAbs) := by
  obtain ⟨c, cs, hcons, hminus, hplus, -⟩ := exists_toDigits_cons n.natAbs
  unfold intText
  split_ifs with hneg
  · simp [splitSign, hneg]
  · rw [hcons, splitSign, if_neg hminus, if_neg hplus, decide_eq_false hneg]

theorem dropWhile_isSpace_intText (n : Int) : (intText n).dropWhile isSpace = intText n := by
  obtain ⟨c, cs, hcons, -, -, hspace⟩ := exists_toDigits_cons n.natAbs
  unfold intText
  split_ifs with hneg
  · rfl
  · rw [hcons, List.dropWhile_cons, hspace]
    rfl

theorem signedValue_natAbs (n : Int) : signedValue (decide (n < 0)) (Nat.toDigits 10 n.natAbs) = n := by
  unfold signedValue
  rw [Nat.ofDigitChars_ten_toDigits]
  simp only [decide_eq_true_eq]
  split_ifs with hneg <;> omega

theorem intPrefix_intText (n : Int) : intPrefix (intText n) = some n := by
  unfold intPrefix
  rw [dropWhile_isSpace_intText, splitSign_intText]
  dsimp only
  rw [(digits_toDigits _).1, if_neg Nat.toDigits_ne_nil, signedValue_natAbs]

theorem stoi_intText (h : IsInt32 n) : stoi (intText n) = some n := by
  unfold stoi
  rw [intPrefix_intText, Option.filter_some, if_pos (decide_eq_true h)]

theorem readsDouble_intText (h : n.natAbs ≤ 2 ^ 32) : readsDouble (intText n) = true := by
  unfold readsDouble
  rw [splitSign_intText]
  dsimp only
  rw [(digits_toDigits _).2, (digits_toDigits _).1]
  have hsmall : overflowsDouble n.natAbs 0 = false := by
    unfold overflowsDouble
    rw [if_pos (Int.le_refl 0)]
    refine decide_eq_false ?_
    have hbig : 2 ^ 32 < 2 ^ 1024 - 2 ^ 970 := by decide +kernel
    rw [show Int.toNat 0 = 0 from rfl, Nat.pow_zero, Nat.mul_one]
    omega
  simp only [fraction, exponent, List.append_nil, Nat.ofDigitChars_ten_toDigits, List.length_nil, Int.ofNat_zero,
    Int.sub_zero, hsmall]
  rw [if_neg fun hnil => Nat.toDigits_ne_nil hnil.1]
  rfl

end RZEmulator.Lib
