import Mathlib.Data.List.Basic
import Mathlib.Tactic.Common

/-!
# Splitting a text at a separator

The constructor of `Tokenizer`, which cuts the copy of a string at every separator and ends at its first zero byte. An empty
rest behind the last separator is no token; an empty text between two separators is one.
-/

namespace RZEmulator.Shared

/-- The last token, which nothing separates from the end. -/
def lastToken (s : List UInt8) : List (List UInt8) := if s = [] then [] else [s]

/-- The loop of the constructor, with the bytes from `posold` to `posnew`. -/
def tokenLoop (sep : UInt8) (token : List UInt8) : List UInt8 → List (List UInt8)
  | [] => lastToken token
  | c :: s =>
    if c = sep then token :: tokenLoop sep [] s
    else if c = 0 then lastToken token
    else tokenLoop sep (token ++ [c]) s

/-- `Tokenizer` -/
def tokenizer (src : List UInt8) (sep : UInt8) : List (List UInt8) := tokenLoop sep [] src

/-- What a C string keeps of the bytes. -/
def cString (s : List UInt8) : List UInt8 := s.takeWhile fun c => c ≠ 0

variable {sep : UInt8} {s : List UInt8}

/-- A text without separators and zero bytes is read up to the separator behind it. -/
theorem tokenLoop_append (hsep : sep ∉ s) (hzero : 0 ∉ s) (token rest : List UInt8) :
    tokenLoop sep token (s ++ sep :: rest) = (token ++ s) :: tokenLoop sep [] rest := by
  induction s generalizing token with
  | nil => rw [List.nil_append, List.append_nil, tokenLoop, if_pos rfl]
  | cons c s ih =>
    rw [List.mem_cons, not_or] at hsep hzero
    rw [List.cons_append, tokenLoop, if_neg (Ne.symm hsep.1), if_neg (Ne.symm hzero.1), ih hsep.2 hzero.2, List.append_assoc]
    rfl

/-- A text with a zero byte is the last that is read. -/
theorem tokenLoop_of_zero (hsep : sep ∉ s) (hzero : 0 ∈ s) (token rest : List UInt8) :
    tokenLoop sep token (s ++ rest) = lastToken (token ++ cString s) := by
  induction s generalizing token with
  | nil => cases hzero
  | cons c s ih =>
    rw [List.mem_cons, not_or] at hsep
    rw [List.cons_append, tokenLoop, if_neg (Ne.symm hsep.1)]
    unfold cString
    by_cases hc : c = 0
    · rw [if_pos hc, List.takeWhile_cons_of_neg (by simpa using hc), List.append_nil]
    · have hmem : 0 ∈ s := (List.mem_cons.mp hzero).resolve_left (Ne.symm hc)
      rw [if_neg hc, List.takeWhile_cons_of_pos (by simpa using hc), ih hsep.2 hmem, List.append_assoc]
      rfl

end RZEmulator.Shared
