import Mathlib.Logic.Function.Iterate
import Mathlib.Tactic.Common

/-!
# Machines that turn each symbol they read into one symbol

A stream cipher, and any other codec that works one symbol at a time, is a Mealy machine. Reading a
word in two pieces gives the same symbols and ends in the same state as reading it whole
(`after_append`, `out_append`), so where a stream is cut makes no difference to what it decodes to.

The state of a `keystream` goes on by itself. Its state after a word depends on the length of the word only
(`after_congr`), so a receiver that starts where the sender started is always in the state of the sender, and decodes
what the sender has encoded (`out_out`).
-/

namespace RZEmulator.Lib

structure Mealy (σ α β : Type*) where
  step : σ → α → σ × β

namespace Mealy

variable {σ α β : Type*} (M : Mealy σ α β)

/-- The state after a word. -/
def after : σ → List α → σ
  | s, [] => s
  | s, a :: as => after (M.step s a).1 as

/-- The symbols written for a word. -/
def out : σ → List α → List β
  | _, [] => []
  | s, a :: as => (M.step s a).2 :: out (M.step s a).1 as

@[simp] theorem after_nil (s : σ) : M.after s [] = s := rfl

@[simp] theorem out_nil (s : σ) : M.out s [] = [] := rfl

theorem after_append (s : σ) (as bs : List α) :
    M.after s (as ++ bs) = M.after (M.after s as) bs := by
  induction as generalizing s with
  | nil => rfl
  | cons a as ih => exact ih _

theorem out_append (s : σ) (as bs : List α) :
    M.out s (as ++ bs) = M.out s as ++ M.out (M.after s as) bs := by
  induction as generalizing s with
  | nil => rfl
  | cons a as ih =>
    show _ :: M.out _ (as ++ bs) = _ :: (M.out _ as ++ _)
    rw [ih]
    rfl

@[simp] theorem length_out (s : σ) (as : List α) : (M.out s as).length = as.length := by
  induction as generalizing s with
  | nil => rfl
  | cons a as ih => exact congrArg (· + 1) (ih _)

/-- The machine that copies its input. -/
def copy (σ α : Type*) : Mealy σ α α where
  step s a := (s, a)

@[simp] theorem after_copy (s : σ) (as : List α) : (copy σ α).after s as = s := by
  induction as with
  | nil => rfl
  | cons a as ih => exact ih

@[simp] theorem out_copy (s : σ) (as : List α) : (copy σ α).out s as = as := by
  induction as with
  | nil => rfl
  | cons a as ih => exact congrArg (a :: ·) ih

end Mealy

/-! ## Key streams -/

/-- The machine that goes on by `next` and mixes `key` into each symbol. -/
def keystream {σ α : Type*} (next : σ → σ) (key : σ → α) (mix : α → α → α) : Mealy σ α α where
  step s a := (next s, mix a (key s))

namespace Mealy

variable {σ α : Type*} {next : σ → σ} {key : σ → α} {mix : α → α → α}

theorem after_keystream (s : σ) (as : List α) : (keystream next key mix).after s as = next^[as.length] s := by
  induction as generalizing s with
  | nil => rfl
  | cons a as ih => exact ih (next s)

theorem after_congr (s : σ) {as bs : List α} (h : as.length = bs.length) :
    (keystream next key mix).after s as = (keystream next key mix).after s bs := by
  rw [after_keystream, after_keystream, h]

/-- The state after a word is that after its encoding. -/
theorem after_out (s : σ) (as : List α) :
    (keystream next key mix).after s ((keystream next key mix).out s as) = (keystream next key mix).after s as :=
  after_congr s (length_out ..)

/-- **What has been encoded is decoded from the same state.** -/
theorem out_out (hmix : ∀ a k, mix (mix a k) k = a) (s : σ) (as : List α) :
    (keystream next key mix).out s ((keystream next key mix).out s as) = as := by
  induction as generalizing s with
  | nil => rfl
  | cons a as ih =>
    show mix (mix a (key s)) (key s) ::
      (keystream next key mix).out (next s) ((keystream next key mix).out (next s) as) = a :: as
    rw [hmix, ih]

end Mealy

end RZEmulator.Lib
