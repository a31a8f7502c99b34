import Mathlib.Tactic.Common

/-!
# Feistel networks

A round exchanges two halves and mixes a function of the one into the other. Whatever the functions are, a network is
undone by the network of the same functions in the opposite order (`network_reverse`). `network_map` carries a
network along a map of its halves.
-/

namespace RZEmulator.Lib.Feistel

variable {α β : Type*} (mix : α → α → α)

/-- One round, with the half that stays in front. -/
def round (F : α → α) (x : α × α) : α × α := (x.2, mix x.1 (F x.2))

def rounds (Fs : List (α → α)) (x : α × α) : α × α := Fs.foldl (fun x F => round mix F x) x

/-- The rounds, and the halves exchanged after the last one. -/
def network (Fs : List (α → α)) (x : α × α) : α × α := (rounds mix Fs x).swap

variable {mix}

/-- Seen with its halves exchanged, a round undoes itself. -/
theorem round_swap_round (hmix : ∀ a b, mix (mix a b) b = a) (F : α → α) (x : α × α) :
    round mix F (round mix F x).swap = x.swap := by
  obtain ⟨l, r⟩ := x
  show (r, mix (mix l (F r)) (F r)) = (r, l)
  rw [hmix]

theorem rounds_reverse (hmix : ∀ a b, mix (mix a b) b = a) (Fs : List (α → α)) (x : α × α) :
    rounds mix Fs.reverse (rounds mix Fs x).swap = x.swap := by
  induction Fs generalizing x with
  | nil => rfl
  | cons F Fs ih =>
    have hinner := ih (round mix F x)
    unfold rounds at hinner ⊢
    rw [List.foldl_cons, List.reverse_cons, List.foldl_append, hinner]
    exact round_swap_round hmix F x

/-- **The functions in the opposite order undo a network.** -/
theorem network_reverse (hmix : ∀ a b, mix (mix a b) b = a) (Fs : List (α → α)) (x : α × α) :
    network mix Fs.reverse (network mix Fs x) = x := by
  unfold network
  rw [rounds_reverse hmix, Prod.swap_swap]

/-- A map of the halves that respects the mixing and the functions respects the network. -/
theorem network_map {mix' : β → β → β} {h : α → β} (hmix : ∀ a b, h (mix a b) = mix' (h a) (h b))
    {Fs : List (α → α)} {Gs : List (β → β)}
    (hfun : List.Forall₂ (fun F G => ∀ a, h (F a) = G (h a)) Fs Gs) (x : α × α) :
    (network mix Fs x).map h h = network mix' Gs (x.map h h) := by
  have hrounds : ∀ x : α × α, (rounds mix Fs x).map h h = rounds mix' Gs (x.map h h) := by
    induction hfun with
    | nil =>
      intro x
      rfl
    | @cons F G Fs Gs hF _ ih =>
      intro x
      have hround : (round mix F x).map h h = round mix' G (x.map h h) := by
        show (h x.2, h (mix x.1 (F x.2))) = (h x.2, mix' (h x.1) (G (h x.2)))
        rw [hmix, hF]
      have hrest := ih (round mix F x)
      rw [hround] at hrest
      exact hrest
  unfold network
  rw [← hrounds]
  rfl

end RZEmulator.Lib.Feistel
