import Mathlib.Data.List.Chain

/-!
# Loops that carry an amount

A loop over targets reads an amount and may write it back for the next target. `turns_eq_iff` says when it does for
every target what it would do with the amount that it started with: when no target that writes an amount changes what
the next one makes of it.
-/

namespace RZEmulator.Lib

variable {T A E : Type*}

/-- The entries of the loop; a turn without a result passes its target over. -/
def turns (turn : T → A → Option (A × E)) : List T → A → List E
  | [], _ => []
  | t :: ts, a =>
    match turn t a with
    | none => turns turn ts a
    | some (a', e) => e :: turns turn ts a'

/-- What is done of a target by itself. The targets that `writes` leave `update t a` to the next and make their own
entry if and only if that is `update t a₀`, under the condition `ok`. -/
structure Carries (turn : T → A → Option (A × E)) (own : T → Option E) (writes : T → Bool) (update : T → A → A)
    (a₀ : A) (ok : Prop) : Prop where
  reads : ∀ t a, writes t = false → turn t a = (own t).map fun e => (a, e)
  writes : ∀ t, writes t = true → ∃ (entry : A → E) (e : E), own t = some e ∧ (∀ a, turn t a = some (update t a, entry a)) ∧
    ∀ a, entry a = e ↔ update t a = update t a₀ ∧ ok

/-- The first of the list gets the amount `a`, each other one what the one before leaves of `a₀`. -/
def Follows (update : T → A → A) (a₀ a : A) (ok : Prop) : List T → Prop
  | [] => True
  | t :: ts => update t a = update t a₀ ∧ ok ∧ (t :: ts).IsChain fun t t' => update t' (update t a₀) = update t' a₀

variable {turn : T → A → Option (A × E)} {own : T → Option E} {writes : T → Bool} {update : T → A → A} {a₀ : A}
  {ok : Prop}

theorem follows_cons (t : T) (ts : List T) (a : A) : Follows update a₀ a ok (t :: ts) ↔
    update t a = update t a₀ ∧ ok ∧ Follows update a₀ (update t a₀) ok ts := by
  cases ts with
  | nil => exact ⟨fun h => ⟨h.1, h.2.1, trivial⟩, fun h => ⟨h.1, h.2.1, List.isChain_singleton _⟩⟩
  | cons t' ts =>
    simp only [Follows, List.isChain_cons_cons]
    exact ⟨fun ⟨h, hok, hnext, hchain⟩ => ⟨h, hok, hnext, hok, hchain⟩,
      fun ⟨h, hok, hnext, _, hchain⟩ => ⟨h, hok, hnext, hchain⟩⟩

theorem Carries.turns_eq_iff_follows (h : Carries turn own writes update a₀ ok) (ts : List T) (a : A) :
    turns turn ts a = ts.filterMap own ↔ Follows update a₀ a ok (ts.filter writes) := by
  induction ts generalizing a with
  | nil => exact iff_of_true rfl trivial
  | cons t ts ih =>
    unfold turns
    cases hwrites : writes t with
    | false =>
      rw [h.reads t a hwrites, List.filter_cons_of_neg (by rw [hwrites]; exact Bool.false_ne_true)]
      cases hown : own t with
      | none => rw [List.filterMap_cons_none hown]; exact ih a
      | some e =>
        rw [List.filterMap_cons_some hown]
        exact (List.cons_inj_right e).trans (ih a)
    | true =>
      obtain ⟨entry, e, hown, hturn, hentry⟩ := h.writes t hwrites
      rw [hturn, List.filterMap_cons_some hown, List.filter_cons_of_pos hwrites, follows_cons]
      dsimp only
      rw [List.cons.injEq, hentry a, ih, and_assoc]
      exact and_congr_right fun hupdate => by rw [hupdate]

/-- The loop treats its targets one like the other, and each by itself. -/
theorem Carries.turns_eq_iff (h : Carries turn own writes update a₀ ok) (ts : List T) :
    turns turn ts a₀ = ts.filterMap own ↔ (ts.filter writes ≠ [] → ok) ∧
      (ts.filter writes).IsChain fun t t' => update t' (update t a₀) = update t' a₀ := by
  rw [h.turns_eq_iff_follows]
  cases ts.filter writes with
  | nil => exact iff_of_true trivial ⟨fun h => absurd rfl h, List.isChain_nil⟩
  | cons t ts => exact ⟨fun ⟨_, hok, hchain⟩ => ⟨fun _ => hok, hchain⟩,
      fun ⟨hok, hchain⟩ => ⟨rfl, hok (List.cons_ne_nil t ts), hchain⟩⟩

end RZEmulator.Lib
