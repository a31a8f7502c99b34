import Mathlib.Data.List.Nodup
import RZEmulator.Lib.Run

/-!
# The queue of packets to be sent

`MPSCQueue` is filled by any number of threads without a lock: a producer exchanges the head for its node and then stores
the node behind the old head, and in between the chain is broken there. The one consumer follows the chain from the
tail, and deletes a node when it has passed it. The steps of the threads interleave in any way; a pointer to a node that
has been deleted has nothing behind it.

The queue is a list all the same (`fifo_of_run`): what has been taken and what waits are the packets in the order of the
exchanges, and no deleted node is ever touched.
-/

namespace RZEmulator.Shared

open Lib

namespace MPSCQueue

variable {α : Type}

/-- `MPSCQueue::Node`; the first node has no data. -/
structure Node (α : Type) where
  data : Option α
  next : Option Nat
  freed : Bool
  deriving DecidableEq

end MPSCQueue

/-- `MPSCQueue`, with the memory that its nodes are allocated in. `storing` are the producers between the exchange and the
store, each with the old head and its node; `loaded` is what the consumer has read and not yet moved to. `taken` records
the results of `Dequeue`. -/
structure MPSCQueue (α : Type) where
  nodes : List (MPSCQueue.Node α) := [⟨none, none, false⟩]
  head : Nat := 0
  tail : Nat := 0
  storing : List (Nat × Nat) := []
  loaded : Option Nat := none
  taken : List α := []
  deriving DecidableEq

namespace MPSCQueue

variable {α : Type}

/-- What a pointer points to. -/
def deref (s : MPSCQueue α) (i : Nat) : Option (Node α) := s.nodes[i]?.filter (!·.freed)

inductive Event (α : Type)
  /-- `Enqueue` up to the exchange. -/
  | exchange (input : α)
  /-- The store of the `k`-th producer that has not stored. -/
  | store (k : Nat)
  /-- `Dequeue` up to the load; without a next node it returns `false`. -/
  | load
  /-- The rest of `Dequeue`. -/
  | advance

def step (s : MPSCQueue α) : Event α → Option (MPSCQueue α)
  | .exchange input =>
    let node := s.nodes.length
    some { s with
      nodes := s.nodes ++ [⟨some input, none, false⟩], head := node, storing := s.storing ++ [(s.head, node)] }
  | .store k => do
    let (prevHead, node) ← s.storing[k]?
    let n ← s.deref prevHead
    return { s with nodes := s.nodes.set prevHead { n with next := some node }, storing := s.storing.eraseIdx k }
  | .load => do
    let t ← s.deref s.tail
    if s.loaded = none then return { s with loaded := t.next } else none
  | .advance => do
    let next ← s.loaded
    let n ← s.deref next
    let t ← s.deref s.tail
    return { s with
      taken := s.taken ++ n.data.toList, nodes := s.nodes.set s.tail { t with freed := true }, tail := next, loaded := none }

/-- The runs of a queue with any number of producers and one consumer. -/
abbrev system (α : Type) : System (MPSCQueue α) (Event α) := .ofFun (· = {}) step

/-- The packets in the order of their exchanges. -/
def entered : History (MPSCQueue α) (Event α) → List α
  | [] => []
  | t :: h => entered h ++ match t.event with
    | .exchange input => [input]
    | _ => []

/-! ## The chain -/

/-- The node `i` of a queue that the packets `es` have entered: it points to the next one unless that is missing or still
has to be stored. -/
def nodeOf (es : List α) (tail : Nat) (storing : List (Nat × Nat)) (i : Nat) : Node α where
  data := if i = 0 then none else es[i - 1]?
  next := if (i, i + 1) ∈ storing ∨ i = es.length then none else some (i + 1)
  freed := decide (i < tail)

/-- The nodes stand in the order of the exchanges, the deleted ones first. -/
structure Chained (es : List α) (s : MPSCQueue α) : Prop where
  nodes : ∀ i, s.nodes[i]? = if i ≤ es.length then some (nodeOf es s.tail s.storing i) else none
  head : s.head = es.length
  tail : s.tail ≤ es.length
  storing : ∀ p ∈ s.storing, p.2 = p.1 + 1 ∧ p.1 < es.length ∧ s.tail ≤ p.1
  nodup : s.storing.Nodup
  loaded : ∀ n, s.loaded = some n → n = s.tail + 1 ∧ s.tail < es.length ∧ (s.tail, s.tail + 1) ∉ s.storing
  taken : s.taken = es.take s.tail

variable {es : List α} {s t : MPSCQueue α}

theorem Chained.init : Chained ([] : List α) {} := by
  refine ⟨fun i => ?_, rfl, Nat.le_refl 0, fun _ hp => absurd hp List.not_mem_nil, List.nodup_nil, nofun, rfl⟩
  cases i with
  | zero => rfl
  | succ i => rfl

theorem Chained.length (h : Chained es s) : s.nodes.length = es.length + 1 := by
  have hlast := h.nodes es.length
  have hnone := h.nodes (es.length + 1)
  rw [if_pos (Nat.le_refl _)] at hlast
  rw [if_neg (by omega)] at hnone
  have := (List.getElem?_eq_some_iff.mp hlast).1
  have := List.getElem?_eq_none_iff.mp hnone
  omega

/-- The nodes from the tail on are there. -/
theorem Chained.deref (h : Chained es s) {i : Nat} (hi : s.tail ≤ i) (hle : i ≤ es.length) :
    s.deref i = some (nodeOf es s.tail s.storing i) := by
  unfold MPSCQueue.deref
  rw [h.nodes i, if_pos hle, Option.filter_some, if_pos]
  simp only [nodeOf, decide_eq_false (Nat.not_lt.mpr hi), Bool.not_false]

theorem Chained.exchange (h : Chained es s) (input : α) :
    Chained (es ++ [input]) { s with
      nodes := s.nodes ++ [⟨some input, none, false⟩], head := s.nodes.length
      storing := s.storing ++ [(s.head, s.nodes.length)] } := by
  have hlen := h.length
  have htail := h.tail
  rw [hlen, h.head]
  refine ⟨fun i => ?_, by rw [List.length_append]; rfl, by rw [List.length_append]; exact Nat.le_succ_of_le htail,
    fun p hp => ?_, ?_, fun n hn => ?_, ?_⟩
  · dsimp only
    rw [List.length_append, List.length_singleton]
    rcases Nat.lt_trichotomy i (es.length + 1) with hi | rfl | hi
    · rw [List.getElem?_append_left (by omega), h.nodes i, if_pos (by omega), if_pos (by omega)]
      unfold nodeOf
      congr 2
      · split_ifs with hzero
        · rfl
        · rw [List.getElem?_append_left (by omega)]
      · rw [List.length_append, List.length_singleton]
        by_cases hlast : i = es.length
        · rw [if_pos (.inr hlast), if_pos (.inl (List.mem_append_right _ (List.mem_singleton.mpr (by rw [hlast]))))]
        · have hiff : (i, i + 1) ∈ s.storing ++ [(es.length, es.length + 1)] ↔ (i, i + 1) ∈ s.storing := by
            rw [List.mem_append, List.mem_singleton, Prod.mk.injEq]
            exact or_iff_left fun h => hlast h.1
          simp only [hiff, hlast, show ¬i = es.length + 1 by omega]
    · rw [List.getElem?_append_right (by omega), hlen, Nat.sub_self, if_pos (Nat.le_refl _)]
      unfold nodeOf
      rw [if_neg (Nat.succ_ne_zero _), Nat.add_sub_cancel, List.getElem?_append_right (Nat.le_refl _), Nat.sub_self,
        if_pos (.inr (by rw [List.length_append]; rfl)), decide_eq_false (by omega)]
      rfl
    · rw [List.getElem?_append_right (by omega), if_neg (by omega), List.getElem?_eq_none_iff]
      rw [List.length_singleton]
      omega
  · rw [List.length_append, List.length_singleton]
    rcases List.mem_append.mp hp with hp | hp
    · obtain ⟨h1, h2, h3⟩ := h.storing p hp
      exact ⟨h1, by omega, h3⟩
    · rw [List.mem_singleton.mp hp]
      exact ⟨rfl, Nat.lt_succ_self _, htail⟩
  · refine h.nodup.append (List.nodup_singleton _) fun p hp hp' => ?_
    have := (h.storing p hp).2.1
    rw [List.mem_singleton.mp hp'] at this
    exact Nat.lt_irrefl _ this
  · obtain ⟨h1, h2, h3⟩ := h.loaded n hn
    refine ⟨h1, by rw [List.length_append]; exact Nat.lt_succ_of_lt h2, fun hmem => ?_⟩
    rcases List.mem_append.mp hmem with hmem | hmem
    · exact h3 hmem
    · rw [List.mem_singleton, Prod.mk.injEq] at hmem
      exact absurd hmem.1 (Nat.ne_of_lt h2)
  · dsimp only
    rw [h.taken, List.take_append_of_le_length htail]

/-- A producer stores its node: the chain is whole there, and no other place has changed. -/
theorem Chained.store (h : Chained es s) {k : Nat} {p : Nat × Nat} (hk : s.storing[k]? = some p) :
    Chained es { s with
      nodes := s.nodes.set p.1 { nodeOf es s.tail s.storing p.1 with next := some p.2 }
      storing := s.storing.eraseIdx k } := by
  obtain ⟨hklt, hkeq⟩ := List.getElem?_eq_some_iff.mp hk
  have hmem : p ∈ s.storing := List.mem_of_getElem? hk
  obtain ⟨hp2, hplt, hptail⟩ := h.storing p hmem
  have herase : ∀ q, q ∈ s.storing.eraseIdx k ↔ q ∈ s.storing ∧ q ≠ p := by
    intro q
    have heq : s.storing.eraseIdx k = s.storing.erase p := by rw [← hkeq, h.nodup.erase_getElem k hklt]
    rw [heq, h.nodup.mem_erase_iff]
    exact and_comm
  refine ⟨fun i => ?_, h.head, h.tail, fun q hq => h.storing q ((herase q).mp hq).1, h.nodup.eraseIdx k,
    fun n hn => ?_, h.taken⟩
  · dsimp only
    rw [List.getElem?_set, h.length]
    by_cases hi : p.1 = i
    · subst hi
      rw [if_pos rfl, if_pos (by omega), if_pos (by omega)]
      have hout : (p.1, p.1 + 1) ∉ s.storing.eraseIdx k := fun hin => ((herase _).mp hin).2 (Prod.ext rfl hp2.symm)
      unfold nodeOf
      rw [if_neg (show ¬((p.1, p.1 + 1) ∈ s.storing.eraseIdx k ∨ p.1 = es.length) from not_or.mpr ⟨hout, by omega⟩), hp2]
    · rw [if_neg hi, h.nodes i]
      have hiff : (i, i + 1) ∈ s.storing.eraseIdx k ↔ (i, i + 1) ∈ s.storing :=
        (herase _).trans (and_iff_left fun heq => hi (congrArg Prod.fst heq).symm)
      unfold nodeOf
      simp only [hiff]
  · obtain ⟨h1, h2, h3⟩ := h.loaded n hn
    exact ⟨h1, h2, fun hin => h3 ((herase _).mp hin).1⟩

/-- The consumer reads where the chain goes on. -/
theorem Chained.load (h : Chained es s) :
    Chained es { s with loaded := (nodeOf es s.tail s.storing s.tail).next } := by
  refine ⟨h.nodes, h.head, h.tail, h.storing, h.nodup, fun n hn => ?_, h.taken⟩
  have htail := h.tail
  unfold nodeOf at hn
  dsimp only at hn
  split_ifs at hn with hend
  obtain ⟨hout, hlast⟩ := not_or.mp hend
  exact ⟨(Option.some.inj hn).symm, Nat.lt_of_le_of_ne htail hlast, hout⟩

/-- The consumer moves on and deletes the node that it leaves. -/
theorem Chained.advance (h : Chained es s) {n : Nat} (hn : s.loaded = some n) :
    Chained es { s with
      taken := s.taken ++ (nodeOf es s.tail s.storing n).data.toList
      nodes := s.nodes.set s.tail { nodeOf es s.tail s.storing s.tail with freed := true }, tail := n, loaded := none } := by
  obtain ⟨rfl, hlt, hout⟩ := h.loaded n hn
  refine ⟨fun i => ?_, h.head, hlt, fun p hp => ?_, h.nodup, nofun, ?_⟩
  · dsimp only
    rw [List.getElem?_set, h.length]
    by_cases hi : s.tail = i
    · subst hi
      rw [if_pos rfl, if_pos (by omega), if_pos (by omega)]
      unfold nodeOf
      rw [decide_eq_true (Nat.lt_succ_self _)]
    · rw [if_neg hi, h.nodes i]
      have hiff : i < s.tail + 1 ↔ i < s.tail := by omega
      unfold nodeOf
      simp only [hiff]
  · obtain ⟨h1, h2, h3⟩ := h.storing p hp
    refine ⟨h1, h2, ?_⟩
    -- the store behind the tail has been done, or the consumer would not have read on
    rcases Nat.lt_or_eq_of_le h3 with hlt' | heq
    · exact hlt'
    · have hp' : p = (s.tail, s.tail + 1) := Prod.ext heq.symm (by rw [h1, heq])
      exact absurd (hp' ▸ hp) hout
  · dsimp only
    unfold nodeOf
    dsimp only
    rw [if_neg (Nat.succ_ne_zero _), Nat.add_sub_cancel, h.taken, List.take_add_one]

/-! ## Runs -/

/-- A step keeps the chain, and a step that the threads can take has a result. -/
theorem chained_of_run {h : History (MPSCQueue α) (Event α)} (hrun : (system α).Run h s) : Chained (entered h) s := by
  refine hrun.invariant (I := fun h s => Chained (entered h) s) (fun s hs => hs ▸ Chained.init) ?_
  rintro h s e t - hinv - hstep
  have hkeep : ∀ e, (∀ input, e ≠ .exchange input) → ∀ t, entered (⟨s, e, t⟩ :: h) = entered h := by
    intro e he t
    cases e with
    | exchange input => exact absurd rfl (he input)
    | store k => exact List.append_nil _
    | load => exact List.append_nil _
    | advance => exact List.append_nil _
  cases e with
  | exchange input =>
    cases hstep
    exact hinv.exchange input
  | store k =>
    rw [hkeep _ (fun _ h => by cases h)]
    obtain ⟨p, hp, hstep⟩ := Option.bind_eq_some_iff.mp hstep
    obtain ⟨-, hlt, htail⟩ := hinv.storing p (List.mem_of_getElem? hp)
    dsimp only at hstep
    rw [hinv.deref htail (Nat.le_of_lt hlt)] at hstep
    cases hstep
    exact hinv.store hp
  | load =>
    rw [hkeep _ (fun _ h => by cases h)]
    change (s.deref s.tail).bind _ = _ at hstep
    rw [hinv.deref (Nat.le_refl _) hinv.tail, Option.bind_some] at hstep
    split_ifs at hstep
    cases hstep
    exact hinv.load
  | advance =>
    rw [hkeep _ (fun _ h => by cases h)]
    obtain ⟨n, hn, hstep⟩ := Option.bind_eq_some_iff.mp hstep
    obtain ⟨rfl, hlt, -⟩ := hinv.loaded n hn
    change (s.deref (s.tail + 1)).bind _ = _ at hstep
    rw [hinv.deref (Nat.le_succ _) hlt, Option.bind_some, hinv.deref (Nat.le_refl _) hinv.tail] at hstep
    cases hstep
    exact hinv.advance hn

/-- **The queue hands out what has entered, in the order of the exchanges**, and no thread touches a deleted node. A look
into the queue finds nothing exactly if nothing waits or the first producer that still has to store stands at its front. -/
theorem fifo_of_run {h : History (MPSCQueue α) (Event α)} (hrun : (system α).Run h s) :
    s.taken ++ (entered h).drop s.taken.length = entered h ∧
      (∀ k, k < s.storing.length → (s.step (.store k)).isSome) ∧
      (s.loaded = none → (s.step .load).isSome) ∧
      (s.loaded ≠ none → (s.step .advance).isSome) ∧
      (∀ t, s.step .load = some t → (t.loaded = none ↔ s.taken = entered h ∨ (s.tail, s.tail + 1) ∈ s.storing)) := by
  have hc := chained_of_run hrun
  have htaken := hc.taken
  have htail := hc.tail
  have hload : s.deref s.tail = some _ := hc.deref (Nat.le_refl _) htail
  refine ⟨?_, fun k hk => ?_, fun hnone => ?_, fun hsome => ?_, fun t ht => ?_⟩
  · rw [htaken, List.length_take, Nat.min_eq_left htail, List.take_append_drop]
  · obtain ⟨-, hlt, hle⟩ := hc.storing _ (List.getElem_mem hk)
    show ((s.storing[k]?).bind fun p => (s.deref p.1).bind _).isSome
    rw [List.getElem?_eq_getElem hk, Option.bind_some, hc.deref hle (Nat.le_of_lt hlt)]
    rfl
  · show ((s.deref s.tail).bind _).isSome
    rw [hload, Option.bind_some, if_pos hnone]
    rfl
  · obtain ⟨n, hn⟩ := Option.ne_none_iff_exists'.mp hsome
    obtain ⟨rfl, hlt, -⟩ := hc.loaded n hn
    show (s.loaded.bind fun n => (s.deref n).bind _).isSome
    rw [hn, Option.bind_some, hc.deref (Nat.le_succ _) hlt, Option.bind_some, hload]
    rfl
  · change (s.deref s.tail).bind _ = _ at ht
    rw [hload, Option.bind_some] at ht
    split_ifs at ht
    cases ht
    dsimp only [nodeOf]
    have hall : s.taken = entered h ↔ s.tail = (entered h).length := by
      rw [htaken]
      constructor
      · intro heq
        have := congrArg List.length heq
        rw [List.length_take] at this
        omega
      · rintro heq
        rw [heq, List.take_length]
    rw [hall]
    split_ifs with hend
    · exact ⟨fun _ => hend.symm, fun _ => rfl⟩
    · exact ⟨nofun, fun h => absurd h.symm hend⟩

/-- The second of two producers stores first, and the consumer looks between the two stores. -/
theorem fifo_of_run_two : ∃ (h : History (MPSCQueue Nat) (Event Nat)) (s : MPSCQueue Nat),
    s.taken = [5, 6] ∧ s.taken ++ (entered h).drop s.taken.length = entered h := by
  obtain ⟨h, s, hrun, hs⟩ := System.exists_run_exec (fun s : MPSCQueue Nat => s.taken)
    [.exchange 5, .exchange 6, .store 1, .load, .store 0, .load, .advance, .exchange 7, .load, .advance]
    (System.RunWhere.init (C := fun _ _ _ => True) (S := system Nat) rfl) (a := [5, 6]) (by decide +kernel)
  exact ⟨h, s, hs, (fifo_of_run hrun).1⟩

end MPSCQueue

end RZEmulator.Shared
