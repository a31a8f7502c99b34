import Mathlib.Algebra.Order.Group.Multiset
import Mathlib.Tactic.Abel
import RZEmulator.Lib.Ownership
import RZEmulator.Lib.Run

/-!
# The workers of a database

Operations for the database are pushed into a `ProducerConsumerQueue` by any thread; every asynchronous connection has a
`DatabaseWorker`, whose thread takes one at a time and calls it. A thread that finds nothing sleeps on the condition
variable of the queue, and `Push` wakes one of the sleepers, whichever. What a thread does under the lock is one step.

No wakeup is lost, and no operation is called twice (`operations_of_run`): as long as the queue is not shut down, there is
a thread on its way to the lock for every operation that waits, or no thread sleeps at all.
-/

namespace RZEmulator.Shared

open Lib

/-- Where the thread of a worker is: before the lock of `WaitAndPop`, asleep in it, behind it, in `call`, or at its end. -/
inductive Place (α : Type)
  | locking
  | asleep
  | popped (operation : Option α)
  | calling (operation : α)
  | returned
  deriving DecidableEq

/-- `DatabaseWorker`. -/
structure DatabaseWorker (α : Type) where
  place : Place α := .locking
  cancelationToken : Bool := false
  deriving DecidableEq

/-- The queue of a `DatabaseWorkerPool` and its workers. `started`, `executed`, `deleted` and `dropped` record the
operations that have been popped, that have been called, that `Cancel` has deleted, and that a cancelled worker has
popped and forgotten. -/
structure DatabaseWorkerPool (α : Type) where
  queue : List α := []
  shutdown : Bool := false
  workers : List (DatabaseWorker α)
  started : List α := []
  executed : List α := []
  deleted : List α := []
  dropped : List α := []
  deriving DecidableEq

namespace DatabaseWorkerPool

variable {α : Type}

def isAsleep (worker : DatabaseWorker α) : Bool :=
  match worker.place with
  | .asleep => true
  | _ => false

/-- The thread `w` goes on to another place. -/
def goTo (s : DatabaseWorkerPool α) (w : Nat) (worker : DatabaseWorker α) (place : Place α) : DatabaseWorkerPool α :=
  { s with workers := s.workers.set w { worker with place } }

inductive Event (α : Type)
  /-- `Push`; `notify_one` wakes a sleeper if there is one. -/
  | push (value : α) (woken : Option Nat)
  /-- A sleeper wakes up for no reason. -/
  | wakeUp (w : Nat)
  /-- `WaitAndPop` up to its end or to the next sleep. -/
  | waitAndPop (w : Nat)
  /-- `WorkerThread` looks at what it has got. -/
  | examine (w : Nat)
  /-- `call` ends and the operation is deleted. -/
  | finish (w : Nat)
  /-- `~DatabaseWorker` sets the token, -/
  | setToken (w : Nat)
  /-- and calls `Cancel`. -/
  | cancel (w : Nat)

/-- `notify_all` for one thread. -/
def awake (worker : DatabaseWorker α) : DatabaseWorker α :=
  if isAsleep worker then { worker with place := .locking } else worker

def step (s : DatabaseWorkerPool α) : Event α → Option (DatabaseWorkerPool α)
  | .push value woken =>
    match woken with
    | none => if s.workers.any isAsleep then none else some { s with queue := s.queue ++ [value] }
    | some w => do
      let worker ← s.workers[w]?
      if isAsleep worker then some { s.goTo w worker .locking with queue := s.queue ++ [value] } else none
  | .wakeUp w => do
    let worker ← s.workers[w]?
    if isAsleep worker then some (s.goTo w worker .locking) else none
  | .waitAndPop w => do
    let worker ← s.workers[w]?
    match worker.place with
    | .locking =>
      match s.queue with
      | [] => some (s.goTo w worker (if s.shutdown then .popped none else .asleep))
      | value :: rest =>
        if s.shutdown then some (s.goTo w worker (.popped none))
        else some { s.goTo w worker (.popped (some value)) with queue := rest, started := s.started ++ [value] }
    | _ => none
  | .examine w => do
    let worker ← s.workers[w]?
    match worker.place with
    | .popped none => some (s.goTo w worker .returned)
    | .popped (some operation) =>
      -- the operation is not deleted here
      if worker.cancelationToken then
        some { s.goTo w worker .returned with dropped := s.dropped ++ [operation] }
      else some (s.goTo w worker (.calling operation))
    | _ => none
  | .finish w => do
    let worker ← s.workers[w]?
    match worker.place with
    | .calling operation => some { s.goTo w worker .locking with executed := s.executed ++ [operation] }
    | _ => none
  | .setToken w => do
    let worker ← s.workers[w]?
    some { s with workers := s.workers.set w { worker with cancelationToken := true } }
  | .cancel w => do
    let worker ← s.workers[w]?
    if worker.cancelationToken then
      some { s with
        queue := [], shutdown := true, deleted := s.deleted ++ s.queue, workers := s.workers.map awake }
    else none

/-- A pool before the first operation. -/
def Init (s : DatabaseWorkerPool α) : Prop := ∃ n, s = { workers := List.replicate n {} }

/-- The runs of a pool. -/
abbrev system (α : Type) : System (DatabaseWorkerPool α) (Event α) := .ofFun Init step

def pushedBy : Event α → List α
  | .push value _ => [value]
  | _ => []

/-- The operations that have been pushed, the oldest first. -/
def pushed : History (DatabaseWorkerPool α) (Event α) → List α
  | [] => []
  | t :: h => pushed h ++ pushedBy t.event

/-- What a thread holds. -/
def held (worker : DatabaseWorker α) : List α :=
  match worker.place with
  | .popped operation => operation.toList
  | .calling operation => [operation]
  | _ => []

def isLocking (worker : DatabaseWorker α) : Bool :=
  match worker.place with
  | .locking => true
  | _ => false

/-! ## What a step can do -/

/-- The steps by their outcome. -/
inductive Moves (s : DatabaseWorkerPool α) : Event α → DatabaseWorkerPool α → Prop
  | push (value : α) (h : ∀ worker ∈ s.workers, isAsleep worker = false) :
    Moves s (.push value none) { s with queue := s.queue ++ [value] }
  | notify (value : α) {w : Nat} {worker : DatabaseWorker α} (hw : s.workers[w]? = some worker) (h : worker.place = .asleep) :
    Moves s (.push value (some w)) { s.goTo w worker .locking with queue := s.queue ++ [value] }
  | wakeUp {w : Nat} {worker : DatabaseWorker α} (hw : s.workers[w]? = some worker) (h : worker.place = .asleep) :
    Moves s (.wakeUp w) (s.goTo w worker .locking)
  | sleep {w : Nat} {worker : DatabaseWorker α} (hw : s.workers[w]? = some worker) (h : worker.place = .locking)
    (hqueue : s.queue = []) (hopen : s.shutdown = false) : Moves s (.waitAndPop w) (s.goTo w worker .asleep)
  | giveUp {w : Nat} {worker : DatabaseWorker α} (hw : s.workers[w]? = some worker) (h : worker.place = .locking)
    (hshut : s.shutdown = true) : Moves s (.waitAndPop w) (s.goTo w worker (.popped none))
  | pop {w : Nat} {worker : DatabaseWorker α} {value : α} {rest : List α} (hw : s.workers[w]? = some worker)
    (h : worker.place = .locking) (hqueue : s.queue = value :: rest) (hopen : s.shutdown = false) :
    Moves s (.waitAndPop w) { s.goTo w worker (.popped (some value)) with queue := rest, started := s.started ++ [value] }
  | quit {w : Nat} {worker : DatabaseWorker α} (hw : s.workers[w]? = some worker) (h : worker.place = .popped none) :
    Moves s (.examine w) (s.goTo w worker .returned)
  | drop {w : Nat} {worker : DatabaseWorker α} {operation : α} (hw : s.workers[w]? = some worker)
    (h : worker.place = .popped (some operation)) (htoken : worker.cancelationToken = true) :
    Moves s (.examine w) { s.goTo w worker .returned with dropped := s.dropped ++ [operation] }
  | call {w : Nat} {worker : DatabaseWorker α} {operation : α} (hw : s.workers[w]? = some worker)
    (h : worker.place = .popped (some operation)) : Moves s (.examine w) (s.goTo w worker (.calling operation))
  | finish {w : Nat} {worker : DatabaseWorker α} {operation : α} (hw : s.workers[w]? = some worker)
    (h : worker.place = .calling operation) :
    Moves s (.finish w) { s.goTo w worker .locking with executed := s.executed ++ [operation] }
  | setToken {w : Nat} {worker : DatabaseWorker α} (hw : s.workers[w]? = some worker) :
    Moves s (.setToken w) { s with workers := s.workers.set w { worker with cancelationToken := true } }
  | cancel (w : Nat) :
    Moves s (.cancel w) { s with
      queue := [], shutdown := true, deleted := s.deleted ++ s.queue, workers := s.workers.map awake }

theorem place_of_isAsleep {worker : DatabaseWorker α} (h : isAsleep worker = true) : worker.place = .asleep := by
  unfold isAsleep at h
  split at h
  · assumption
  · cases h

theorem moves_of_step {s t : DatabaseWorkerPool α} {e : Event α} (h : s.step e = some t) : Moves s e t := by
  cases e with
  | push value woken =>
    cases woken with
    | none =>
      unfold step at h
      dsimp only at h
      split_ifs at h with hany
      cases h
      exact .push value fun worker hw => by
        rw [Bool.not_eq_true, List.any_eq_false] at hany
        exact Bool.eq_false_iff.mpr (hany worker hw)
    | some w =>
      obtain ⟨worker, hw, h⟩ := Option.bind_eq_some_iff.mp h
      split_ifs at h with hasleep
      cases h
      exact .notify value hw (place_of_isAsleep hasleep)
  | wakeUp w =>
    obtain ⟨worker, hw, h⟩ := Option.bind_eq_some_iff.mp h
    split_ifs at h with hasleep
    cases h
    exact .wakeUp hw (place_of_isAsleep hasleep)
  | waitAndPop w =>
    obtain ⟨worker, hw, h⟩ := Option.bind_eq_some_iff.mp h
    split at h
    · rename_i hplace
      split at h
      · rename_i hqueue
        cases hshut : s.shutdown with
        | false =>
          rw [hshut] at h
          cases h
          exact .sleep hw hplace hqueue hshut
        | true =>
          rw [hshut] at h
          cases h
          exact .giveUp hw hplace hshut
      · rename_i value rest hqueue
        split_ifs at h with hshut
        · cases h
          exact .giveUp hw hplace hshut
        · cases h
          exact .pop hw hplace hqueue (Bool.eq_false_iff.mpr hshut)
    · cases h
  | examine w =>
    obtain ⟨worker, hw, h⟩ := Option.bind_eq_some_iff.mp h
    split at h
    · cases h
      exact .quit hw (by assumption)
    · split_ifs at h with htoken
      · cases h
        exact .drop hw (by assumption) htoken
      · cases h
        exact .call hw (by assumption)
    · cases h
  | finish w =>
    obtain ⟨worker, hw, h⟩ := Option.bind_eq_some_iff.mp h
    split at h
    · cases h
      exact .finish hw (by assumption)
    · cases h
  | setToken w =>
    obtain ⟨worker, hw, h⟩ := Option.bind_eq_some_iff.mp h
    cases h
    exact .setToken hw
  | cancel w =>
    obtain ⟨worker, hw, h⟩ := Option.bind_eq_some_iff.mp h
    split_ifs at h
    cases h
    exact .cancel w

/-! ## The invariant -/

/-- What holds of a pool into which `es` have been pushed. -/
structure Inv (es : List α) (s : DatabaseWorkerPool α) : Prop where
  order : es = s.started ++ s.deleted ++ s.queue
  kept : (s.started : Multiset α) = s.executed + (s.workers.flatMap held : List α) + s.dropped
  fresh : s.shutdown = false → s.deleted = []
  enough : s.shutdown = false → (∃ worker ∈ s.workers, isAsleep worker = true) → s.queue.length ≤ s.workers.countP isLocking
  shut : s.shutdown = true → ∀ worker ∈ s.workers, isAsleep worker = false
  spared : (∀ worker ∈ s.workers, worker.cancelationToken = false) → s.dropped = []

variable {s t : DatabaseWorkerPool α} {es : List α} {w : Nat} {worker : DatabaseWorker α} {place : Place α}

theorem held_goTo (hw : s.workers[w]? = some worker) (place : Place α) :
    ((s.goTo w worker place).workers.flatMap held : Multiset α) + held worker =
      (s.workers.flatMap held : List α) + held { worker with place } :=
  Multiset.coe_eq_coe.mpr (flatMap_set_perm held hw _)

theorem countP_goTo (hw : s.workers[w]? = some worker) (place : Place α) :
    (s.goTo w worker place).workers.countP isLocking + (if isLocking worker then 1 else 0) =
      s.workers.countP isLocking + if isLocking { worker with place } then 1 else 0 :=
  countP_set_add isLocking hw _

/-- Nobody falls asleep by going somewhere else. -/
theorem asleep_of_goTo (hplace : isAsleep { worker with place } = false)
    (h : ∃ x ∈ (s.goTo w worker place).workers, isAsleep x = true) : ∃ x ∈ s.workers, isAsleep x = true := by
  obtain ⟨x, hx, hasleep⟩ := h
  rcases List.mem_or_eq_of_mem_set hx with hx | rfl
  · exact ⟨x, hx, hasleep⟩
  · rw [hplace] at hasleep
    cases hasleep

theorem shut_goTo (h : Inv es s) (hplace : isAsleep { worker with place } = false) (hshut : s.shutdown = true) :
    ∀ x ∈ (s.goTo w worker place).workers, isAsleep x = false := by
  intro x hx
  rcases List.mem_or_eq_of_mem_set hx with hx | rfl
  · exact h.shut hshut x hx
  · exact hplace

/-- Going somewhere keeps the token. -/
theorem token_of_goTo (hw : s.workers[w]? = some worker)
    (h : ∀ x ∈ (s.goTo w worker place).workers, x.cancelationToken = false) :
    ∀ x ∈ s.workers, x.cancelationToken = false := by
  obtain ⟨hlt, hget⟩ := List.getElem?_eq_some_iff.mp hw
  intro x hx
  obtain ⟨i, hi, rfl⟩ := List.getElem_of_mem hx
  by_cases hiw : w = i
  · subst hiw
    rw [hget]
    exact h { worker with place } (List.mem_set hi _)
  · refine h s.workers[i] (List.mem_of_getElem? (i := i) ?_)
    show (s.workers.set w _)[i]? = _
    rw [List.getElem?_set_ne hiw, List.getElem?_eq_getElem hi]

theorem inv_init (h : Init s) : Inv [] s := by
  obtain ⟨n, rfl⟩ := h
  have hnone : ∀ worker ∈ List.replicate n ({} : DatabaseWorker α), worker = {} := fun _ hw => List.eq_of_mem_replicate hw
  refine ⟨rfl, ?_, fun _ => rfl, fun _ _ => Nat.zero_le _, nofun, fun _ => rfl⟩
  have hheld : (List.replicate n ({} : DatabaseWorker α)).flatMap held = [] :=
    List.flatMap_eq_nil_iff.mpr fun x hx => by rw [hnone x hx]; rfl
  rw [hheld]
  rfl

theorem held_goTo_of_eq (hw : s.workers[w]? = some worker) (hheld : held { worker with place } = held worker) :
    ((s.goTo w worker place).workers.flatMap held : Multiset α) = (s.workers.flatMap held : List α) := by
  have h := held_goTo hw place
  rw [hheld] at h
  exact add_right_cancel h

/-- A thread that goes on with what it holds, unless to sleep, keeps what holds of the pool. -/
theorem Inv.goTo (h : Inv es s) (hw : s.workers[w]? = some worker) (hheld : held { worker with place } = held worker)
    (hplace : isAsleep { worker with place } = false)
    (hlock : s.shutdown = false → isLocking worker = true → isLocking { worker with place } = true) :
    Inv es (s.goTo w worker place) := by
  refine ⟨h.order, ?_, h.fresh, fun hopen hasleep => ?_, shut_goTo h hplace, fun htoken => h.spared (token_of_goTo hw htoken)⟩
  · rw [held_goTo_of_eq hw hheld]
    exact h.kept
  · have hcount := countP_goTo hw place
    refine Nat.le_trans (h.enough hopen (asleep_of_goTo hplace hasleep)) ?_
    cases hl : isLocking worker with
    | false =>
      rw [hl, if_neg (by decide)] at hcount
      omega
    | true =>
      rw [hl, hlock hopen hl] at hcount
      omega

theorem Inv.moves {e : Event α} (h : Inv es s) (hm : Moves s e t) : Inv (es ++ pushedBy e) t := by
  cases hm with
  | push value hnone =>
    refine ⟨by rw [h.order]; exact List.append_assoc .., h.kept, h.fresh, fun _ hasleep => ?_, h.shut, h.spared⟩
    obtain ⟨worker, hworker, hasleep⟩ := hasleep
    rw [hnone worker hworker] at hasleep
    cases hasleep
  | @notify value w worker hw hplace =>
    have hheld : held { worker with place := .locking } = held worker := by
      unfold held
      rw [hplace]
    refine ⟨by rw [h.order]; exact List.append_assoc .., ?_, h.fresh, fun hopen _ => ?_, shut_goTo h rfl,
      fun htoken => h.spared (token_of_goTo hw htoken)⟩
    · exact h.kept.trans (by rewrite [← held_goTo_of_eq hw hheld]; rfl)
    · -- one operation and one thread more
      have hcount := countP_goTo hw .locking
      have hlock : isLocking worker = false := by
        unfold isLocking
        rw [hplace]
      have hasleep : isAsleep worker = true := by
        unfold isAsleep
        rw [hplace]
      have hle := h.enough hopen ⟨worker, List.mem_of_getElem? hw, hasleep⟩
      rw [hlock] at hcount
      show (s.queue ++ [value]).length ≤ (s.goTo w worker .locking).workers.countP isLocking
      rw [List.length_append]
      exact Nat.le_trans (Nat.succ_le_succ hle) (Nat.le_of_eq hcount.symm)
  | wakeUp hw hplace =>
    rw [show pushedBy (.wakeUp _ : Event α) = [] from rfl, List.append_nil]
    refine h.goTo hw ?_ rfl fun _ _ => rfl
    unfold held
    rw [hplace]
  | @sleep w worker hw hplace hqueue hopen =>
    rw [show pushedBy (.waitAndPop w : Event α) = [] from rfl, List.append_nil]
    have hheld : held { worker with place := .asleep } = held worker := by
      unfold held
      rw [hplace]
    refine ⟨h.order, ?_, h.fresh, fun _ _ => ?_, fun hshut => ?_, fun htoken => h.spared (token_of_goTo hw htoken)⟩
    · exact h.kept.trans (by rewrite [← held_goTo_of_eq hw hheld]; rfl)
    · show s.queue.length ≤ _
      rw [hqueue]
      exact Nat.zero_le _
    · exact absurd (hopen.symm.trans hshut) (by decide)
  | giveUp hw hplace hshut =>
    rw [show pushedBy (.waitAndPop _ : Event α) = [] from rfl, List.append_nil]
    refine h.goTo hw ?_ rfl fun hopen => absurd (hopen.symm.trans hshut) (by decide)
    unfold held
    rw [hplace]
    rfl
  | @pop w worker value rest hw hplace hqueue hopen =>
    rw [show pushedBy (.waitAndPop w : Event α) = [] from rfl, List.append_nil]
    have hnone : held worker = [] := by
      unfold held
      rw [hplace]
    refine ⟨?_, ?_, h.fresh, fun _ hasleep => ?_, shut_goTo h rfl, fun htoken => h.spared (token_of_goTo hw htoken)⟩
    · have horder := h.order
      rw [h.fresh hopen, hqueue] at horder
      show es = s.started ++ [value] ++ s.deleted ++ rest
      rw [h.fresh hopen, horder, List.append_nil, List.append_nil, List.append_assoc]
      rfl
    · have hmove := held_goTo hw (.popped (some value))
      rw [hnone, Multiset.coe_nil, add_zero] at hmove
      show ((s.started ++ [value] : List α) : Multiset α) = s.executed +
        ((s.goTo w worker (.popped (some value))).workers.flatMap held : List α) + s.dropped
      rw [hmove, ← Multiset.coe_add, h.kept]
      show _ + _ + _ + (([value] : List α) : Multiset α) = _ + (_ + (([value] : List α) : Multiset α)) + _
      abel
    · have hcount := countP_goTo hw (.popped (some value))
      have hlock : isLocking worker = true := by
        unfold isLocking
        rw [hplace]
      have hle := h.enough hopen (asleep_of_goTo rfl hasleep)
      rw [hlock] at hcount
      rw [hqueue] at hle
      have hcount' : (s.goTo w worker (.popped (some value))).workers.countP isLocking + 1 =
        s.workers.countP isLocking := hcount
      show rest.length ≤ (s.goTo w worker (.popped (some value))).workers.countP isLocking
      rw [List.length_cons] at hle
      omega
  | quit hw hplace =>
    rw [show pushedBy (.examine _ : Event α) = [] from rfl, List.append_nil]
    refine h.goTo hw ?_ rfl fun _ hlock => ?_
    · unfold held
      rw [hplace]
      rfl
    · unfold isLocking at hlock
      rw [hplace] at hlock
      cases hlock
  | @drop w worker operation hw hplace htoken =>
    rw [show pushedBy (.examine w : Event α) = [] from rfl, List.append_nil]
    have hone : held worker = [operation] := by
      unfold held
      rw [hplace]
      rfl
    have hlock : isLocking worker = false := by
      unfold isLocking
      rw [hplace]
    refine ⟨h.order, ?_, h.fresh, fun hopen hasleep => ?_, shut_goTo h rfl, fun hall => ?_⟩
    · have hmove := held_goTo hw .returned
      rw [hone] at hmove
      have hmove' : ((s.goTo w worker .returned).workers.flatMap held : Multiset α) + ([operation] : List α) =
        (s.workers.flatMap held : List α) := hmove.trans (add_zero _)
      show (s.started : Multiset α) = s.executed +
        ((s.goTo w worker .returned).workers.flatMap held : List α) + (s.dropped ++ [operation] : List α)
      rw [h.kept, ← hmove', ← Multiset.coe_add]
      abel
    · have hcount := countP_goTo hw .returned
      rw [hlock] at hcount
      exact Nat.le_trans (h.enough hopen (asleep_of_goTo rfl hasleep)) (Nat.le_of_eq hcount.symm)
    · have := token_of_goTo hw hall worker (List.mem_of_getElem? hw)
      rw [htoken] at this
      cases this
  | call hw hplace =>
    rw [show pushedBy (.examine _ : Event α) = [] from rfl, List.append_nil]
    refine h.goTo hw ?_ rfl fun _ hlock => ?_
    · unfold held
      rw [hplace]
      rfl
    · unfold isLocking at hlock
      rw [hplace] at hlock
      cases hlock
  | @finish w worker operation hw hplace =>
    rw [show pushedBy (.finish w : Event α) = [] from rfl, List.append_nil]
    have hone : held worker = [operation] := by
      unfold held
      rw [hplace]
    have hlock : isLocking worker = false := by
      unfold isLocking
      rw [hplace]
    refine ⟨h.order, ?_, h.fresh, fun hopen hasleep => ?_, shut_goTo h rfl,
      fun htoken => h.spared (token_of_goTo hw htoken)⟩
    · have hmove := held_goTo hw .locking
      rw [hone] at hmove
      have hmove' : ((s.goTo w worker .locking).workers.flatMap held : Multiset α) + ([operation] : List α) =
        (s.workers.flatMap held : List α) := hmove.trans (add_zero _)
      show (s.started : Multiset α) = (s.executed ++ [operation] : List α) +
        ((s.goTo w worker .locking).workers.flatMap held : List α) + s.dropped
      rw [h.kept, ← hmove', ← Multiset.coe_add]
      abel
    · have hcount := countP_goTo hw .locking
      rw [hlock] at hcount
      have hcount' : (s.goTo w worker .locking).workers.countP isLocking = s.workers.countP isLocking + 1 := hcount
      show s.queue.length ≤ (s.goTo w worker .locking).workers.countP isLocking
      have := h.enough hopen (asleep_of_goTo rfl hasleep)
      omega
  | @setToken w worker hw =>
    rw [show pushedBy (.setToken w : Event α) = [] from rfl, List.append_nil]
    have hasleep : ∀ x ∈ s.workers.set w { worker with cancelationToken := true }, isAsleep x = true →
        ∃ x ∈ s.workers, isAsleep x = true := by
      intro x hx hxasleep
      rcases List.mem_or_eq_of_mem_set hx with hx | rfl
      · exact ⟨x, hx, hxasleep⟩
      · exact ⟨worker, List.mem_of_getElem? hw, hxasleep⟩
    refine ⟨h.order, ?_, h.fresh, fun hopen hany => ?_, fun hshut x hx => ?_, fun hall => ?_⟩
    · have hperm := flatMap_set_perm held hw { worker with cancelationToken := true }
      have hsame := Multiset.coe_eq_coe.mpr ((List.perm_append_right_iff _).mp hperm)
      exact h.kept.trans (by rewrite [← hsame]; rfl)
    · obtain ⟨x, hx, hxasleep⟩ := hany
      have hcount := countP_set_add isLocking hw { worker with cancelationToken := true }
      exact Nat.le_trans (h.enough hopen (hasleep x hx hxasleep)) (Nat.le_of_eq (Nat.add_right_cancel hcount).symm)
    · by_contra hx'
      obtain ⟨y, hy, hyasleep⟩ := hasleep x hx (Bool.not_eq_false _ ▸ hx')
      rw [h.shut hshut y hy] at hyasleep
      cases hyasleep
    · obtain ⟨hlt, -⟩ := List.getElem?_eq_some_iff.mp hw
      cases hall _ (List.mem_set hlt _)
  | cancel w =>
    rw [show pushedBy (.cancel w : Event α) = [] from rfl, List.append_nil]
    have hheld : ∀ worker : DatabaseWorker α, held (awake worker) = held worker := by
      intro worker
      unfold awake
      split_ifs with hasleep
      · unfold held
        rw [place_of_isAsleep hasleep]
      · rfl
    have htoken : ∀ worker : DatabaseWorker α, (awake worker).cancelationToken = worker.cancelationToken := by
      intro worker
      unfold awake
      split_ifs <;> rfl
    refine ⟨?_, ?_, nofun, nofun, fun _ x hx => ?_, fun hall => h.spared fun x hx => ?_⟩
    · rw [h.order, List.append_nil, List.append_assoc]
    · have hflat : (s.workers.map awake).flatMap held = s.workers.flatMap held := by
        rw [List.flatMap_map]
        exact List.flatMap_congr fun x _ => hheld x
      show _ = (s.executed : Multiset α) + ((s.workers.map awake).flatMap held : List α) + s.dropped
      rw [hflat]
      exact h.kept
    · obtain ⟨y, -, rfl⟩ := List.mem_map.mp hx
      unfold awake
      split_ifs with hasleep
      · rfl
      · exact Bool.eq_false_iff.mpr hasleep
    · rw [← htoken]
      exact hall _ (List.mem_map_of_mem hx)

/-- **The operations of a pool**, in every run: they are popped in the order in which they were pushed, and each that has
been popped has been called once, is in the hands of one worker, or has been forgotten by a worker that is being
destroyed. While the queue is open and a thread sleeps, a thread is on its way to the lock for each operation that waits;
after `Cancel` nobody sleeps, so that every thread comes to its end. -/
theorem operations_of_run {h : History (DatabaseWorkerPool α) (Event α)} (hrun : (system α).Run h s) :
    pushed h = s.started ++ s.deleted ++ s.queue ∧
      s.started.Perm (s.executed ++ s.workers.flatMap held ++ s.dropped) ∧
      (s.shutdown = false → s.deleted = [] ∧
        ((∃ worker ∈ s.workers, isAsleep worker = true) → s.queue.length ≤ s.workers.countP isLocking)) ∧
      (s.shutdown = true → ∀ worker ∈ s.workers, isAsleep worker = false) ∧
      ((∀ worker ∈ s.workers, worker.cancelationToken = false) → s.dropped = []) := by
  have hinv : Inv (pushed h) s := by
    refine hrun.invariant (I := fun h s => Inv (pushed h) s) (fun s hs => inv_init hs) ?_
    intro h s e t _ hinv _ hstep
    exact hinv.moves (moves_of_step hstep)
  refine ⟨hinv.order, Multiset.coe_eq_coe.mp ?_, fun hopen => ⟨hinv.fresh hopen, hinv.enough hopen⟩, hinv.shut, hinv.spared⟩
  rw [← Multiset.coe_add, ← Multiset.coe_add]
  exact hinv.kept

/-- Two workers, three operations and the end of the pool, which finds the second worker with an operation in its hands. -/
theorem operations_of_run_two : ∃ (h : History (DatabaseWorkerPool Nat) (Event Nat)) (s : DatabaseWorkerPool Nat),
    (s.executed, s.dropped, s.deleted) = ([5], [6], [7]) ∧ pushed h = s.started ++ s.deleted ++ s.queue := by
  obtain ⟨h, s, hrun, hs⟩ := System.exists_run_exec
    (fun s : DatabaseWorkerPool Nat => (s.executed, s.dropped, s.deleted))
    [.waitAndPop 0, .push 5 (some 0), .push 6 none, .waitAndPop 1, .waitAndPop 0, .examine 1, .finish 1, .push 7 none,
      .setToken 0, .examine 0, .cancel 0, .waitAndPop 1, .examine 1]
    (System.RunWhere.init (C := fun _ _ _ => True) (S := system Nat) ⟨2, rfl⟩) (a := ([5], [6], [7])) (by decide +kernel)
  exact ⟨h, s, hs, (operations_of_run hrun).1⟩

end DatabaseWorkerPool

end RZEmulator.Shared
