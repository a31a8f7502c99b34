import RZEmulator.Lib.Ownership
import RZEmulator.Lib.Run

/-!
# The threads of a server socket

A `SocketMgr` hands every accepted connection to the `NetworkThread` that had the fewest when the accept was started. A
thread takes its new sockets over and drops the closed ones every ten milliseconds; the sockets are looked at one after
the other, and other threads close sockets and add new ones in the meantime. Sockets are numbered as they are made.

The count of a thread is that of the sockets in its hands, each socket is in the hands of one thread until it is removed,
once, and as long as none has been removed no thread has two more than another (`connections_of_run`).
-/

namespace RZEmulator.Shared

open Lib

/-- The flags of a `Socket`. -/
structure SocketState where
  closed : Bool := false
  closing : Bool := false
  deriving DecidableEq

namespace NetworkThread

/-- Where `NetworkThread::Update` is: not running, in the loop of `AddNewSockets`, or in that of `remove_if`. -/
inductive Phase
  | idle
  | adding (rest : List Nat)
  | sweeping (rest : List Nat)
  deriving DecidableEq

/-- The sockets that a loop still has to look at; `remove_if` leaves those that it keeps at the front of the list. -/
def Phase.inHands : Phase → List Nat
  | .idle => []
  | .adding rest => rest
  | .sweeping rest => rest

end NetworkThread

/-- `NetworkThread`; the lock of its new sockets is held in the phase `adding`. -/
structure NetworkThread where
  connections : Int := 0
  newSockets : List Nat := []
  sockets : List Nat := []
  phase : NetworkThread.Phase := .idle
  stopped : Bool := false
  exited : Bool := false
  deriving DecidableEq

namespace NetworkThread

def inHands (t : NetworkThread) : List Nat := t.newSockets ++ t.sockets ++ t.phase.inHands

/-- `NetworkThread::AddSocket`, which has to wait for the lock. -/
def addSocket (t : NetworkThread) (sock : Nat) : Option NetworkThread :=
  match t.phase with
  | .adding _ => none
  | _ => some { t with connections := t.connections + 1, newSockets := t.newSockets ++ [sock] }

end NetworkThread

/-- A `SocketMgr` with all the sockets it has made. `accepting` is the thread that the accept in flight is for; `removed`
records the calls of `SocketRemoved`, and `abandoned` the sockets that a thread has let go of at its end. -/
structure SocketMgr where
  threads : List NetworkThread
  states : List SocketState := []
  accepting : Option Nat
  closed : Bool := false
  removed : List Nat := []
  abandoned : List Nat := []
  deriving DecidableEq

namespace SocketMgr

/-- `GetConnectionCount` of a thread. -/
def connectionCount (threads : List NetworkThread) (i : Nat) : Int := (threads.getD i {}).connections

/-- `SocketMgr::SelectThreadWithMinConnections`. -/
def selectThreadWithMinConnections (threads : List NetworkThread) : Nat :=
  (List.range' 1 (threads.length - 1)).foldl
    (fun min i => if connectionCount threads i < connectionCount threads min then i else min) 0

def isOpen (states : List SocketState) (sock : Nat) : Bool :=
  let state := states.getD sock { closed := true }
  !state.closed && !state.closing

inductive Event
  /-- The accept in flight ends, with a socket that could be set up or without one. -/
  | accepted (success : Bool)
  /-- `CloseSocket`, by any thread. -/
  | closeSocket (sock : Nat)
  /-- `DelayedCloseSocket`. -/
  | delayedCloseSocket (sock : Nat)
  /-- `NetworkThread::Update` up to the loop of `AddNewSockets`. -/
  | update (i : Nat)
  /-- The next turn of that loop. -/
  | addNext (i : Nat)
  /-- The next turn of `remove_if`. -/
  | sweepNext (i : Nat)
  /-- `AsyncAcceptor::Close`. -/
  | close
  /-- `NetworkThread::Stop`. -/
  | stop (i : Nat)
  /-- The end of `NetworkThread::Run`. -/
  | exit (i : Nat)

def setThread (s : SocketMgr) (i : Nat) (t : NetworkThread) : SocketMgr := { s with threads := s.threads.set i t }

/-- `AsyncAcceptWithCallback`, unless the acceptor has been closed. -/
def acceptNext (s : SocketMgr) : SocketMgr :=
  { s with accepting := if s.closed then none else some (selectThreadWithMinConnections s.threads) }

def step (s : SocketMgr) : Event → Option SocketMgr
  | .accepted success => do
    let i ← s.accepting
    if success then
      let t ← s.threads[i]?
      let t ← t.addSocket s.states.length
      let state : SocketState := {}
      return { s.setThread i t with states := s.states ++ [state] }.acceptNext
    else return s.acceptNext
  | .closeSocket sock => do
    let state ← s.states[sock]?
    return { s with states := s.states.set sock { state with closed := true } }
  | .delayedCloseSocket sock => do
    let state ← s.states[sock]?
    return { s with states := s.states.set sock { state with closing := true } }
  | .update i => do
    let t ← s.threads[i]?
    match t.phase with
    | .idle =>
      if t.stopped then none
      else return s.setThread i { t with newSockets := [], phase := .adding t.newSockets }
    | _ => none
  | .addNext i => do
    let t ← s.threads[i]?
    match t.phase with
    | .adding [] => return s.setThread i { t with sockets := [], phase := .sweeping t.sockets }
    | .adding (sock :: rest) =>
      if isOpen s.states sock then
        return s.setThread i { t with sockets := t.sockets ++ [sock], phase := .adding rest }
      else
        return { s.setThread i { t with connections := t.connections - 1, phase := .adding rest } with
          removed := s.removed ++ [sock] }
    | _ => none
  | .sweepNext i => do
    let t ← s.threads[i]?
    match t.phase with
    | .sweeping [] => return s.setThread i { t with phase := .idle }
    | .sweeping (sock :: rest) =>
      let state ← s.states[sock]?
      -- `Update` of a socket answers whether it is not closed
      if state.closed then
        return { s.setThread i { t with connections := t.connections - 1, phase := .sweeping rest } with
          removed := s.removed ++ [sock] }
      else return s.setThread i { t with sockets := t.sockets ++ [sock], phase := .sweeping rest }
    | _ => none
  | .close => some { s with closed := true }
  | .stop i => do
    let t ← s.threads[i]?
    return s.setThread i { t with stopped := true }
  | .exit i => do
    let t ← s.threads[i]?
    match t.phase with
    | .idle =>
      if t.stopped ∧ t.exited = false then
        return { s.setThread i { t with newSockets := [], sockets := [], exited := true } with
          abandoned := s.abandoned ++ (t.newSockets ++ t.sockets) }
      else none
    | _ => none

/-- `StartNetwork` with some threads, and the first accept. -/
def Init (s : SocketMgr) : Prop := ∃ n, 0 < n ∧ s = { threads := List.replicate n {}, accepting := some 0 }

/-- The runs of a server socket. -/
abbrev system : System SocketMgr Event := .ofFun Init step

/-! ## The choice of a thread -/

theorem foldl_min (conn : Nat → Int) (l : List Nat) (m : Nat) :
    let r := l.foldl (fun min i => if conn i < conn min then i else min) m
    conn r ≤ conn m ∧ ∀ i ∈ l, conn r ≤ conn i := by
  induction l generalizing m with
  | nil => exact ⟨Int.le_refl _, nofun⟩
  | cons a l ih =>
    intro r
    obtain ⟨hle, hall⟩ := ih (if conn a < conn m then a else m)
    have hstart : conn (if conn a < conn m then a else m) ≤ conn m ∧ conn (if conn a < conn m then a else m) ≤ conn a := by
      split_ifs <;> omega
    refine ⟨Int.le_trans hle hstart.1, fun i hi => ?_⟩
    rcases List.mem_cons.mp hi with rfl | hi
    · exact Int.le_trans hle hstart.2
    · exact hall i hi

/-- The chosen thread has the fewest connections. -/
theorem select_least {threads : List NetworkThread} {i : Nat} (h : selectThreadWithMinConnections threads = i)
    {t : NetworkThread} (ht : threads[i]? = some t) : ∀ u ∈ threads, t.connections ≤ u.connections := by
  intro u hu
  obtain ⟨j, hj, rfl⟩ := List.getElem_of_mem hu
  obtain ⟨h0, hall⟩ := foldl_min (connectionCount threads) (List.range' 1 (threads.length - 1)) 0
  have hle : connectionCount threads i ≤ connectionCount threads j := by
    rw [← h]
    cases j with
    | zero => exact h0
    | succ j => exact hall (j + 1) (List.mem_range'_1.mpr (by omega))
  have hcount : ∀ {k : Nat} {v : NetworkThread}, threads[k]? = some v → connectionCount threads k = v.connections := by
    intro k v hv
    unfold connectionCount
    rw [List.getD_eq_getElem?_getD, hv]
    rfl
  rwa [hcount ht, hcount (List.getElem?_eq_getElem hj)] at hle

/-! ## The invariant -/

structure Inv (s : SocketMgr) : Prop where
  count : ∀ t ∈ s.threads, t.exited = false → t.connections = t.inHands.length
  owned : Owned s.states.length (s.threads.flatMap NetworkThread.inHands)
    fun sock => s.removed.count sock + s.abandoned.count sock
  dead : ∀ sock ∈ s.removed, isOpen s.states sock = false
  balanced : s.removed = [] → ∀ t ∈ s.threads, ∀ u ∈ s.threads, t.connections ≤ u.connections + 1
  least : s.removed = [] → ∀ i, s.accepting = some i → ∀ t, s.threads[i]? = some t →
    ∀ u ∈ s.threads, t.connections ≤ u.connections

variable {s : SocketMgr} {i : Nat} {t u : NetworkThread}

theorem inv_init (h : Init s) : Inv s := by
  obtain ⟨n, -, rfl⟩ := h
  have hnone : ∀ t ∈ List.replicate n ({} : NetworkThread), t = {} := fun _ ht => List.eq_of_mem_replicate ht
  have hempty : (List.replicate n ({} : NetworkThread)).flatMap NetworkThread.inHands = [] :=
    List.flatMap_eq_nil_iff.mpr fun t ht => by rw [hnone t ht]; rfl
  refine ⟨fun t ht _ => by rw [hnone t ht]; rfl, fun sock => ?_, nofun, fun _ t ht u hu => ?_, fun _ i _ t ht u hu => ?_⟩
  · show ((List.replicate n ({} : NetworkThread)).flatMap NetworkThread.inHands).count sock + 0 = _
    rw [hempty]
    rfl
  · rw [hnone t ht, hnone u hu]
    decide
  · rewrite [hnone t (List.mem_of_getElem? ht), hnone u hu]
    exact Int.le_refl _

theorem count_setThread (h : Inv s) (hcount : u.exited = false → u.connections = u.inHands.length) :
    ∀ v ∈ (s.setThread i u).threads, v.exited = false → v.connections = v.inHands.length := by
  intro v hv
  rcases List.mem_or_eq_of_mem_set hv with hv | rfl
  · exact h.count v hv
  · exact hcount

/-- The counts of the threads after one of them has changed without its count. -/
theorem connections_of_setThread (ht : s.threads[i]? = some t) (hconn : u.connections = t.connections) :
    ∀ v ∈ (s.setThread i u).threads, ∃ w ∈ s.threads, v.connections = w.connections := by
  intro v hv
  rcases List.mem_or_eq_of_mem_set hv with hv | rfl
  · exact ⟨v, hv, rfl⟩
  · exact ⟨t, List.mem_of_getElem? ht, hconn⟩

theorem getElem?_setThread (ht : s.threads[i]? = some t) (hconn : u.connections = t.connections) {j : Nat}
    {v : NetworkThread} (hv : (s.setThread i u).threads[j]? = some v) :
    ∃ w, s.threads[j]? = some w ∧ v.connections = w.connections := by
  obtain ⟨hlt, -⟩ := List.getElem?_eq_some_iff.mp ht
  change (s.threads.set i u)[j]? = some v at hv
  by_cases hij : i = j
  · subst hij
    rw [List.getElem?_set_self hlt] at hv
    cases hv
    exact ⟨t, ht, hconn⟩
  · rw [List.getElem?_set_ne hij] at hv
    exact ⟨v, hv, rfl⟩

/-- A thread moves sockets between its lists. -/
theorem Inv.same (h : Inv s) (ht : s.threads[i]? = some t) (hands : u.inHands.Perm t.inHands)
    (hconn : u.connections = t.connections) (hexited : u.exited = t.exited) : Inv (s.setThread i u) := by
  refine ⟨count_setThread h fun hu => ?_, h.owned.perm (flatMap_set_same ht hands), h.dead, fun hnone v hv w hw => ?_,
    fun hnone j hj v hv w hw => ?_⟩
  · rw [hconn, hands.length_eq]
    exact h.count t (List.mem_of_getElem? ht) (hexited.symm.trans hu)
  · obtain ⟨v', hv', hveq⟩ := connections_of_setThread ht hconn v hv
    obtain ⟨w', hw', hweq⟩ := connections_of_setThread ht hconn w hw
    rw [hveq, hweq]
    exact h.balanced hnone v' hv' w' hw'
  · obtain ⟨v', hv', hveq⟩ := getElem?_setThread ht hconn hv
    obtain ⟨w', hw', hweq⟩ := connections_of_setThread ht hconn w hw
    rw [hveq, hweq]
    exact h.least hnone j hj v' hv' w' hw'

/-- A thread removes a socket that is not open. -/
theorem Inv.remove (h : Inv s) (ht : s.threads[i]? = some t) {sock : Nat} (hands : t.inHands.Perm (sock :: u.inHands))
    (hconn : u.connections = t.connections - 1) (hexited : u.exited = t.exited) (hdead : isOpen s.states sock = false) :
    Inv { s.setThread i u with removed := s.removed ++ [sock] } := by
  have hsome : s.removed ++ [sock] ≠ [] := List.append_ne_nil_of_right_ne_nil _ (List.cons_ne_nil _ _)
  refine ⟨count_setThread h fun hu => ?_, ?_, fun p hp => ?_, fun hnone => absurd hnone hsome,
    fun hnone => absurd hnone hsome⟩
  · rw [hconn, h.count t (List.mem_of_getElem? ht) (hexited.symm.trans hu), hands.length_eq, List.length_cons]
    omega
  · refine (h.owned.perm (flatMap_set_lose (c := [sock]) ht hands).symm).free fun p => ?_
    show (s.removed ++ [sock]).count p + s.abandoned.count p = _
    rw [List.count_append]
    omega
  · rcases List.mem_append.mp hp with hp | hp
    · exact h.dead p hp
    · rw [List.mem_singleton.mp hp]
      exact hdead

/-- The next accept is for a thread with the fewest connections. -/
theorem Inv.acceptNext (h : Inv s) : Inv s.acceptNext := by
  refine ⟨h.count, h.owned, h.dead, h.balanced, fun _ i hi t ht => ?_⟩
  unfold SocketMgr.acceptNext at hi
  dsimp only at hi
  split_ifs at hi
  exact select_least (Option.some.inj hi) ht

/-- A thread gets a new socket. It was chosen when it had the fewest connections, and as long as no socket has been
removed it still has. -/
theorem Inv.add (h : Inv s) (ht : s.threads[i]? = some t) (hi : s.accepting = some i)
    (hu : t.addSocket s.states.length = some u) {state : SocketState} :
    Inv { s.setThread i u with states := s.states ++ [state], accepting := none } := by
  have hu' : u = { t with connections := t.connections + 1, newSockets := t.newSockets ++ [s.states.length] } := by
    unfold NetworkThread.addSocket at hu
    split at hu
    · cases hu
    · exact (Option.some.inj hu).symm
  have hands : u.inHands.Perm ([s.states.length] ++ t.inHands) := by
    rw [hu']
    unfold NetworkThread.inHands
    dsimp only
    rw [List.append_assoc (t.newSockets ++ _), List.append_assoc t.newSockets, List.append_assoc t.newSockets]
    exact List.perm_middle
  have hconn : u.connections = t.connections + 1 := by rw [hu']
  refine ⟨count_setThread h fun hexited => ?_, ?_, fun sock hsock => ?_, fun hnone v hv w hw => ?_, nofun⟩
  · have hexited' : t.exited = false := by rwa [hu'] at hexited
    rw [hconn, h.count t (List.mem_of_getElem? ht) hexited', hands.length_eq, List.length_append, List.length_singleton]
    omega
  · show Owned (s.states ++ [state]).length _ _
    rw [List.length_append, List.length_singleton]
    exact h.owned.alloc.perm (flatMap_set_gain ht hands)
  · change sock ∈ s.removed at hsock
    have hlt : sock < s.states.length := by
      have hsum : _ + (s.removed.count sock + s.abandoned.count sock) = _ := h.owned sock
      have := List.count_pos_iff.mpr hsock
      split_ifs at hsum with hlt
      · exact hlt
      · omega
    have hdead := h.dead sock hsock
    unfold isOpen at hdead ⊢
    dsimp only
    rwa [List.getD_eq_getElem?_getD, List.getElem?_append_left hlt, ← List.getD_eq_getElem?_getD]
  · change v ∈ s.threads.set i u at hv
    change w ∈ s.threads.set i u at hw
    have hleast := h.least hnone i hi t ht
    have hbalanced := h.balanced hnone
    rcases List.mem_or_eq_of_mem_set hv with hvmem | hveq
    · rcases List.mem_or_eq_of_mem_set hw with hwmem | hweq
      · exact hbalanced v hvmem w hwmem
      · have := hbalanced v hvmem t (List.mem_of_getElem? ht)
        rw [hweq]
        omega
    · rcases List.mem_or_eq_of_mem_set hw with hwmem | hweq
      · have := hleast w hwmem
        rw [hveq]
        omega
      · rw [hveq, hweq]
        omega

/-- A socket that is not open does not become open again. -/
theorem Inv.close (h : Inv s) {sock : Nat} {state state' : SocketState} (hstate : s.states[sock]? = some state)
    (hclosed : state.closed = true → state'.closed = true) (hclosing : state.closing = true → state'.closing = true) :
    Inv { s with states := s.states.set sock state' } := by
  refine ⟨h.count, ?_, fun p hp => ?_, h.balanced, h.least⟩
  · show Owned (s.states.set sock state').length _ _
    rw [List.length_set]
    exact h.owned
  · obtain ⟨hlt, hget⟩ := List.getElem?_eq_some_iff.mp hstate
    have hdead := h.dead p hp
    unfold isOpen at hdead ⊢
    dsimp only at hdead ⊢
    rw [List.getD_eq_getElem?_getD] at hdead ⊢
    by_cases hps : sock = p
    · subst hps
      rw [hstate] at hdead
      rw [List.getElem?_set_self hlt]
      revert hdead hclosed hclosing
      show (state.closed = true → _) → (state.closing = true → _) → (!state.closed && !state.closing) = false →
        (!state'.closed && !state'.closing) = false
      cases state.closed <;> cases state.closing <;> cases state'.closed <;> cases state'.closing <;> decide
    · rwa [List.getElem?_set_ne hps]

/-- A thread that ends lets go of its sockets. -/
theorem Inv.exit (h : Inv s) (ht : s.threads[i]? = some t) (hidle : t.phase = .idle) :
    Inv { s.setThread i { t with newSockets := [], sockets := [], exited := true } with
      abandoned := s.abandoned ++ (t.newSockets ++ t.sockets) } := by
  set u : NetworkThread := { t with newSockets := [], sockets := [], exited := true } with hu
  have hconn : u.connections = t.connections := rfl
  refine ⟨count_setThread h nofun, ?_, h.dead, fun hnone v hv w hw => ?_, fun hnone j hj v hv w hw => ?_⟩
  · have hands : t.inHands.Perm
        ((t.newSockets ++ t.sockets) ++ u.inHands) := by
      unfold NetworkThread.inHands
      rw [hu]
      dsimp only
      rw [hidle]
      exact List.Perm.refl _
    refine (h.owned.perm (flatMap_set_lose ht hands).symm).free fun p => ?_
    show s.removed.count p + (s.abandoned ++ (t.newSockets ++ t.sockets)).count p = _
    rw [List.count_append]
    omega
  · obtain ⟨v', hv', hveq⟩ := connections_of_setThread ht hconn v hv
    obtain ⟨w', hw', hweq⟩ := connections_of_setThread ht hconn w hw
    rw [hveq, hweq]
    exact h.balanced hnone v' hv' w' hw'
  · obtain ⟨v', hv', hveq⟩ := getElem?_setThread ht hconn hv
    obtain ⟨w', hw', hweq⟩ := connections_of_setThread ht hconn w hw
    rw [hveq, hweq]
    exact h.least hnone j hj v' hv' w' hw'

/-- A loop that keeps a socket. -/
theorem perm_looked_at (newSockets sockets rest : List Nat) (sock : Nat) :
    (newSockets ++ (sockets ++ [sock]) ++ rest).Perm (newSockets ++ sockets ++ (sock :: rest)) := by
  rw [List.append_assoc, List.append_assoc, List.append_assoc]
  exact List.Perm.refl _

theorem Inv.step {e : Event} {s' : SocketMgr} (h : Inv s) (hstep : s.step e = some s') : Inv s' := by
  cases e with
  | accepted success =>
    obtain ⟨i, hi, hstep⟩ := Option.bind_eq_some_iff.mp hstep
    cases success with
    | true =>
      obtain ⟨t, ht, hstep⟩ := Option.bind_eq_some_iff.mp hstep
      obtain ⟨u, hu, hstep⟩ := Option.bind_eq_some_iff.mp hstep
      cases hstep
      exact (h.add ht hi hu).acceptNext
    | false =>
      cases hstep
      exact h.acceptNext
  | closeSocket sock =>
    obtain ⟨state, hstate, hstep⟩ := Option.bind_eq_some_iff.mp hstep
    cases hstep
    exact h.close hstate (fun _ => rfl) id
  | delayedCloseSocket sock =>
    obtain ⟨state, hstate, hstep⟩ := Option.bind_eq_some_iff.mp hstep
    cases hstep
    exact h.close hstate id fun _ => rfl
  | update i =>
    obtain ⟨t, ht, hstep⟩ := Option.bind_eq_some_iff.mp hstep
    split at hstep
    · rename_i hphase
      split_ifs at hstep
      cases hstep
      refine h.same ht ?_ rfl rfl
      unfold NetworkThread.inHands
      rw [hphase]
      show ([] ++ t.sockets ++ t.newSockets).Perm (t.newSockets ++ t.sockets ++ [])
      rw [List.append_nil]
      exact List.perm_append_comm
    · cases hstep
  | addNext i =>
    obtain ⟨t, ht, hstep⟩ := Option.bind_eq_some_iff.mp hstep
    split at hstep
    · rename_i hphase
      cases hstep
      refine h.same ht ?_ rfl rfl
      unfold NetworkThread.inHands
      rw [hphase]
      show (t.newSockets ++ [] ++ t.sockets).Perm (t.newSockets ++ t.sockets ++ [])
      rw [List.append_nil, List.append_nil]
    · rename_i sock rest hphase
      split_ifs at hstep with hopen
      · cases hstep
        refine h.same ht ?_ rfl rfl
        unfold NetworkThread.inHands
        rw [hphase]
        exact perm_looked_at _ _ _ _
      · cases hstep
        refine h.remove ht ?_ rfl rfl (Bool.eq_false_iff.mpr hopen)
        unfold NetworkThread.inHands
        rw [hphase]
        exact List.perm_middle
    · cases hstep
  | sweepNext i =>
    obtain ⟨t, ht, hstep⟩ := Option.bind_eq_some_iff.mp hstep
    split at hstep
    · rename_i hphase
      cases hstep
      refine h.same ht ?_ rfl rfl
      unfold NetworkThread.inHands
      rw [hphase]
      exact List.Perm.refl _
    · rename_i sock rest hphase
      obtain ⟨state, hstate, hstep⟩ := Option.bind_eq_some_iff.mp hstep
      split_ifs at hstep with hclosed
      · cases hstep
        refine h.remove ht ?_ rfl rfl ?_
        · unfold NetworkThread.inHands
          rw [hphase]
          exact List.perm_middle
        · unfold isOpen
          rw [List.getD_eq_getElem?_getD, hstate]
          show (!state.closed && !state.closing) = false
          rw [hclosed]
          rfl
      · cases hstep
        refine h.same ht ?_ rfl rfl
        unfold NetworkThread.inHands
        rw [hphase]
        exact perm_looked_at _ _ _ _
    · cases hstep
  | close =>
    cases hstep
    exact ⟨h.count, h.owned, h.dead, h.balanced, h.least⟩
  | stop i =>
    obtain ⟨t, ht, hstep⟩ := Option.bind_eq_some_iff.mp hstep
    cases hstep
    exact h.same ht (List.Perm.refl _) rfl rfl
  | exit i =>
    obtain ⟨t, ht, hstep⟩ := Option.bind_eq_some_iff.mp hstep
    split at hstep
    · rename_i hphase
      split_ifs at hstep
      cases hstep
      exact h.exit ht hphase
    · cases hstep

/-- **The connections of a server socket**, in every run: the count of a thread is that of the sockets in its hands; every
socket that has been made is in the hands of one thread, or has been removed once, or was let go of when its thread
ended; what has been removed is not open; and until the first socket is removed the counts of two threads differ by one
at most. -/
theorem connections_of_run {h : History SocketMgr Event} (hrun : system.Run h s) :
    (∀ t ∈ s.threads, t.exited = false → t.connections = t.inHands.length) ∧
      (∀ sock, (s.threads.flatMap NetworkThread.inHands).count sock + (s.removed.count sock + s.abandoned.count sock) =
        if sock < s.states.length then 1 else 0) ∧
      (∀ sock ∈ s.removed, isOpen s.states sock = false) ∧
      (s.removed = [] → ∀ t ∈ s.threads, ∀ u ∈ s.threads, t.connections ≤ u.connections + 1) := by
  have hinv : Inv s := by
    refine hrun.invariant (I := fun _ s => Inv s) (fun s hs => inv_init hs) ?_
    intro _ s e s' _ hinv _ hstep
    exact hinv.step hstep
  exact ⟨hinv.count, hinv.owned, hinv.dead, hinv.balanced⟩

/-- Two threads and three sockets, the first of which is closed while its thread looks at it. -/
theorem connections_of_run_three : ∃ s : SocketMgr,
    (s.removed, s.threads.map NetworkThread.connections) = ([0], [1, 1]) ∧
      ∀ t ∈ s.threads, t.exited = false → t.connections = t.inHands.length := by
  obtain ⟨_, s, hrun, hs⟩ := System.exists_run_exec
    (fun s : SocketMgr => (s.removed, s.threads.map NetworkThread.connections))
    [.accepted true, .accepted false, .accepted true, .update 0, .addNext 0, .closeSocket 0, .addNext 0, .accepted true,
      .sweepNext 0, .sweepNext 0]
    (System.RunWhere.init (C := fun _ _ _ => True) (S := system) ⟨2, by decide, rfl⟩) (a := ([0], [1, 1]))
    (by decide +kernel)
  exact ⟨s, hs, (connections_of_run hrun).1⟩

end SocketMgr

end RZEmulator.Shared
