import Mathlib.Algebra.Ring.Int.Defs
import Mathlib.Data.List.AList

/-!
# The authentication server's state

Two kinds of connections meet here, those of clients and those of game servers. A client session and
the global `PlayerList` share the `Player` object of a login by a raw pointer, so players live on an
explicit heap: an address is allocated once, `delete` empties it, and what the code does with an empty
address is recorded as a `Fault` and otherwise skipped. A game server's `Game` belongs to its session,
which allocates it in the constructor and deletes it in the destructor, and is therefore named by the
session.

A `std::string` is the list of its characters. Address, port and picture of a game server and a
player's last server are only passed on to clients and are left out.
-/

namespace RZEmulator.Mononoke

abbrev Name := List Char

/-- The address of a `Player`. -/
abbrev PlayerPtr := Nat

abbrev ClientId := Nat

/-- A game server's session, which also names the session's `Game`. -/
abbrev GameId := Nat

structure Player where
  nAccountID : Nat := 0
  szLoginName : Name := []
  bIsBlocked : Bool := false
  bIsInGame : Bool := false
  nOneTimeKey : Nat := 0
  nGameIDX : Int := -1
  nPermission : Int := 0

structure AuthClientSession where
  isAuthed : Bool := false
  pPlayer : Option PlayerPtr := none
  deriving DecidableEq

structure Game where
  serverIdx : Nat := 255
  serverName : Name := ['<', 'n', 'u', 'l', 'l', '>']

structure AuthGameSession where
  game : Game := {}
  bIsAuthed : Bool := false
  isOpen : Bool := true

/-- Undefined behaviour that a step ran into. -/
inductive Fault
  /-- A deleted player is read or written. -/
  | playerUse
  /-- A deleted player is deleted again. -/
  | playerFree
  /-- The `Game` of a destroyed session is read. -/
  | gameUse
  /-- The player map is changed under a loop that runs over it. -/
  | iterator
  deriving DecidableEq, Repr

structure State where
  heap : PlayerPtr → Option Player
  nextPlayer : PlayerPtr
  /-- `PlayerList`. -/
  players : AList fun _ : Name => PlayerPtr
  /-- `GameList`. -/
  games : Nat → Option GameId
  clients : ClientId → Option AuthClientSession
  nextClient : ClientId
  gameSessions : GameId → Option AuthGameSession
  nextGame : GameId
  faults : List Fault

namespace State

/-- The server before the first connection. -/
def start : State where
  heap _ := none
  nextPlayer := 0
  players := ∅
  games _ := none
  clients _ := none
  nextClient := 0
  gameSessions _ := none
  nextGame := 0
  faults := []

def setHeap (s : State) (p : PlayerPtr) (x : Option Player) : State :=
  { s with heap := fun q => if q = p then x else s.heap q }

def setClient (s : State) (c : ClientId) (x : Option AuthClientSession) : State :=
  { s with clients := fun k => if k = c then x else s.clients k }

def setGameSession (s : State) (g : GameId) (x : Option AuthGameSession) : State :=
  { s with gameSessions := fun k => if k = g then x else s.gameSessions k }

def fault (s : State) (f : Fault) : State := { s with faults := f :: s.faults }

/-! ## `PlayerList` and `GameList` -/

def getPlayer (s : State) (account : Name) : Option PlayerPtr := s.players.lookup account

def addPlayer (s : State) (account : Name) (p : PlayerPtr) : State :=
  { s with players := s.players.insert account p }

def removePlayer (s : State) (account : Name) : State :=
  { s with players := s.players.erase account }

def getGame (s : State) (idx : Nat) : Option GameId := s.games idx

def addGame (s : State) (idx : Nat) (g : GameId) : State :=
  { s with games := fun k => if k = idx then some g else s.games k }

def removeGame (s : State) (idx : Nat) : State :=
  { s with games := fun k => if k = idx then none else s.games k }

/-- `new Player` with the given contents. -/
def newPlayer (s : State) (pl : Player) : State :=
  { s.setHeap s.nextPlayer (some pl) with nextPlayer := s.nextPlayer + 1 }

/-- `delete` of a player. -/
def deletePlayer (s : State) (p : PlayerPtr) : State :=
  match s.heap p with
  | none => s.fault .playerFree
  | some _ => s.setHeap p none

/-- A write through a player pointer. -/
def updPlayer (s : State) (p : PlayerPtr) (f : Player → Player) : State :=
  match s.heap p with
  | none => s.fault .playerUse
  | some pl => s.setHeap p (some (f pl))

section Lemmas

variable (s : State) (p q : PlayerPtr) (c k : ClientId) (g j : GameId) (a b : Name) (i : Nat)
  (x : Option Player) (xc : Option AuthClientSession) (xg : Option AuthGameSession)

theorem setHeap_heap : (s.setHeap p x).heap q = if q = p then x else s.heap q := rfl

theorem setClient_clients : (s.setClient c xc).clients k = if k = c then xc else s.clients k := rfl

theorem setGameSession_gameSessions :
    (s.setGameSession g xg).gameSessions j = if j = g then xg else s.gameSessions j := rfl

theorem setGameSession_setGameSession (yg : Option AuthGameSession) :
    (s.setGameSession g xg).setGameSession g yg = s.setGameSession g yg := by
  simp only [setGameSession]
  congr 1
  funext k
  split_ifs <;> rfl

@[simp] theorem getPlayer_setHeap : (s.setHeap p x).getPlayer a = s.getPlayer a := rfl
@[simp] theorem getPlayer_setClient : (s.setClient c xc).getPlayer a = s.getPlayer a := rfl
@[simp] theorem getPlayer_newPlayer (pl : Player) : (s.newPlayer pl).getPlayer a = s.getPlayer a := rfl

theorem getPlayer_addPlayer :
    (s.addPlayer a p).getPlayer b = if b = a then some p else s.getPlayer b := by
  unfold getPlayer addPlayer
  split_ifs with h
  · rw [h, AList.lookup_insert]
  · exact AList.lookup_insert_ne h

theorem getPlayer_removePlayer :
    (s.removePlayer a).getPlayer b = if b = a then none else s.getPlayer b := by
  unfold getPlayer removePlayer
  split_ifs with h
  · rw [h, AList.lookup_erase]
  · exact AList.lookup_erase_ne h

theorem mem_entries_iff : Sigma.mk a p ∈ s.players.entries ↔ s.getPlayer a = some p := by
  rw [getPlayer, ← Option.mem_def, AList.mem_lookup_iff]

@[simp] theorem getPlayer_deletePlayer : (s.deletePlayer p).getPlayer a = s.getPlayer a := by
  unfold deletePlayer
  split <;> rfl

theorem deletePlayer_heap : (s.deletePlayer p).heap q = if q = p then none else s.heap q := by
  unfold deletePlayer
  split
  · rename_i hnone
    split_ifs with h
    · exact h ▸ hnone
    · rfl
  · rfl

end Lemmas

end State

end RZEmulator.Mononoke
