import Mathlib.Algebra.Ring.Nat
import Mathlib.Algebra.Ring.Int.Defs
import Mathlib.Data.List.AList
import RZEmulator.Lib.MachineInt
import RZEmulator.Lib.Run

/-!
# Parties

Who is in a party is stored three times: in the member list of the party, in the `PARTY_ID` of a
player who is logged in, and in the tables `Party` and `Character` of the database. This file has the
operations on the three as the code performs them: the chat commands of the players, the login and the
logout, the saving of a player, and a restart of the server, which reads the parties back from the
database.

A player is known by the name he logged in with, which matches the name of his character up to case.
Statements to the database are taken to be executed in the order in which they are issued.
-/

namespace RZEmulator.Chihiro

open Lib

/-- The table `Character`: its keys, and the names, which differ by more than case. -/
structure Characters (N : Type) where
  sids : List Nat
  nodup : sids.Nodup
  name : Nat → N
  /-- Equality of names up to case. -/
  iequals : N → N → Bool
  iequals_symm : ∀ a b, iequals a b = true → iequals b a = true
  iequals_trans : ∀ a b c, iequals a b = true → iequals b c = true → iequals a c = true
  distinct : ∀ a ∈ sids, ∀ b ∈ sids, iequals (name a) (name b) = true → a = b

namespace GroupManager

structure PartyMemberTag (N : Type) where
  bIsOnline : Bool
  sid : Nat
  strName : N
  pPlayer : Option Nat

structure PartyInfo (N : Type) where
  nPartyPassword : Nat
  nPartyID : Int
  nLeaderSID : Nat
  strPartyName : N
  strLeaderName : N
  vMemberNameList : List (PartyMemberTag N)

/-- What the parties use of a `Player`: `handle` stands for the pointer to it. -/
structure Player (N : Type) where
  handle : Nat
  sid : Nat
  name : N
  partyID : Int

/-- A row of the table `Party`. -/
structure PartyRow (N : Type) where
  name : N
  leader_id : Nat

/-- The group manager, the players who are logged in, the table `Party` and the column `party_id` of the
table `Character`. -/
structure State (N : Type) where
  m_nMaxPartyID : Nat
  m_hshPartyID : AList fun _ : Int => PartyInfo N
  players : List (Player N)
  Party : AList fun _ : Int => PartyRow N
  party_id : Nat → Int

variable {N : Type} [DecidableEq N] [Inhabited N] (chars : Characters N)

namespace State

def getPartyInfo (w : State N) (nPartyID : Int) : Option (PartyInfo N) := w.m_hshPartyID.lookup nPartyID

def setPartyInfo (w : State N) (nPartyID : Int) (info : PartyInfo N) : State N :=
  { w with m_hshPartyID := w.m_hshPartyID.insert nPartyID info }

def player (w : State N) (h : Nat) : Option (Player N) := w.players.find? (·.handle = h)

/-- `SetInt32Value(PLAYER_FIELD_PARTY_ID, v)`. -/
def setPartyID (w : State N) (h : Nat) (v : Int) : State N :=
  { w with players := w.players.map fun p => if p.handle = h then { p with partyID := v } else p }

/-! ## The group manager -/

/-- `GroupManager::JoinParty`; without a result it returns false and changes nothing. -/
def joinParty (w : State N) (nPartyID : Int) (pPlayer : Player N) (nPass : Nat) : Option (State N) :=
  (w.getPartyInfo nPartyID).bind fun info =>
    if 8 ≤ info.vMemberNameList.length ∨ nPass ≠ info.nPartyPassword then none
    else
      let tag := ⟨true, pPlayer.sid, pPlayer.name, some pPlayer.handle⟩
      some ((w.setPartyInfo nPartyID
        { info with vMemberNameList := info.vMemberNameList ++ [tag] }).setPartyID pPlayer.handle nPartyID)

/-- `GroupManager::AddGroupToDatabase`: the insertion fails if the key exists. -/
def addGroupToDatabase (w : State N) (info : PartyInfo N) : State N :=
  if (w.Party.lookup info.nPartyID).isSome then w
  else { w with Party := w.Party.insert info.nPartyID ⟨info.strPartyName, info.nLeaderSID⟩ }

/-- `GroupManager::CreateParty`, with the password it draws; without a result it returns `-1` and changes
nothing. -/
def createParty (w : State N) (pPlayer : Player N) (szName : N) (password : Nat) :
    Option (State N × Int) :=
  if w.m_hshPartyID.entries.any fun party => party.2.strPartyName = szName then none
  else
    let nPartyID := narrow32 ((w.m_nMaxPartyID + 1 : Nat) : Int)
    let partyInfo : PartyInfo N := ⟨password, nPartyID, pPlayer.sid, szName, pPlayer.name, []⟩
    let w := { w with m_nMaxPartyID := w.m_nMaxPartyID + 1 }.setPartyInfo nPartyID partyInfo
    let w := (w.joinParty nPartyID pPlayer password).getD w
    some (w.addGroupToDatabase partyInfo, nPartyID)

/-- A member who is online leaves the party that is destroyed. -/
def dismiss (w : State N) (tag : PartyMemberTag N) : State N :=
  match tag.pPlayer with
  | some pPlayer => if tag.bIsOnline then w.setPartyID pPlayer 0 else w
  | none => w

/-- `GroupManager::DestroyParty`. -/
def destroyParty (w : State N) (nPartyID : Int) : State N :=
  let tags := ((w.getPartyInfo nPartyID).map (·.vMemberNameList)).getD []
  let w := tags.foldl dismiss w
  { w with Party := w.Party.erase nPartyID, m_hshPartyID := w.m_hshPartyID.erase nPartyID }

/-- `GroupManager::LeaveParty`; without a result it returns false and changes nothing. -/
def leaveParty (w : State N) (nPartyID : Int) (szName : N) : Option (State N) :=
  (w.getPartyInfo nPartyID).bind fun info =>
    if chars.iequals info.strLeaderName szName then none
    else some (w.setPartyInfo nPartyID { info with
      vMemberNameList := info.vMemberNameList.eraseP fun it => chars.iequals szName it.strName })

/-- Changes the tags of a party that bear a name. -/
def retag (w : State N) (nPartyID : Int) (szName : N) (f : PartyMemberTag N → PartyMemberTag N) :
    State N :=
  match w.getPartyInfo nPartyID with
  | none => w
  | some info => w.setPartyInfo nPartyID { info with
      vMemberNameList := info.vMemberNameList.map fun tag =>
        if chars.iequals tag.strName szName then f tag else tag }

/-- `GroupManager::onLogin`. -/
def onLogin (w : State N) (nPartyID : Int) (pPlayer : Player N) : State N :=
  w.retag chars nPartyID pPlayer.name
    ({ · with bIsOnline := true, pPlayer := some pPlayer.handle })

/-- `GroupManager::onLogout`. -/
def onLogout (w : State N) (nPartyID : Int) (pPlayer : Player N) : State N :=
  w.retag chars nPartyID pPlayer.name ({ · with bIsOnline := false, pPlayer := none })

/-- `GroupManager::IsLeader`. -/
def isLeader (w : State N) (nPartyID : Int) (szPlayerName : N) : Bool :=
  ((w.getPartyInfo nPartyID).map fun info => decide (info.strLeaderName = szPlayerName)).getD false

/-- `GroupManager::LoadPartyInfo`, for a row of the table `Party`. The password is not stored. -/
def loadPartyInfo (w : State N) (nPartyID : Int) (row : PartyRow N) : PartyInfo N :=
  let sids := chars.sids.filter fun sid => w.party_id sid = nPartyID
  { nPartyPassword := 0
    nPartyID := nPartyID
    nLeaderSID := row.leader_id
    strPartyName := row.name
    strLeaderName := if row.leader_id ∈ sids then chars.name row.leader_id else default
    vMemberNameList := sids.map fun sid => ⟨false, sid, chars.name sid, none⟩ }

/-- `GroupManager::InitGroupSystem`, in a server that has just started. -/
def initGroupSystem (w : State N) : State N :=
  { w with
    players := []
    m_nMaxPartyID := w.Party.keys.foldr (fun sid m => max sid.toNat m) 0
    m_hshPartyID := w.Party.entries.foldl (fun m row => m.insert row.1 (w.loadPartyInfo chars row.1 row.2)) ∅ }

/-! ## The players -/

/-- `Player::Save`, as far as the parties are concerned. -/
def save (w : State N) (p : Player N) : State N :=
  { w with party_id := fun sid => if sid = p.sid then p.partyID else w.party_id sid }

/-- `Player::ReadCharacter` and `SendLoginProperties`, with the player at `h`. -/
def login (w : State N) (sid : Nat) (szName : N) (h : Nat) : State N :=
  if sid ∈ chars.sids ∧ chars.iequals szName (chars.name sid) = true then
    let p : Player N := ⟨h, sid, szName, w.party_id sid⟩
    let w := { w with players := p :: w.players }
    if p.partyID ≠ 0 then w.onLogin chars p.partyID p else w
  else w

/-- `LogoutNow`, `CleanupsBeforeDelete` and the deletion of the player. -/
def logout (w : State N) (p : Player N) : State N :=
  let w := w.save p
  let w := if p.partyID ≠ 0 then w.onLogout chars p.partyID p else w
  { w with players := w.players.filter (·.handle ≠ p.handle) }

/-- `/pcreate`. -/
def onCreateParty (w : State N) (p : Player N) (partyName : N) (password : Nat) : State N :=
  if p.partyID ≠ 0 then w
  else ((w.createParty p partyName password).map fun r => r.1.setPartyID p.handle r.2).getD w

/-- `/pjoin`. -/
def onJoinParty (w : State N) (p : Player N) (partyID : Int) (partyPW : Nat) : State N :=
  if p.partyID ≠ 0 then w else (w.joinParty partyID p partyPW).getD w

/-- `/pdestroy`. -/
def onPartyDestroy (w : State N) (p : Player N) : State N :=
  if p.partyID ≠ 0 ∧ w.isLeader p.partyID p.name = false then w else w.destroyParty p.partyID

/-- `/pleave`. -/
def onLeaveParty (w : State N) (p : Player N) : State N :=
  if p.partyID = 0 then w
  else ((w.leaveParty chars p.partyID p.name).map (·.setPartyID p.handle 0)).getD w

end State

/-! ## Runs -/

/-- What happens; `h` is the handle of the player who acts. -/
inductive Event (N : Type)
  | login (sid : Nat) (szName : N) (h : Nat)
  | logout (h : Nat)
  | save (h : Nat)
  | onCreateParty (h : Nat) (partyName : N) (password : Nat)
  | onJoinParty (h : Nat) (partyID : Int) (partyPW : Nat)
  | onPartyDestroy (h : Nat)
  | onLeaveParty (h : Nat)
  | restart

open State in
/-- A player who acts is logged in, and a new player is not one that exists. -/
def step (w : State N) : Event N → Option (State N)
  | .login sid szName h => if (w.player h).isSome then none else some (w.login chars sid szName h)
  | .logout h => (w.player h).map fun p => w.logout chars p
  | .save h => (w.player h).map w.save
  | .onCreateParty h partyName password =>
    (w.player h).map fun p => w.onCreateParty p partyName password
  | .onJoinParty h partyID partyPW => (w.player h).map fun p => w.onJoinParty p partyID partyPW
  | .onPartyDestroy h => (w.player h).map fun p => w.onPartyDestroy p
  | .onLeaveParty h => (w.player h).map fun p => w.onLeaveParty chars p
  | .restart => some (w.initGroupSystem chars)

/-- A new server with an empty table `Party`. -/
def Init (w : State N) : Prop :=
  w.players = [] ∧ w.m_hshPartyID = ∅ ∧ w.Party = ∅ ∧ w.m_nMaxPartyID = 0 ∧ ∀ sid, w.party_id sid = 0

abbrev system : System (State N) (Event N) := .ofFun Init (step chars)

end GroupManager

end RZEmulator.Chihiro
