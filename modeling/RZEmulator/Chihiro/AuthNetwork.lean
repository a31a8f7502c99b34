import RZEmulator.Mononoke.Logins

/-!
# Entering the game server

A client that was given a one-time key sends it to the game server in `TS_CS_ACCOUNT_WITH_AUTH`. The
game server has one connection to the authentication server for all its clients: it asks there with
`TS_GA_CLIENT_LOGIN`, notes in `m_queue` which session asked for the account, and hands the answer
`TS_AG_CLIENT_LOGIN` to the session that the account is noted for. The answer goes through the same
`ProcessIncoming` as the client's own packets.

The connection delivers in order, in both directions. A message on it is kept together with the session
it was sent for, which is what one wants to know about it; no handler reads that. The authentication
server at its other end is the one of `Mononoke`, where the connection is the session `me`, and it goes
on serving everybody else (`Event.auth`).

The packets of authenticated clients neither read nor write what is kept here and are left out. The
permission on the wire is the 32 bit pattern of the player's and of the session's, so it arrives
unchanged. Account names fit their fields.
-/

namespace RZEmulator.Chihiro.AuthNetwork

open Mononoke (Name GameId)
open Mononoke.State (LoginAnswer)

abbrev SessionId := Nat

structure WorldSession where
  isAuthed : Bool := false
  accountId : Nat := 0
  accountName : Name := []
  nPermission : Int := 0
  deriving DecidableEq

/-- The packets that are handled before a session is authenticated. -/
inductive ClientPacket
  /-- `TS_AG_CLIENT_LOGIN`, whoever sends it. -/
  | authResult (answer : LoginAnswer)
  /-- `TS_CS_ACCOUNT_WITH_AUTH`. -/
  | accountWithAuth (account : Name) (oneTimeKey : Nat)

/-- `TS_GA_CLIENT_LOGIN`, and the session that it is sent for. -/
structure Request where
  sender : SessionId
  account : Name
  oneTimeKey : Nat
  deriving DecidableEq

inductive AuthMessage
  | login (request : Request)
  /-- `TS_GA_CLIENT_LOGOUT`. -/
  | logout (account : Name)

/-- `TS_AG_CLIENT_LOGIN`, and the request that it answers. -/
structure Reply where
  request : Request
  answer : LoginAnswer
  deriving DecidableEq

structure State where
  auth : Mononoke.State
  sessions : SessionId → Option WorldSession
  nextSession : SessionId
  /-- `GameAuthSession::m_queue`. -/
  queue : Name → Option SessionId
  toAuth : List AuthMessage
  toGame : List Reply

inductive Event
  | connect
  | packet (c : SessionId) (p : ClientPacket)
  | close (c : SessionId)
  /-- The authentication server handles the next message of the game server. -/
  | atAuth
  /-- The game server handles the next reply. -/
  | atGame
  /-- The authentication server does something else. -/
  | auth (e : Mononoke.Event)

/-- `WorldSession::onAuthResult`. -/
def WorldSession.onAuthResult (ws : WorldSession) (answer : LoginAnswer) : WorldSession :=
  if answer.success then ⟨true, answer.nAccountID, answer.account, answer.permission⟩ else ws

namespace State

/-- The game server starts, next to an authentication server. -/
def start : State where
  auth := .start
  sessions _ := none
  nextSession := 0
  queue _ := none
  toAuth := []
  toGame := []

def setSession (s : State) (c : SessionId) (x : Option WorldSession) : State :=
  { s with sessions := fun k => if k = c then x else s.sessions k }

def setQueue (s : State) (a : Name) (x : Option SessionId) : State :=
  { s with queue := fun b => if b = a then x else s.queue b }

/-- `GameAuthSession::AccountToAuth`. -/
def accountToAuth (s : State) (c : SessionId) (account : Name) (oneTimeKey : Nat) : State :=
  { s.setQueue account (some c) with toAuth := s.toAuth ++ [.login ⟨c, account, oneTimeKey⟩] }

/-- `WorldSession::onAccountWithAuth`. -/
def onAccountWithAuth (s : State) (c : SessionId) (account : Name) (oneTimeKey : Nat) : State :=
  s.accountToAuth c (account.map Char.toLower) oneTimeKey

/-- `WorldSession::ProcessIncoming`. -/
def processIncoming (s : State) (c : SessionId) (ws : WorldSession) : ClientPacket → State
  | .authResult answer => s.setSession c (some (ws.onAuthResult answer))
  | .accountWithAuth account oneTimeKey => s.onAccountWithAuth c account oneTimeKey

/-- `GameAuthSession::HandleClientLoginResult`. The session that the account is noted for may be gone:
then the code calls a function of a freed object, and there is no result. -/
def handleClientLoginResult (s : State) (answer : LoginAnswer) : Option State :=
  match s.queue answer.account with
  | none => some s
  | some c => (s.sessions c).map fun ws =>
      (s.processIncoming c ws (.authResult answer)).setQueue answer.account none

/-- `WorldSession::OnClose`. -/
def onClose (s : State) (c : SessionId) (ws : WorldSession) : State :=
  { s.setSession c none with
    toAuth := if ws.accountName.length > 0 then s.toAuth ++ [.logout ws.accountName] else s.toAuth }

/-- The authentication server handles a message of the session `me`, and answers a request if the
session is registered. -/
def handleAuthMessage (s : State) (me : GameId) : AuthMessage → State
  | .login r =>
    { s with
      auth := s.auth.step (.clientLogin me r.account r.oneTimeKey)
      toGame := if s.auth.isAuthedGame me then
          s.toGame ++ [⟨r, s.auth.clientLoginAnswer r.account r.oneTimeKey⟩]
        else s.toGame }
  | .logout account => { s with auth := s.auth.step (.clientLogout me account) }

end State

/-- What the session `me` sends on the connection is not an event of its own. -/
def onConnection (me : GameId) : Mononoke.Event → Bool
  | .clientLogin g _ _ => g = me
  | .clientLogout g _ => g = me
  | _ => false

def State.step (me : GameId) (s : State) : Event → Option State
  | .connect => some { s.setSession s.nextSession (some {}) with nextSession := s.nextSession + 1 }
  | .packet c p => (s.sessions c).map fun ws => s.processIncoming c ws p
  | .close c => (s.sessions c).map fun ws => s.onClose c ws
  | .atAuth =>
    match s.toAuth with
    | [] => none
    | m :: ms => some ({ s with toAuth := ms }.handleAuthMessage me m)
  | .atGame =>
    match s.toGame with
    | [] => none
    | r :: rs => { s with toGame := rs }.handleClientLoginResult r.answer
  | .auth e => if onConnection me e then none else some { s with auth := s.auth.step e }

/-- The game server whose connection is the session `me` of the authentication server. -/
def gameServer (me : GameId) : Lib.System State Event := .ofFun (· = .start) (State.step me)

end RZEmulator.Chihiro.AuthNetwork
