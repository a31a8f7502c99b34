import RZEmulator.Lib.Run
import RZEmulator.Mononoke.State

/-!
# The authentication server's handlers

The packet handlers of `AuthClientSession` and `AuthGameSession` with what connecting, closing and
destroying a session do, one event each. Handlers run one at a time. A client session is gone once it
is closed. A game server's session lives on after `OnClose` until it is destroyed; it may still handle
packets of the buffer in which it was closed, and its socket closes once only.

What a handler answers is a function of the state before it (`clientLoginAnswer`,
`selectServerAnswer`), so that a history of states is a record of the answers as well.
-/

namespace RZEmulator.Mononoke

/-- A row of `LOGIN_GET_ACCOUNT`. -/
structure AccountRow where
  nAccountID : Nat
  szLoginName : Name
  bIsBlocked : Bool
  nPermission : Int

/-- Four results of `rand32`. -/
abbrev Rands := Int × Int × Int × Int

inductive Event
  | clientConnect
  /-- `TS_CA_ACCOUNT` and the row that the database has for its name and password. -/
  | account (c : ClientId) (row : Option AccountRow)
  /-- `TS_CA_SELECT_SERVER`. -/
  | selectServer (c : ClientId) (serverIdx : Nat) (rands : Rands)
  | clientClose (c : ClientId)
  | gameConnect
  /-- `TS_GA_LOGIN`. -/
  | gameLogin (g : GameId) (serverIdx : Nat) (serverName : Name)
  /-- `TS_GA_CLIENT_LOGIN`. -/
  | clientLogin (g : GameId) (account : Name) (oneTimeKey : Nat)
  /-- `TS_GA_CLIENT_LOGOUT`. -/
  | clientLogout (g : GameId) (account : Name)
  /-- `TS_GA_CLIENT_KICK_FAILED`. -/
  | clientKickFailed (g : GameId) (account : Name)
  | gameClose (g : GameId)
  | gameDestroy (g : GameId)

/-- The product of four `int32_t` as a `uint64_t`. -/
def oneTimeKeyOf : Rands → Nat
  | (r₁, r₂, r₃, r₄) => (r₁ * r₂ * r₃ * r₄ % 2 ^ 64).toNat

/-- `(uint32_t)nGameIDX`. -/
def gameKey (nGameIDX : Int) : Nat := (nGameIDX % 2 ^ 32).toNat

namespace State

/-! ## Client sessions -/

/-- The player object that `HandleLoginPacket` fills from a row. -/
def playerOf (row : AccountRow) : Player :=
  { nAccountID := row.nAccountID
    szLoginName := row.szLoginName.map Char.toLower
    bIsBlocked := row.bIsBlocked
    nPermission := row.nPermission }

/-- The game server that is told to kick the old player, if it is told. -/
def kickTarget (s : State) (old : Player) : Option GameId :=
  if old.bIsInGame then s.getGame (gameKey old.nGameIDX) else none

/-- The entry of an earlier login is removed and deleted. The game server that `KickPlayer` sends to is
found through its `Game`. -/
def dropOldPlayer (s : State) (old : PlayerPtr) : State :=
  match s.heap old with
  | none => (s.fault .playerUse).fault .playerFree
  | some pl =>
    let s' := match s.kickTarget pl with
      | none => s
      | some g => if (s.gameSessions g).isNone then s.fault .gameUse else s
    (s'.removePlayer pl.szLoginName).deletePlayer old

/-- The entry under a name, if there is one, makes way for a new login. -/
def dropOldEntry (s : State) (account : Name) : State :=
  match s.getPlayer account with
  | none => s
  | some old => s.dropOldPlayer old

/-- The session `c` points to the player object that was made for the login. -/
def startLogin (s : State) (c : ClientId) (row : AccountRow) (isAuthed : Bool) : State :=
  (s.newPlayer (playerOf row)).setClient c (some ⟨isAuthed, some s.nextPlayer⟩)

/-- `AuthClientSession::HandleLoginPacket`. The session points to the new player before it is known
whether the account is blocked. -/
def handleLoginPacket (s : State) (c : ClientId) (row : Option AccountRow) : State :=
  match s.clients c, row with
  | some cs, some row =>
    if row.bIsBlocked then s.startLogin c row cs.isAuthed
    else
      ((s.startLogin c row true).dropOldEntry (playerOf row).szLoginName).addPlayer
        (playerOf row).szLoginName s.nextPlayer
  | _, _ => s

/-- `AuthClientSession::HandleSelectServer`, which is for sessions that are authenticated. -/
def handleSelectServer (s : State) (c : ClientId) (serverIdx : Nat) (rands : Rands) : State :=
  match s.clients c with
  | some ⟨true, some p⟩ =>
    s.updPlayer p fun pl =>
      { pl with nGameIDX := serverIdx, nOneTimeKey := oneTimeKeyOf rands, bIsInGame := true }
  | some ⟨true, none⟩ => s.fault .playerUse
  | _ => s

/-- What `TS_AC_SELECT_SERVER` carries: the key, where the server exists. -/
def selectServerAnswer (s : State) (serverIdx : Nat) (rands : Rands) : Option Nat :=
  if (s.getGame (gameKey serverIdx)).isSome then some (oneTimeKeyOf rands) else none

/-- `AuthClientSession::OnClose`. -/
def onClientClose (s : State) (p : PlayerPtr) : State :=
  match s.heap p with
  | none => s.fault .playerUse
  | some pl =>
    match s.getPlayer pl.szLoginName with
    | none => s
    | some entry =>
      match s.heap entry with
      | none => s.fault .playerUse
      | some epl =>
        if epl.nAccountID = pl.nAccountID ∧ ¬epl.bIsInGame then
          (s.removePlayer epl.szLoginName).deletePlayer p
        else s

def handleClientClose (s : State) (c : ClientId) : State :=
  match s.clients c with
  | none => s
  | some cs =>
    (match cs.pPlayer with
      | none => s
      | some p => s.onClientClose p).setClient c none

/-! ## Game server sessions -/

/-- One round of the loop in `AuthGameSession::OnClose`. -/
def closePlayer (idx : Nat) (s : State) (p : PlayerPtr) : State :=
  match s.heap p with
  | none => s.fault .playerUse
  | some pl =>
    if pl.nGameIDX = idx then
      ((s.removePlayer pl.szLoginName).deletePlayer p).fault .iterator
    else s

/-- The loop itself, which runs over the map it changes. -/
def closePlayers (s : State) (idx : Nat) : State :=
  s.players.entries.foldl (fun s e => s.closePlayer idx e.2) s

/-- `AuthGameSession::OnClose`. The names of two `Game` objects are compared; with the one of a
destroyed session there is nothing to compare. -/
def onGameClose (s : State) (game : Game) : State :=
  match s.getGame game.serverIdx with
  | none => s
  | some g =>
    match s.gameSessions g with
    | none => s.fault .gameUse
    | some gs =>
      if gs.game.serverName = game.serverName then
        (s.closePlayers gs.game.serverIdx).removeGame gs.game.serverIdx
      else s

/-- `CloseSocket`: the first call closes. -/
def closeSocket (s : State) (g : GameId) : State :=
  match s.gameSessions g with
  | none => s
  | some gs =>
    if gs.isOpen then (s.setGameSession g (some ⟨gs.game, gs.bIsAuthed, false⟩)).onGameClose gs.game else s

/-- `AuthGameSession::HandleGameLogin`: the session's `Game` is overwritten before the index is
looked up. -/
def handleGameLogin (s : State) (g : GameId) (serverIdx : Nat) (serverName : Name) : State :=
  match s.gameSessions g with
  | none => s
  | some gs =>
    match s.getGame serverIdx with
    | none =>
      (s.setGameSession g (some ⟨⟨serverIdx, serverName⟩, true, gs.isOpen⟩)).addGame serverIdx g
    | some _ =>
      (s.setGameSession g (some ⟨⟨serverIdx, serverName⟩, false, gs.isOpen⟩)).closeSocket g

/-- A packet of status `STATUS_AUTHED` is handled. -/
def isAuthedGame (s : State) (g : GameId) : Bool :=
  match s.gameSessions g with
  | none => false
  | some gs => gs.bIsAuthed

/-- The entry a `TS_GA_CLIENT_LOGIN` opens: that of the account, if the key is the stored one. -/
def acceptedEntry (s : State) (account : Name) (oneTimeKey : Nat) : Option PlayerPtr :=
  (s.getPlayer account).filter fun p => (s.heap p).any fun pl => pl.nOneTimeKey = oneTimeKey

/-- `TS_AG_CLIENT_LOGIN`. -/
structure LoginAnswer where
  account : Name
  nAccountID : Nat
  success : Bool
  permission : Int
  deriving DecidableEq

/-- What `HandleClientLogin` answers. -/
def clientLoginAnswer (s : State) (account : Name) (oneTimeKey : Nat) : LoginAnswer :=
  match (s.getPlayer account).bind s.heap with
  | none => ⟨[], 0, false, 0⟩
  | some pl => ⟨pl.szLoginName, pl.nAccountID, pl.nOneTimeKey = oneTimeKey, pl.nPermission⟩

/-- `AuthGameSession::HandleClientLogin`. -/
def handleClientLogin (s : State) (account : Name) (oneTimeKey : Nat) : State :=
  match s.getPlayer account with
  | none => s
  | some p =>
    match s.heap p with
    | none => s.fault .playerUse
    | some pl =>
      if pl.nOneTimeKey = oneTimeKey then s.setHeap p (some { pl with bIsInGame := true }) else s

/-- `HandleClientLogout` and `HandleClientKickFailed` are the same function of the account. -/
def dropPlayer (s : State) (account : Name) : State :=
  match s.getPlayer account with
  | none => s
  | some p => (s.removePlayer account).deletePlayer p

def handleClientLogout (s : State) (account : Name) : State := s.dropPlayer account

def handleClientKickFailed (s : State) (account : Name) : State := s.dropPlayer account

/-- `~AuthGameSession`. -/
def destroyGame (s : State) (g : GameId) : State :=
  match s.gameSessions g with
  | none => s
  | some gs =>
    if gs.isOpen then s
    else
      (if gs.bIsAuthed then
        match s.getGame gs.game.serverIdx with
        | none => s
        | some g' =>
          match s.gameSessions g' with
          | none => s.fault .gameUse
          | some gs' => s.removeGame gs'.game.serverIdx
      else s).setGameSession g none

/-! ## The server -/

def step (s : State) : Event → State
  | .clientConnect => { s.setClient s.nextClient (some {}) with nextClient := s.nextClient + 1 }
  | .account c row => s.handleLoginPacket c row
  | .selectServer c serverIdx rands => s.handleSelectServer c serverIdx rands
  | .clientClose c => s.handleClientClose c
  | .gameConnect => { s.setGameSession s.nextGame (some {}) with nextGame := s.nextGame + 1 }
  | .gameLogin g serverIdx serverName => s.handleGameLogin g serverIdx serverName
  | .clientLogin g account oneTimeKey =>
    if s.isAuthedGame g then s.handleClientLogin account oneTimeKey else s
  | .clientLogout g account => if s.isAuthedGame g then s.handleClientLogout account else s
  | .clientKickFailed g account => if s.isAuthedGame g then s.handleClientKickFailed account else s
  | .gameClose g => s.closeSocket g
  | .gameDestroy g => s.destroyGame g

/-! ## What a handler leaves alone -/

/-- The registry of game servers and their sessions are unchanged. -/
structure SameGames (s t : State) : Prop where
  games : t.games = s.games
  gameSessions : t.gameSessions = s.gameSessions
  nextGame : t.nextGame = s.nextGame

/-- Players are only removed and deleted; client sessions are unchanged. -/
structure Shrinks (s t : State) : Prop where
  heap : ∀ p pl, t.heap p = some pl → s.heap p = some pl
  getPlayer : ∀ a p, t.getPlayer a = some p → s.getPlayer a = some p
  nextPlayer : t.nextPlayer = s.nextPlayer
  clients : t.clients = s.clients
  nextClient : t.nextClient = s.nextClient

theorem SameGames.refl (s : State) : SameGames s s := ⟨rfl, rfl, rfl⟩

theorem SameGames.trans {s t u : State} (h : SameGames s t) (h' : SameGames t u) : SameGames s u :=
  ⟨h'.games.trans h.games, h'.gameSessions.trans h.gameSessions, h'.nextGame.trans h.nextGame⟩

theorem Shrinks.refl (s : State) : Shrinks s s :=
  ⟨fun _ _ h => h, fun _ _ h => h, rfl, rfl, rfl⟩

theorem Shrinks.trans {s t u : State} (h : Shrinks s t) (h' : Shrinks t u) : Shrinks s u where
  heap p pl hp := h.heap p pl (h'.heap p pl hp)
  getPlayer a p ha := h.getPlayer a p (h'.getPlayer a p ha)
  nextPlayer := h'.nextPlayer.trans h.nextPlayer
  clients := h'.clients.trans h.clients
  nextClient := h'.nextClient.trans h.nextClient

section Frames

variable (s : State)

theorem deletePlayer_sameGames (p : PlayerPtr) : SameGames s (s.deletePlayer p) := by
  unfold deletePlayer
  split <;> exact ⟨rfl, rfl, rfl⟩

theorem updPlayer_sameGames (p : PlayerPtr) (f : Player → Player) : SameGames s (s.updPlayer p f) := by
  unfold updPlayer
  split <;> exact ⟨rfl, rfl, rfl⟩

theorem removePlayer_sameGames (a : Name) : SameGames s (s.removePlayer a) := ⟨rfl, rfl, rfl⟩

theorem fault_sameGames (f : Fault) : SameGames s (s.fault f) := ⟨rfl, rfl, rfl⟩

theorem dropPlayer_sameGames (a : Name) : SameGames s (s.dropPlayer a) := by
  unfold dropPlayer
  split
  · exact .refl s
  · exact (removePlayer_sameGames s a).trans (deletePlayer_sameGames _ _)

theorem dropOldPlayer_sameGames (old : PlayerPtr) : SameGames s (s.dropOldPlayer old) := by
  unfold dropOldPlayer
  split
  · exact ⟨rfl, rfl, rfl⟩
  · refine SameGames.trans ?_ ((removePlayer_sameGames _ _).trans (deletePlayer_sameGames _ _))
    split
    · exact .refl s
    · split_ifs
      · exact fault_sameGames s _
      · exact .refl s

theorem dropOldEntry_sameGames (a : Name) : SameGames s (s.dropOldEntry a) := by
  unfold dropOldEntry
  split
  · exact .refl s
  · exact dropOldPlayer_sameGames s _

theorem handleLoginPacket_sameGames (c : ClientId) (row : Option AccountRow) :
    SameGames s (s.handleLoginPacket c row) := by
  unfold handleLoginPacket
  split
  · rename_i row _
    split_ifs
    · exact ⟨rfl, rfl, rfl⟩
    · have hdrop := dropOldEntry_sameGames (s.startLogin c row true) (playerOf row).szLoginName
      exact ⟨hdrop.games, hdrop.gameSessions, hdrop.nextGame⟩
  · exact .refl s

theorem handleSelectServer_sameGames (c : ClientId) (idx : Nat) (r : Rands) :
    SameGames s (s.handleSelectServer c idx r) := by
  unfold handleSelectServer
  split
  · exact updPlayer_sameGames s _ _
  · exact fault_sameGames s _
  · exact .refl s

theorem handleClientLogin_sameGames (a : Name) (key : Nat) :
    SameGames s (s.handleClientLogin a key) := by
  unfold handleClientLogin
  split
  · exact .refl s
  · split
    · exact fault_sameGames s _
    · split_ifs
      · exact ⟨rfl, rfl, rfl⟩
      · exact .refl s

theorem onClientClose_sameGames (p : PlayerPtr) : SameGames s (s.onClientClose p) := by
  unfold onClientClose
  split
  · exact fault_sameGames s _
  · split
    · exact .refl s
    · split
      · exact fault_sameGames s _
      · split_ifs
        · exact (removePlayer_sameGames s _).trans (deletePlayer_sameGames _ _)
        · exact .refl s

theorem handleClientClose_sameGames (c : ClientId) : SameGames s (s.handleClientClose c) := by
  unfold handleClientClose
  split
  · exact .refl s
  · split
    · exact ⟨rfl, rfl, rfl⟩
    · have hclose := onClientClose_sameGames s
      exact ⟨(hclose _).games, (hclose _).gameSessions, (hclose _).nextGame⟩

theorem closePlayer_sameGames (idx : Nat) (p : PlayerPtr) : SameGames s (s.closePlayer idx p) := by
  unfold closePlayer
  split
  · exact fault_sameGames s _
  · split_ifs
    · exact ((removePlayer_sameGames s _).trans (deletePlayer_sameGames _ _)).trans
        (fault_sameGames _ _)
    · exact .refl s

theorem deletePlayer_shrinks (p : PlayerPtr) : Shrinks s (s.deletePlayer p) := by
  unfold deletePlayer
  split
  · exact ⟨fun _ _ h => h, fun _ _ h => h, rfl, rfl, rfl⟩
  · refine ⟨fun q pl hq => ?_, fun _ _ h => h, rfl, rfl, rfl⟩
    rw [setHeap_heap] at hq
    split_ifs at hq
    exact hq

theorem removePlayer_shrinks (a : Name) : Shrinks s (s.removePlayer a) := by
  refine ⟨fun _ _ h => h, fun b p hb => ?_, rfl, rfl, rfl⟩
  rw [getPlayer_removePlayer] at hb
  split_ifs at hb
  exact hb

theorem fault_shrinks (f : Fault) : Shrinks s (s.fault f) :=
  ⟨fun _ _ h => h, fun _ _ h => h, rfl, rfl, rfl⟩

theorem dropPlayer_shrinks (a : Name) : Shrinks s (s.dropPlayer a) := by
  unfold dropPlayer
  split
  · exact .refl s
  · exact (removePlayer_shrinks s a).trans (deletePlayer_shrinks _ _)

theorem dropOldPlayer_shrinks (old : PlayerPtr) : Shrinks s (s.dropOldPlayer old) := by
  unfold dropOldPlayer
  split
  · exact (fault_shrinks s _).trans (fault_shrinks _ _)
  · refine Shrinks.trans ?_ ((removePlayer_shrinks _ _).trans (deletePlayer_shrinks _ _))
    split
    · exact .refl s
    · split_ifs
      · exact fault_shrinks s _
      · exact .refl s

theorem dropOldEntry_shrinks (a : Name) : Shrinks s (s.dropOldEntry a) := by
  unfold dropOldEntry
  split
  · exact .refl s
  · exact dropOldPlayer_shrinks s _

theorem onClientClose_shrinks (p : PlayerPtr) : Shrinks s (s.onClientClose p) := by
  unfold onClientClose
  split
  · exact fault_shrinks s _
  · split
    · exact .refl s
    · split
      · exact fault_shrinks s _
      · split_ifs
        · exact (removePlayer_shrinks s _).trans (deletePlayer_shrinks _ _)
        · exact .refl s

theorem closePlayer_shrinks (idx : Nat) (p : PlayerPtr) : Shrinks s (s.closePlayer idx p) := by
  unfold closePlayer
  split
  · exact fault_shrinks s _
  · split_ifs
    · exact ((removePlayer_shrinks s _).trans (deletePlayer_shrinks _ _)).trans (fault_shrinks _ _)
    · exact .refl s

/-- The loop of `AuthGameSession::OnClose` over any list of entries. -/
theorem foldl_closePlayer_frame (idx : Nat) (l : List (Sigma fun _ : Name => PlayerPtr)) :
    ∀ s : State, SameGames s (l.foldl (fun s e => s.closePlayer idx e.2) s) ∧
      Shrinks s (l.foldl (fun s e => s.closePlayer idx e.2) s) := by
  induction l with
  | nil => exact fun s => ⟨.refl s, .refl s⟩
  | cons e l ih =>
    intro s
    obtain ⟨hg, hs⟩ := ih (s.closePlayer idx e.2)
    exact ⟨(closePlayer_sameGames s idx e.2).trans hg, (closePlayer_shrinks s idx e.2).trans hs⟩

theorem closePlayers_sameGames (idx : Nat) : SameGames s (s.closePlayers idx) :=
  (foldl_closePlayer_frame idx _ s).1

theorem closePlayers_shrinks (idx : Nat) : Shrinks s (s.closePlayers idx) :=
  (foldl_closePlayer_frame idx _ s).2

theorem removeGame_shrinks (idx : Nat) : Shrinks s (s.removeGame idx) :=
  ⟨fun _ _ h => h, fun _ _ h => h, rfl, rfl, rfl⟩

theorem addGame_shrinks (idx : Nat) (g : GameId) : Shrinks s (s.addGame idx g) :=
  ⟨fun _ _ h => h, fun _ _ h => h, rfl, rfl, rfl⟩

theorem setGameSession_shrinks (g : GameId) (x : Option AuthGameSession) :
    Shrinks s (s.setGameSession g x) :=
  ⟨fun _ _ h => h, fun _ _ h => h, rfl, rfl, rfl⟩

theorem onGameClose_shrinks (game : Game) : Shrinks s (s.onGameClose game) := by
  unfold onGameClose
  split
  · exact .refl s
  · split
    · exact fault_shrinks s _
    · split_ifs
      · exact (closePlayers_shrinks s _).trans (removeGame_shrinks _ _)
      · exact .refl s

theorem closeSocket_shrinks (g : GameId) : Shrinks s (s.closeSocket g) := by
  unfold closeSocket
  split
  · exact .refl s
  · split_ifs
    · exact (setGameSession_shrinks s g _).trans (onGameClose_shrinks _ _)
    · exact .refl s

theorem handleGameLogin_shrinks (g : GameId) (idx : Nat) (name : Name) :
    Shrinks s (s.handleGameLogin g idx name) := by
  unfold handleGameLogin
  split
  · exact .refl s
  · split
    · exact (setGameSession_shrinks s g _).trans (addGame_shrinks _ _ _)
    · exact (setGameSession_shrinks s g _).trans (closeSocket_shrinks _ _)

theorem destroyGame_shrinks (g : GameId) : Shrinks s (s.destroyGame g) := by
  unfold destroyGame
  split
  · exact .refl s
  · split_ifs
    · exact .refl s
    · refine Shrinks.trans ?_ (setGameSession_shrinks _ g none)
      split
      · exact .refl s
      · split
        · exact fault_shrinks s _
        · exact removeGame_shrinks s _
    · exact setGameSession_shrinks s g none

end Frames

end State

def authServer : Lib.System State Event :=
  .ofFun (· = .start) fun s e => some (s.step e)

theorem authServer_init {s : State} (h : authServer.Init s) : s = .start := h

theorem authServer_step {s t : State} {e : Event} (h : authServer.Step s e t) : s.step e = t :=
  Option.some.inj h

end RZEmulator.Mononoke
