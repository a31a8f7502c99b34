import RZEmulator.Mononoke.Logins

/-!
# The registry of game servers

`m_games[i]` should exist exactly while one live session is registered with index `i`, and point to that
session's `Game`; what happens to other sessions should not touch it. The code keeps this as long as
every step is `Tidy`. The steps that are not each break it: a login on a session that is already
registered leaves its old entry behind, one handled after the socket was closed registers a dead
session, a rejected duplicate that carries the registered server's own name unregisters that server,
and so do a session that closes without ever having logged in, if the server `255` is called `<null>`,
and a destructor that runs after the index has been given to someone else.
-/

namespace RZEmulator.Mononoke

open Lib

/-- The session is open, was accepted and carries the index `i`. -/
def AuthGameSession.RegisteredAt (gs : AuthGameSession) (i : Nat) : Prop :=
  gs.isOpen = true ∧ gs.bIsAuthed = true ∧ gs.game.serverIdx = i

namespace State

variable {s : State} {e : Event}

/-- The live session `g` is registered with index `i`. -/
def Registered (s : State) (i : Nat) (g : GameId) : Prop :=
  ∃ gs ∈ s.gameSessions g, gs.RegisteredAt i

/-- The login `p` is listed under `a` and has selected server `i`. -/
def PlayerOf (s : State) (i : Nat) (a : Name) (p : PlayerPtr) : Prop :=
  s.getPlayer a = some p ∧ ∃ pl, s.heap p = some pl ∧ pl.nGameIDX = i

/-- The step keeps the registry in order. -/
def Tidy (s : State) : Event → Prop
  | .gameLogin g idx name => ∀ gs ∈ s.gameSessions g,
      (s.games idx = none → gs.isOpen = true ∧ gs.bIsAuthed = false) ∧
      ∀ g' ∈ s.games idx, g' ≠ g → gs.isOpen = true →
        gs.bIsAuthed = false ∧ ∀ gs' ∈ s.gameSessions g', gs'.game.serverName ≠ name
  | .gameClose g => ∀ gs ∈ s.gameSessions g, gs.isOpen = true → gs.bIsAuthed = false →
      ∀ g' ∈ s.games gs.game.serverIdx, ∀ gs' ∈ s.gameSessions g',
        gs'.game.serverName ≠ gs.game.serverName
  | .gameDestroy g => ∀ gs ∈ s.gameSessions g, gs.isOpen = false → gs.bIsAuthed = true →
      s.games gs.game.serverIdx = none
  | _ => True

instance (s : State) : (e : Event) → Decidable (Tidy s e)
  | .gameLogin g idx name => inferInstanceAs (Decidable (∀ gs ∈ s.gameSessions g,
      (s.games idx = none → gs.isOpen = true ∧ gs.bIsAuthed = false) ∧
      ∀ g' ∈ s.games idx, g' ≠ g → gs.isOpen = true →
        gs.bIsAuthed = false ∧ ∀ gs' ∈ s.gameSessions g', gs'.game.serverName ≠ name))
  | .gameClose g => inferInstanceAs (Decidable (∀ gs ∈ s.gameSessions g, gs.isOpen = true →
      gs.bIsAuthed = false → ∀ g' ∈ s.games gs.game.serverIdx, ∀ gs' ∈ s.gameSessions g',
        gs'.game.serverName ≠ gs.game.serverName))
  | .gameDestroy g => inferInstanceAs (Decidable (∀ gs ∈ s.gameSessions g, gs.isOpen = false →
      gs.bIsAuthed = true → s.games gs.game.serverIdx = none))
  | .clientConnect => inferInstanceAs (Decidable True)
  | .account _ _ => inferInstanceAs (Decidable True)
  | .selectServer _ _ _ => inferInstanceAs (Decidable True)
  | .clientClose _ => inferInstanceAs (Decidable True)
  | .gameConnect => inferInstanceAs (Decidable True)
  | .clientLogin _ _ _ => inferInstanceAs (Decidable True)
  | .clientLogout _ _ => inferInstanceAs (Decidable True)
  | .clientKickFailed _ _ => inferInstanceAs (Decidable True)

/-- The registry and the sessions agree, and session numbers are fresh. -/
structure RegistryOk (s : State) : Prop where
  registered : ∀ i g, s.games i = some g ↔ Registered s i g
  fresh : ∀ g, s.nextGame ≤ g → s.gameSessions g = none

theorem registryOk_start : RegistryOk start where
  registered _ _ := ⟨nofun, fun ⟨_, h, _⟩ => nomatch h⟩
  fresh _ _ := rfl

/-! ## Registration under the updates -/

theorem RegistryOk.sameGames {t : State} (hs : RegistryOk s) (h : SameGames s t) : RegistryOk t where
  registered i g := by
    unfold Registered
    rw [h.games, h.gameSessions]
    exact hs.registered i g
  fresh g hg := by
    rw [h.nextGame] at hg
    rw [h.gameSessions]
    exact hs.fresh g hg

theorem registered_setGameSession {i : Nat} {g k : GameId} {x : Option AuthGameSession} :
    Registered (s.setGameSession g x) i k ↔
      if k = g then ∃ gs ∈ x, gs.RegisteredAt i else Registered s i k := by
  unfold Registered
  rw [setGameSession_gameSessions]
  split_ifs <;> rfl

/-- A session that is registered neither before nor after may be rewritten. -/
theorem RegistryOk.setGameSession (hs : RegistryOk s) {g : GameId} {x : Option AuthGameSession}
    (hlt : g < s.nextGame) (hold : ∀ i, ¬Registered s i g) (hnew : ∀ i, ∀ gs ∈ x, ¬gs.RegisteredAt i) :
    RegistryOk (s.setGameSession g x) where
  registered i k := by
    rw [registered_setGameSession, ← show s.games i = some k ↔ (s.setGameSession g x).games i = some k
      from Iff.rfl, hs.registered]
    split_ifs with hk
    · rw [hk]
      exact iff_of_false (hold i) fun ⟨gs, hgs, hreg⟩ => hnew i gs hgs hreg
    · rfl
  fresh k hk := by
    have hne : k ≠ g := Nat.ne_of_gt (Nat.lt_of_lt_of_le hlt hk)
    rw [setGameSession_gameSessions, if_neg hne]
    exact hs.fresh k hk

theorem RegistryOk.lt_nextGame (hs : RegistryOk s) {g : GameId} {gs : AuthGameSession}
    (hg : s.gameSessions g = some gs) : g < s.nextGame := by
  by_contra hge
  rw [hs.fresh g (Nat.not_lt.mp hge)] at hg
  cases hg

theorem not_registered_of {i : Nat} {g : GameId} {gs : AuthGameSession}
    (hg : s.gameSessions g = some gs) (hnot : gs.isOpen = false ∨ gs.bIsAuthed = false) :
    ¬Registered s i g := by
  rintro ⟨gs', hgs', hopen, hauthed, -⟩
  obtain rfl := Option.some.inj (hg.symm.trans hgs')
  rcases hnot with h | h
  · rw [h] at hopen; cases hopen
  · rw [h] at hauthed; cases hauthed

/-! ## The players of a server -/

/-- A round of the loop that takes the players of server `idx` away, on an entry of the map it started
from, does not concern the players of server `i`. -/
theorem closePlayer_playerOf {s₀ : State} (hk : Keyed s₀) (hs : Shrinks s₀ s) {i idx : Nat} (hne : i ≠ idx)
    {a b : Name} {p q : PlayerPtr} (hentry : s₀.getPlayer b = some q) (hp : PlayerOf s i a p) :
    PlayerOf (s.closePlayer idx q) i a p := by
  obtain ⟨ha, pl, hpl, hidx⟩ := hp
  unfold closePlayer
  split
  · exact ⟨ha, pl, hpl, hidx⟩
  · rename_i pl' hpl'
    split_ifs with hidx'
    · -- the player that goes has another server, so it is another player with another name
      have hpq : p ≠ q := by
        rintro rfl
        obtain rfl := Option.some.inj (hpl.symm.trans hpl')
        exact hne (Int.ofNat.inj (hidx.symm.trans hidx'))
      have hname := hk.name b q pl' hentry (hs.heap _ _ hpl')
      have hab : a ≠ pl'.szLoginName := by
        rw [hname]
        rintro rfl
        exact hpq (Option.some.inj ((hs.getPlayer _ _ ha).symm.trans hentry))
      refine ⟨?_, pl, ?_, hidx⟩
      · show ((s.removePlayer pl'.szLoginName).deletePlayer q).getPlayer a = some p
        rw [getPlayer_deletePlayer, getPlayer_removePlayer, if_neg hab]
        exact ha
      · show ((s.removePlayer pl'.szLoginName).deletePlayer q).heap p = some pl
        rw [deletePlayer_heap, if_neg hpq]
        exact hpl
    · exact ⟨ha, pl, hpl, hidx⟩

theorem foldl_closePlayer_playerOf {s₀ : State} (hk : Keyed s₀) {i idx : Nat} (hne : i ≠ idx) {a : Name}
    {p : PlayerPtr} (l : List (Sigma fun _ : Name => PlayerPtr)) :
    (∀ e ∈ l, e ∈ s₀.players.entries) → ∀ s : State, Shrinks s₀ s → PlayerOf s i a p →
      PlayerOf (l.foldl (fun s e => s.closePlayer idx e.2) s) i a p := by
  induction l with
  | nil => exact fun _ _ _ hp => hp
  | cons e l ih =>
    intro hmem s hs hp
    have hentry : s₀.getPlayer e.1 = some e.2 := (mem_entries_iff s₀ e.2 e.1).mp (hmem e (by simp))
    exact ih (fun e' he' => hmem e' (List.mem_cons_of_mem e he')) _
      (hs.trans (closePlayer_shrinks s idx e.2)) (closePlayer_playerOf hk hs hne hentry hp)

theorem playerOf_of_shrinks {t : State} (h : Shrinks s t) {i : Nat} {a : Name} {p : PlayerPtr}
    (hp : PlayerOf t i a p) : PlayerOf s i a p := by
  obtain ⟨ha, pl, hpl, hidx⟩ := hp
  exact ⟨h.getPlayer a p ha, pl, h.heap p pl hpl, hidx⟩

theorem closePlayers_playerOf (hk : Keyed s) {i idx : Nat} (hne : i ≠ idx) (a : Name) (p : PlayerPtr) :
    PlayerOf (s.closePlayers idx) i a p ↔ PlayerOf s i a p :=
  ⟨playerOf_of_shrinks (closePlayers_shrinks s idx),
    foldl_closePlayer_playerOf hk hne _ (fun _ h => h) s (.refl s)⟩

/-! ## Closing a session -/

/-- A session that is not registered closes without effect where its name is not the registered one. -/
theorem onGameClose_of_ne {game : Game}
    (hname : ∀ g ∈ s.games game.serverIdx, ∃ gs, s.gameSessions g = some gs ∧
      gs.game.serverName ≠ game.serverName) : s.onGameClose game = s := by
  unfold onGameClose
  split
  · rfl
  · rename_i g hg
    obtain ⟨gs, hgs, hne⟩ := hname g hg
    rw [hgs]
    exact if_neg hne

/-- A session whose own entry stands in the registry takes it and its players away. -/
theorem onGameClose_own {game : Game} {g : GameId} {gs : AuthGameSession}
    (hentry : s.games game.serverIdx = some g) (hgs : s.gameSessions g = some gs)
    (hgame : gs.game = game) :
    s.onGameClose game = (s.closePlayers game.serverIdx).removeGame game.serverIdx := by
  subst hgame
  simp only [onGameClose, getGame, hentry, hgs, if_true]

/-- What a registered session leaves behind when it closes. -/
structure Unregistered (s t : State) (g : GameId) (idx : Nat) : Prop where
  games : ∀ i, t.games i = if i = idx then none else s.games i
  session : ∃ gs, t.gameSessions g = some gs ∧ gs.isOpen = false
  others : ∀ k, k ≠ g → t.gameSessions k = s.gameSessions k
  nextGame : t.nextGame = s.nextGame
  players : ∀ i, i ≠ idx → ∀ a p, PlayerOf t i a p ↔ PlayerOf s i a p

theorem RegistryOk.unregistered {t : State} {g : GameId} {idx : Nat} (hs : RegistryOk s)
    (hown : s.games idx = some g) (h : Unregistered s t g idx) : RegistryOk t where
  registered i k := by
    rw [h.games]
    by_cases hk : k = g
    · subst hk
      have hnot : ¬Registered t i k := by
        obtain ⟨gs, hgs, hclosed⟩ := h.session
        exact not_registered_of hgs (.inl hclosed)
      refine iff_of_false ?_ hnot
      split_ifs with hi
      · simp
      · intro hki
        obtain ⟨gs, hgs, -, -, hidx⟩ := (hs.registered i k).mp hki
        obtain ⟨gs', hgs', -, -, hidx'⟩ := (hs.registered idx k).mp hown
        obtain rfl := Option.some.inj (hgs.symm.trans hgs')
        exact hi (hidx.symm.trans hidx')
    · have hsame : Registered t i k ↔ Registered s i k := by
        unfold Registered
        rw [h.others k hk]
      rw [hsame, ← hs.registered i k]
      split_ifs with hi
      · subst hi
        refine iff_of_false (by simp) fun hik => hk ?_
        exact Option.some.inj (hik.symm.trans hown)
      · rfl
  fresh k hk := by
    rw [h.nextGame] at hk
    obtain ⟨gs, hgs, -⟩ := (hs.registered idx g).mp hown
    rw [h.others k fun he => absurd (hs.lt_nextGame hgs) (Nat.not_lt.mpr (he ▸ hk))]
    exact hs.fresh k hk

/-- A registered session, whichever way its socket comes to close. -/
theorem closeSocket_own (hk : Keyed s) {g : GameId} {gs : AuthGameSession}
    (hg : s.gameSessions g = some gs) (hopen : gs.isOpen = true)
    (hentry : s.games gs.game.serverIdx = some g) :
    Unregistered s (s.closeSocket g) g gs.game.serverIdx := by
  have hclosed : (s.setGameSession g (some ⟨gs.game, gs.bIsAuthed, false⟩)).gameSessions g =
      some ⟨gs.game, gs.bIsAuthed, false⟩ := if_pos rfl
  have heq : s.closeSocket g = ((s.setGameSession g (some ⟨gs.game, gs.bIsAuthed, false⟩)).closePlayers
      gs.game.serverIdx).removeGame gs.game.serverIdx := by
    simp only [closeSocket, hg, hopen, if_true]
    exact onGameClose_own hentry hclosed rfl
  have hsame := closePlayers_sameGames (s.setGameSession g (some ⟨gs.game, gs.bIsAuthed, false⟩))
    gs.game.serverIdx
  rw [heq]
  exact
    { games := fun i => by
        show (if i = gs.game.serverIdx then none else (State.closePlayers _ _).games i) = _
        rw [hsame.games]
        rfl
      session := ⟨_, hsame.gameSessions ▸ hclosed, rfl⟩
      others := fun k hk => (congrFun hsame.gameSessions k).trans (if_neg hk)
      nextGame := hsame.nextGame
      players := fun i hi a p =>
        closePlayers_playerOf (s := s.setGameSession g (some ⟨gs.game, gs.bIsAuthed, false⟩))
          ⟨hk.heap, hk.listed, hk.name⟩ hi a p }

/-- A session without an entry of its own, where the entry under its index has another name. -/
theorem closeSocket_of_ne {g : GameId} {gs : AuthGameSession} (hg : s.gameSessions g = some gs)
    (hopen : gs.isOpen = true)
    (hname : ∀ k ∈ s.games gs.game.serverIdx, k ≠ g ∧ ∃ gs', s.gameSessions k = some gs' ∧
      gs'.game.serverName ≠ gs.game.serverName) :
    s.closeSocket g = s.setGameSession g (some ⟨gs.game, gs.bIsAuthed, false⟩) := by
  simp only [closeSocket, hg, hopen, if_true]
  refine onGameClose_of_ne fun k hk => ?_
  obtain ⟨hkg, gs', hgs', hne⟩ := hname k hk
  exact ⟨gs', (if_neg hkg).trans hgs', hne⟩

/-! ## What a game server's step does -/

/-- The four things that a tidy login, close or destruction of session `g` comes to. -/
inductive Outcome (s : State) (g : GameId) : State → Prop
  | same : Outcome s g s
  | rewritten (x : Option AuthGameSession) (hlt : g < s.nextGame) (hold : ∀ i, ¬Registered s i g)
      (hnew : ∀ i, ∀ gs ∈ x, ¬gs.RegisteredAt i) : Outcome s g (s.setGameSession g x)
  | added (idx : Nat) (gs : AuthGameSession) (hlt : g < s.nextGame) (hold : ∀ i, ¬Registered s i g)
      (hfree : s.games idx = none) (hreg : gs.RegisteredAt idx) :
      Outcome s g ((s.setGameSession g (some gs)).addGame idx g)
  | unregistered (idx : Nat) (t : State) (hown : s.games idx = some g)
      (h : Unregistered s t g idx) : Outcome s g t

theorem RegistryOk.outcome {g : GameId} {t : State} (hs : RegistryOk s) (h : Outcome s g t) :
    RegistryOk t := by
  cases h with
  | same => exact hs
  | rewritten x hlt hold hnew => exact hs.setGameSession hlt hold hnew
  | added idx gs hlt hold hfree hreg =>
    refine ⟨fun i k => ?_, fun k hk => ?_⟩
    · show (if i = idx then some g else s.games i) = some k ↔
        Registered (s.setGameSession g (some gs)) i k
      rw [registered_setGameSession]
      by_cases hk : k = g
      · subst hk
        rw [if_pos rfl]
        have hat : (∃ gs' ∈ some gs, gs'.RegisteredAt i) ↔ i = idx :=
          ⟨fun ⟨gs', hgs', hi⟩ => by
            obtain rfl := Option.some.inj hgs'
            exact hi.2.2.symm.trans hreg.2.2, fun hi => ⟨gs, rfl, hi ▸ hreg⟩⟩
        rw [hat]
        split_ifs with hi
        · exact iff_of_true rfl hi
        · exact iff_of_false (fun he => hold i ((hs.registered i k).mp he)) hi
      · rw [if_neg hk, ← hs.registered i k]
        split_ifs with hi
        · rw [hi, hfree]
          exact iff_of_false (fun he => hk (Option.some.inj he).symm) (by simp)
        · rfl
    · have hne : k ≠ g := Nat.ne_of_gt (Nat.lt_of_lt_of_le hlt hk)
      exact (if_neg hne).trans (hs.fresh k hk)
  | unregistered idx t hown h => exact hs.unregistered hown h

/-- No outcome for `g` touches the registration or the players of another session's server. -/
theorem Outcome.untouched {g k : GameId} {t : State} {i : Nat} (h : Outcome s g t)
    (hk : s.games i = some k) (hne : k ≠ g) :
    t.games i = some k ∧ ∀ a p, PlayerOf t i a p ↔ PlayerOf s i a p := by
  cases h with
  | same => exact ⟨hk, fun _ _ => Iff.rfl⟩
  | rewritten x hlt hold hnew => exact ⟨hk, fun _ _ => Iff.rfl⟩
  | added idx gs hlt hold hfree hreg =>
    have hi : i ≠ idx := by
      rintro rfl
      rw [hfree] at hk
      cases hk
    exact ⟨(if_neg hi).trans hk, fun _ _ => Iff.rfl⟩
  | unregistered idx t hown h =>
    have hi : i ≠ idx := by
      rintro rfl
      exact hne (Option.some.inj (hk.symm.trans hown))
    exact ⟨by rw [h.games, if_neg hi]; exact hk, h.players i hi⟩

theorem closeSocket_outcome (hs : RegistryOk s) (hk : Keyed s) {g : GameId} (htidy : Tidy s (.gameClose g)) :
    Outcome s g (s.closeSocket g) := by
  cases hg : s.gameSessions g with
  | none =>
    rw [show s.closeSocket g = s by simp only [closeSocket, hg]]
    exact .same
  | some gs =>
    cases hopen : gs.isOpen with
    | false =>
      rw [show s.closeSocket g = s by simp [closeSocket, hg, hopen]]
      exact .same
    | true =>
      cases hauthed : gs.bIsAuthed with
      | true =>
        have hentry := (hs.registered gs.game.serverIdx g).mpr ⟨gs, hg, hopen, hauthed, rfl⟩
        exact .unregistered _ _ hentry (closeSocket_own hk hg hopen hentry)
      | false =>
        have hnot : ∀ i, ¬Registered s i g := fun i => not_registered_of hg (.inr hauthed)
        rw [closeSocket_of_ne hg hopen fun k hk' => ?_]
        · exact .rewritten _ (hs.lt_nextGame hg) hnot fun i gs' hgs' hreg => by
            obtain rfl := Option.some.inj hgs'
            exact absurd hreg.1 (by simp)
        · obtain ⟨gs', hgs', hreg⟩ := (hs.registered _ k).mp hk'
          refine ⟨?_, gs', hgs', htidy gs hg hopen hauthed k hk' gs' hgs'⟩
          rintro rfl
          exact hnot _ ((hs.registered _ k).mp hk')

theorem handleGameLogin_outcome (hs : RegistryOk s) (hk : Keyed s) {g : GameId} {idx : Nat} {name : Name}
    (htidy : Tidy s (.gameLogin g idx name)) : Outcome s g (s.handleGameLogin g idx name) := by
  cases hg : s.gameSessions g with
  | none =>
    rw [show s.handleGameLogin g idx name = s by simp only [handleGameLogin, hg]]
    exact .same
  | some gs =>
    obtain ⟨hfree, htaken⟩ := htidy gs hg
    have hlt := hs.lt_nextGame hg
    cases hgame : s.games idx with
    | none =>
      obtain ⟨hopen, hauthed⟩ := hfree hgame
      rw [show s.handleGameLogin g idx name = (s.setGameSession g
        (some ⟨⟨idx, name⟩, true, gs.isOpen⟩)).addGame idx g by
          simp only [handleGameLogin, hg, getGame, hgame]]
      exact .added idx _ hlt (fun i => not_registered_of hg (.inr hauthed)) hgame ⟨hopen, rfl, rfl⟩
    | some g' =>
      rw [show s.handleGameLogin g idx name = (s.setGameSession g
        (some ⟨⟨idx, name⟩, false, gs.isOpen⟩)).closeSocket g by
          simp only [handleGameLogin, hg, getGame, hgame]]
      have hself : (s.setGameSession g (some ⟨⟨idx, name⟩, false, gs.isOpen⟩)).gameSessions g =
          some ⟨⟨idx, name⟩, false, gs.isOpen⟩ := if_pos rfl
      cases hopen : gs.isOpen with
      | false =>
        -- the socket is closed already, only the session's record changes
        rw [hopen] at hself
        rw [show (s.setGameSession g (some ⟨⟨idx, name⟩, false, false⟩)).closeSocket g =
          s.setGameSession g (some ⟨⟨idx, name⟩, false, false⟩) by simp [closeSocket, hself]]
        exact .rewritten _ hlt (fun i => not_registered_of hg (.inl hopen)) fun i gs' hgs' hreg => by
          obtain rfl := Option.some.inj hgs'
          exact absurd hreg.1 (by simp)
      | true =>
        rw [hopen] at hself
        by_cases hne : g' = g
        · -- the entry is the session's own
          subst hne
          have h := closeSocket_own (s := s.setGameSession g' (some ⟨⟨idx, name⟩, false, true⟩))
            ⟨hk.heap, hk.listed, hk.name⟩ hself rfl hgame
          exact .unregistered idx _ hgame
            { games := h.games
              session := h.session
              others := fun k hk => (h.others k hk).trans (if_neg hk)
              nextGame := h.nextGame
              players := h.players }
        · obtain ⟨hauthed, hname⟩ := htaken g' hgame hne hopen
          rw [closeSocket_of_ne hself rfl fun k hk' => ?_, setGameSession_setGameSession]
          · exact .rewritten _ hlt (fun i => not_registered_of hg (.inr hauthed)) fun i gs' hgs' hreg => by
              obtain rfl := Option.some.inj hgs'
              exact absurd hreg.1 (by simp)
          · obtain rfl := Option.some.inj (hgame.symm.trans hk')
            obtain ⟨gs', hgs', -⟩ := (hs.registered idx g').mp hgame
            exact ⟨hne, gs', (if_neg hne).trans hgs', hname gs' hgs'⟩

theorem destroyGame_outcome (hs : RegistryOk s) {g : GameId} (htidy : Tidy s (.gameDestroy g)) :
    Outcome s g (s.destroyGame g) := by
  cases hg : s.gameSessions g with
  | none =>
    rw [show s.destroyGame g = s by simp only [destroyGame, hg]]
    exact .same
  | some gs =>
    cases hopen : gs.isOpen with
    | true =>
      rw [show s.destroyGame g = s by simp [destroyGame, hg, hopen]]
      exact .same
    | false =>
      have hdestroy : s.destroyGame g = s.setGameSession g none := by
        cases hauthed : gs.bIsAuthed with
        | false => simp [destroyGame, hg, hopen, hauthed]
        | true => simp [destroyGame, hg, hopen, hauthed, getGame, htidy gs hg hopen hauthed]
      rw [hdestroy]
      exact .rewritten none (hs.lt_nextGame hg) (fun i => not_registered_of hg (.inl hopen))
        fun i gs' hgs' => by cases hgs'

/-! ## Runs -/

/-- The session that an event of the registry is about. -/
def gameActor : Event → Option GameId
  | .gameLogin g _ _ => some g
  | .gameClose g => some g
  | .gameDestroy g => some g
  | _ => none

theorem step_outcome (hs : RegistryOk s) (hk : Keyed s) (htidy : Tidy s e) {g : GameId}
    (hg : gameActor e = some g) : Outcome s g (s.step e) := by
  cases e with
  | gameLogin g' idx name =>
    obtain rfl := Option.some.inj hg
    exact handleGameLogin_outcome hs hk htidy
  | gameClose g' =>
    obtain rfl := Option.some.inj hg
    exact closeSocket_outcome hs hk htidy
  | gameDestroy g' =>
    obtain rfl := Option.some.inj hg
    exact destroyGame_outcome hs htidy
  | _ => cases hg

theorem RegistryOk.step (hs : RegistryOk s) (hk : Keyed s) (htidy : Tidy s e) :
    RegistryOk (s.step e) := by
  cases e with
  | clientConnect => exact hs.sameGames ⟨rfl, rfl, rfl⟩
  | account c row => exact hs.sameGames (handleLoginPacket_sameGames s c row)
  | selectServer c idx r => exact hs.sameGames (handleSelectServer_sameGames s c idx r)
  | clientClose c => exact hs.sameGames (handleClientClose_sameGames s c)
  | gameConnect =>
    have hnone := hs.fresh s.nextGame (Nat.le_refl _)
    refine ⟨fun i k => ?_, fun k hk' => ?_⟩
    · show s.games i = some k ↔ Registered (s.setGameSession s.nextGame (some {})) i k
      rw [registered_setGameSession, hs.registered]
      split_ifs with hkn
      · subst hkn
        refine iff_of_false (fun ⟨gs, hgs, _⟩ => ?_) fun ⟨gs, hgs, hreg⟩ => ?_
        · rw [hnone] at hgs
          cases hgs
        · obtain rfl := Option.some.inj hgs
          exact absurd hreg.2.1 (by simp)
      · rfl
    · have hlt : s.nextGame < k := hk'
      exact (if_neg (Nat.ne_of_gt hlt)).trans (hs.fresh k (Nat.le_of_lt hlt))
  | gameLogin g idx name => exact hs.outcome (handleGameLogin_outcome hs hk htidy)
  | clientLogin g a key =>
    simp only [State.step]
    split_ifs
    · exact hs.sameGames (handleClientLogin_sameGames s a key)
    · exact hs
  | clientLogout g a =>
    simp only [State.step]
    split_ifs
    · exact hs.sameGames (dropPlayer_sameGames s a)
    · exact hs
  | clientKickFailed g a =>
    simp only [State.step]
    split_ifs
    · exact hs.sameGames (dropPlayer_sameGames s a)
    · exact hs
  | gameClose g => exact hs.outcome (closeSocket_outcome hs hk htidy)
  | gameDestroy g => exact hs.outcome (destroyGame_outcome hs htidy)

theorem registryOk_of_run {h : History State Event}
    (hrun : authServer.RunWhere (fun _ => Tidy) h s) : RegistryOk s :=
  hrun.invariant (I := fun _ s => RegistryOk s) (fun _ hs => authServer_init hs ▸ registryOk_start)
    fun _ _ _ _ hr hs htidy hstep => authServer_step hstep ▸ hs.step (keyed_of_run hr) htidy

/-- What the registry of a reachable state and its history should be. -/
structure RegistrySound (h : History State Event) (s : State) : Prop where
  /-- An entry exists exactly while one live session is registered with its index. -/
  exists_iff : ∀ i, (s.games i).isSome ↔ ∃! g, Registered s i g
  /-- It is that session's. -/
  own : ∀ i g, s.games i = some g → Registered s i g
  /-- A login, close or destruction of another session changed neither the entry nor the players of
  that server. -/
  untouched : ∀ t ∈ h, ∀ i g g', t.before.games i = some g → gameActor t.event = some g' → g ≠ g' →
    t.after.games i = some g ∧ ∀ a p, PlayerOf t.after i a p ↔ PlayerOf t.before i a p

/-- **The registry of game servers** is sound after every run of tidy steps. -/
theorem registrySound_of_run {h : History State Event}
    (hrun : authServer.RunWhere (fun _ => Tidy) h s) : RegistrySound h s := by
  have hs := registryOk_of_run hrun
  refine ⟨fun i => ⟨fun hi => ?_, fun ⟨g, hg, _⟩ => ?_⟩, fun i g => (hs.registered i g).mp, ?_⟩
  · obtain ⟨g, hg⟩ := Option.isSome_iff_exists.mp hi
    refine ⟨g, (hs.registered i g).mp hg, fun k hk => ?_⟩
    exact Option.some.inj (((hs.registered i k).mpr hk).symm.trans hg)
  · rw [(hs.registered i g).mpr hg]
    rfl
  · intro t ht i g g' hgame hactor hne
    obtain ⟨h', hr, htidy, hstep⟩ := hrun.of_mem ht
    have hout := step_outcome (registryOk_of_run hr) (keyed_of_run hr) htidy hactor
    rw [authServer_step hstep] at hout
    exact hout.untouched hgame hne

/-- A server registers, and another session is turned away under another name and destroyed. -/
theorem registrySound_turnedAway :
    ∃ (h : History State Event) (s : State), h.length = 5 ∧ RegistrySound h s := by
  have hex : (System.exec (fun _ => Tidy) (fun s e => some (s.step e))
      [.gameConnect, .gameLogin 0 1 ['x'], .gameConnect, .gameLogin 1 1 ['y'], .gameDestroy 1] []
      start).map (fun x => x.1.length) = some 5 := by decide
  obtain ⟨⟨h, s⟩, hrun, hlen⟩ := Option.map_eq_some_iff.mp hex
  exact ⟨h, s, hlen, registrySound_of_run (System.run_exec (I := (· = start)) _ (.init rfl) hrun)⟩

/-- A duplicate that carries the registered server's name takes the registration away with it. -/
theorem not_registrySound : ¬ ∀ h s, authServer.Run h s → RegistrySound h s := by
  intro hall
  have hex : (System.exec (fun _ _ _ => True) (fun s e => some (s.step e))
      [.gameConnect, .gameLogin 0 1 ['x'], .gameConnect] [] start).map
      (fun x => (x.2.games 1, (x.2.step (.gameLogin 1 1 ['x'])).games 1)) =
      some (some 0, none) := by decide
  obtain ⟨⟨h, s⟩, hrun, hfacts⟩ := Option.map_eq_some_iff.mp hex
  obtain ⟨hbefore, hafter⟩ := Prod.mk.inj hfacts
  have hr : authServer.Run h s := System.run_exec (I := (· = start)) _ (.init rfl) hrun
  have hsound := hall _ _ (hr.step (e := .gameLogin 1 1 ['x']) trivial rfl)
  have hkept := (hsound.untouched _ (List.mem_cons_self ..) 1 0 1 hbefore rfl (by decide)).1
  rw [hafter] at hkept
  cases hkept

end State

end RZEmulator.Mononoke
