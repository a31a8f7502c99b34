import RZEmulator.Mononoke.Logins

/-!
# Who may delete a login

A login is a `Player` object, made by `HandleLoginPacket`, pointed to by the session it came in on and by
the entry of `PlayerList`. Five handlers delete it, and they find it by account name. A login is named by
its address, so a newer login has the greater address, and `loginOf` says to which login an event
belongs: a client's close to the login its session points to, a logout to the one that the game server
was last let in with, a failed kick to the one that the kick was about.

`LoginsOk` is the invariant: sessions point to live players, each to its own, and entries are live players
under their own name. A step keeps it if it is `Orderly`, that is, if it does not delete the login that
another open session points to, does not take an entry away that is newer than the login the event
belongs to, and no game server leaves while one of its players is listed (that loop erases from the map
it runs over). Every step that is not orderly goes wrong.
-/

namespace RZEmulator.Mononoke

open Lib

namespace State

variable {s t : State} {h : History State Event} {e : Event}

/-! ## The login an event belongs to -/

/-- The login that game server `g` was let in with under the name `a`, if `t` did that. -/
def enteredOn (g : GameId) (a : Name) (t : Transition State Event) : Option PlayerPtr :=
  match t.event with
  | .clientLogin g' a' key =>
    if g' = g ∧ a' = a ∧ t.before.isAuthedGame g then t.before.acceptedEntry a key else none
  | _ => none

/-- The login of `a` that `t` told game server `g` to kick. -/
def kickedOn (g : GameId) (a : Name) (t : Transition State Event) : Option PlayerPtr :=
  match t.event with
  | .account c (some row) =>
    if (t.before.clients c).isSome ∧ row.bIsBlocked = false ∧ (playerOf row).szLoginName = a then
      (t.before.getPlayer a).filter fun old =>
        (t.before.heap old).any fun pl => t.before.kickTarget pl = some g
    else none
  | _ => none

def loginOf (h : History State Event) (s : State) : Event → Option PlayerPtr
  | .clientClose c => (s.clients c).bind (·.pPlayer)
  | .clientLogout g a => h.findSome? (enteredOn g a)
  | .clientKickFailed g a => h.findSome? (kickedOn g a)
  | _ => none

/-! ## Orderly steps -/

/-- No open session points to the login `p`. -/
def NotHeld (s : State) (p : PlayerPtr) : Prop :=
  ∀ c < s.nextClient, ∀ cs ∈ s.clients c, cs.pPlayer ≠ some p

/-- The entry under `a`, if there is one, is not held and no newer than the login `p`. -/
def MayDrop (s : State) (a : Name) (p : Option PlayerPtr) : Prop :=
  ∀ q ∈ s.getPlayer a, NotHeld s q ∧ ∀ p' ∈ p, q ≤ p'

/-- A session with this `Game` closes while no player of the server that goes is listed. -/
def LeavesQuietly (s : State) (game : Game) : Prop :=
  ∀ g ∈ s.games game.serverIdx, ∀ gs ∈ s.gameSessions g, gs.game.serverName = game.serverName →
    ∀ e ∈ s.players.entries, ∀ pl ∈ s.heap e.2, pl.nGameIDX ≠ gs.game.serverIdx

instance (s : State) (p : PlayerPtr) : Decidable (NotHeld s p) :=
  inferInstanceAs (Decidable (∀ c < s.nextClient, ∀ cs ∈ s.clients c, cs.pPlayer ≠ some p))

instance (s : State) (a : Name) (p : Option PlayerPtr) : Decidable (MayDrop s a p) :=
  inferInstanceAs (Decidable (∀ q ∈ s.getPlayer a, NotHeld s q ∧ ∀ p' ∈ p, q ≤ p'))

instance (s : State) (game : Game) : Decidable (LeavesQuietly s game) :=
  inferInstanceAs (Decidable (∀ g ∈ s.games game.serverIdx, ∀ gs ∈ s.gameSessions g,
    gs.game.serverName = game.serverName → ∀ e ∈ s.players.entries, ∀ pl ∈ s.heap e.2,
      pl.nGameIDX ≠ gs.game.serverIdx))

def Orderly (h : History State Event) (s : State) : Event → Prop
  | .account c row => ∀ row' ∈ row, row'.bIsBlocked = false → (s.clients c).isSome →
      ∀ old ∈ s.getPlayer (playerOf row').szLoginName,
        ∀ c' < s.nextClient, c' ≠ c → ∀ cs ∈ s.clients c', cs.pPlayer ≠ some old
  | .clientClose c => ∀ cs ∈ s.clients c, ∀ p ∈ cs.pPlayer, ∀ pl ∈ s.heap p,
      ∀ q ∈ s.getPlayer pl.szLoginName, ∀ ql ∈ s.heap q,
        ql.nAccountID = pl.nAccountID ∧ ¬ql.bIsInGame → q ≤ p
  | .clientLogout g a => s.isAuthedGame g = true → MayDrop s a (loginOf h s (.clientLogout g a))
  | .clientKickFailed g a =>
      s.isAuthedGame g = true → MayDrop s a (loginOf h s (.clientKickFailed g a))
  | .gameLogin g idx name => ∀ gs ∈ s.gameSessions g, gs.isOpen = true →
      LeavesQuietly (s.setGameSession g (some ⟨⟨idx, name⟩, false, gs.isOpen⟩)) ⟨idx, name⟩
  | .gameClose g => ∀ gs ∈ s.gameSessions g, gs.isOpen = true → LeavesQuietly s gs.game
  | _ => True

instance (h : History State Event) (s : State) : (e : Event) → Decidable (Orderly h s e)
  | .account c row => inferInstanceAs (Decidable (∀ row' ∈ row, row'.bIsBlocked = false →
      (s.clients c).isSome → ∀ old ∈ s.getPlayer (playerOf row').szLoginName,
        ∀ c' < s.nextClient, c' ≠ c → ∀ cs ∈ s.clients c', cs.pPlayer ≠ some old))
  | .clientClose c => inferInstanceAs (Decidable (∀ cs ∈ s.clients c, ∀ p ∈ cs.pPlayer,
      ∀ pl ∈ s.heap p, ∀ q ∈ s.getPlayer pl.szLoginName, ∀ ql ∈ s.heap q,
        ql.nAccountID = pl.nAccountID ∧ ¬ql.bIsInGame → q ≤ p))
  | .clientLogout g a => inferInstanceAs (Decidable (s.isAuthedGame g = true → MayDrop s a _))
  | .clientKickFailed g a => inferInstanceAs (Decidable (s.isAuthedGame g = true → MayDrop s a _))
  | .gameLogin g idx name => inferInstanceAs (Decidable (∀ gs ∈ s.gameSessions g, gs.isOpen = true →
      LeavesQuietly (s.setGameSession g (some ⟨⟨idx, name⟩, false, gs.isOpen⟩)) ⟨idx, name⟩))
  | .gameClose g => inferInstanceAs (Decidable (∀ gs ∈ s.gameSessions g, gs.isOpen = true →
      LeavesQuietly s gs.game))
  | .clientConnect => inferInstanceAs (Decidable True)
  | .selectServer _ _ _ => inferInstanceAs (Decidable True)
  | .gameConnect => inferInstanceAs (Decidable True)
  | .clientLogin _ _ _ => inferInstanceAs (Decidable True)
  | .gameDestroy _ => inferInstanceAs (Decidable True)

/-! ## The invariant -/

structure LoginsOk (s : State) : Prop where
  fresh : ∀ c, s.nextClient ≤ c → s.clients c = none
  held : ∀ c cs p, s.clients c = some cs → cs.pPlayer = some p → (s.heap p).isSome
  unique : ∀ c c' cs cs' p, s.clients c = some cs → s.clients c' = some cs' →
    cs.pPlayer = some p → cs'.pPlayer = some p → c = c'
  authed : ∀ c cs, s.clients c = some cs → cs.isAuthed = true → cs.pPlayer.isSome
  listed : ∀ a p, s.getPlayer a = some p → ∃ pl, s.heap p = some pl ∧ pl.szLoginName = a
  faultless : ∀ f ∈ s.faults, f = .gameUse

theorem loginsOk_start : LoginsOk start where
  fresh _ _ := rfl
  held _ _ _ hc := by cases hc
  unique _ _ _ _ _ hc := by cases hc
  authed _ _ hc := by cases hc
  listed _ _ ha := by cases ha
  faultless _ hf := by cases hf

/-- A listed login has one entry. -/
theorem LoginsOk.entry_unique (hs : LoginsOk s) {a b : Name} {p : PlayerPtr}
    (ha : s.getPlayer a = some p) (hb : s.getPlayer b = some p) : a = b := by
  obtain ⟨pl, hpl, rfl⟩ := hs.listed a p ha
  obtain ⟨pl', hpl', rfl⟩ := hs.listed b p hb
  rw [Option.some.inj (hpl.symm.trans hpl')]

theorem LoginsOk.lt_nextClient (hs : LoginsOk s) {c : ClientId} {cs : AuthClientSession}
    (hc : s.clients c = some cs) : c < s.nextClient := by
  by_contra hge
  rw [hs.fresh c (Nat.not_lt.mp hge)] at hc
  cases hc

/-- Nothing about logins changes; the game side may have run into a dangling `Game`. -/
structure SameLogins (s t : State) : Prop where
  heap : t.heap = s.heap
  getPlayer : t.getPlayer = s.getPlayer
  clients : t.clients = s.clients
  nextClient : t.nextClient = s.nextClient
  faults : t.faults = s.faults ∨ t.faults = .gameUse :: s.faults

theorem LoginsOk.sameLogins (hs : LoginsOk s) (h : SameLogins s t) : LoginsOk t where
  fresh := by rw [h.nextClient, h.clients]; exact hs.fresh
  held := by rw [h.clients, h.heap]; exact hs.held
  unique := by rw [h.clients]; exact hs.unique
  authed := by rw [h.clients]; exact hs.authed
  listed := by rw [h.getPlayer, h.heap]; exact hs.listed
  faultless f hf := by
    rcases h.faults with heq | heq
    · exact hs.faultless f (heq ▸ hf)
    · rw [heq] at hf
      exact (List.mem_cons.mp hf).elim id (hs.faultless f)

/-- The login `p` is deleted and the entry `a` removed; sessions may go. -/
structure Freed (s t : State) (a : Name) (p : PlayerPtr) : Prop where
  heap : ∀ q, t.heap q = if q = p then none else s.heap q
  getPlayer : ∀ b, t.getPlayer b = if b = a then none else s.getPlayer b
  clients : ∀ c cs, t.clients c = some cs → s.clients c = some cs
  nextClient : t.nextClient = s.nextClient
  faults : t.faults = s.faults

theorem freed_removePlayer {a : Name} {p : PlayerPtr} (hlive : (s.heap p).isSome) :
    Freed s ((s.removePlayer a).deletePlayer p) a p where
  heap q := deletePlayer_heap _ _ _
  getPlayer b := by rw [getPlayer_deletePlayer, getPlayer_removePlayer]
  clients c cs := by
    unfold deletePlayer
    split <;> exact fun hc => hc
  nextClient := by
    unfold deletePlayer
    split <;> rfl
  faults := by
    obtain ⟨pl, hpl⟩ := Option.isSome_iff_exists.mp hlive
    have : (s.removePlayer a).heap p = some pl := hpl
    simp only [deletePlayer, this]
    rfl

theorem LoginsOk.freed {a : Name} {p : PlayerPtr} (hs : LoginsOk s) (h : Freed s t a p)
    (hentry : ∀ b, s.getPlayer b = some p → b = a)
    (hheld : ∀ c cs, t.clients c = some cs → cs.pPlayer ≠ some p) : LoginsOk t where
  fresh c hc := by
    rw [h.nextClient] at hc
    by_contra hne
    obtain ⟨cs, hcs⟩ := Option.ne_none_iff_exists'.mp hne
    have := h.clients c cs hcs
    rw [hs.fresh c hc] at this
    cases this
  held c cs q hc hq := by
    have hne : q ≠ p := fun he => hheld c cs hc (he ▸ hq)
    rw [h.heap, if_neg hne]
    exact hs.held c cs q (h.clients c cs hc) hq
  unique c c' cs cs' q hc hc' := hs.unique c c' cs cs' q (h.clients c cs hc) (h.clients c' cs' hc')
  authed c cs hc := hs.authed c cs (h.clients c cs hc)
  listed b q hb := by
    rw [h.getPlayer] at hb
    split_ifs at hb with hba
    have hne : q ≠ p := fun he => hba (hentry b (he ▸ hb))
    rw [h.heap, if_neg hne]
    exact hs.listed b q hb
  faultless := h.faults ▸ hs.faultless

theorem Freed.dropClient {a : Name} {p : PlayerPtr} (h : Freed s t a p) (c : ClientId) :
    Freed s (t.setClient c none) a p where
  heap := h.heap
  getPlayer := h.getPlayer
  clients k cs hk := by
    rw [setClient_clients] at hk
    split_ifs at hk
    exact h.clients k cs hk
  nextClient := h.nextClient
  faults := h.faults

/-- Entries newer than the login `p₀`, if there is one, survive. -/
def KeepsNewer (s t : State) (p₀ : Option PlayerPtr) : Prop :=
  ∀ p ∈ p₀, ∀ a q, p < q → s.getPlayer a = some q → t.getPlayer a = some q ∧ (t.heap q).isSome

theorem LoginsOk.keepsNewer_refl (hs : LoginsOk s) (p₀ : Option PlayerPtr) : KeepsNewer s s p₀ := by
  intro p _ a q _ hq
  obtain ⟨pl, hpl, -⟩ := hs.listed a q hq
  exact ⟨hq, by rw [hpl]; rfl⟩

/-- The freeing of a login spares newer entries, if the entry that goes is no newer. -/
theorem Freed.keepsNewer {a : Name} {p : PlayerPtr} {p₀ : Option PlayerPtr} (hs : LoginsOk s)
    (h : Freed s t a p) (hentry : ∀ b, s.getPlayer b = some p → b = a)
    (hold : ∀ p' ∈ p₀, ∀ q ∈ s.getPlayer a, q ≤ p') : KeepsNewer s t p₀ := by
  intro p' hp' b q hlt hq
  have hba : b ≠ a := by
    rintro rfl
    exact absurd hlt (Nat.not_lt.mpr (hold p' hp' q hq))
  have hqp : q ≠ p := fun he => hba (hentry b (he ▸ hq))
  obtain ⟨pl, hpl, -⟩ := hs.listed b q hq
  exact ⟨by rw [h.getPlayer, if_neg hba, hq], by rw [h.heap, if_neg hqp, hpl]; rfl⟩

/-! ## Logging in -/

theorem LoginsOk.setClient {c : ClientId} {cs : AuthClientSession} (hs : LoginsOk s)
    (hlt : c < s.nextClient) (hlive : ∀ p ∈ cs.pPlayer, (s.heap p).isSome)
    (halone : ∀ p ∈ cs.pPlayer, ∀ c' cs', s.clients c' = some cs' → cs'.pPlayer ≠ some p)
    (hauth : cs.isAuthed = true → cs.pPlayer.isSome) : LoginsOk (s.setClient c (some cs)) where
  fresh k hk := by
    rw [setClient_clients, if_neg (Nat.ne_of_gt (Nat.lt_of_lt_of_le hlt hk))]
    exact hs.fresh k hk
  held k cs' p hk hp := by
    rw [setClient_clients] at hk
    split_ifs at hk
    · obtain rfl := Option.some.inj hk
      exact hlive p hp
    · exact hs.held k cs' p hk hp
  unique k k' cs₁ cs₂ p hk hk' hp hp' := by
    rw [setClient_clients] at hk hk'
    split_ifs at hk hk' with h₁ h₂ h₂
    · rw [h₁, h₂]
    · obtain rfl := Option.some.inj hk
      exact absurd hp' (halone p hp k' cs₂ hk')
    · obtain rfl := Option.some.inj hk'
      exact absurd hp (halone p hp' k cs₁ hk)
    · exact hs.unique k k' cs₁ cs₂ p hk hk' hp hp'
  authed k cs' hk hauthed := by
    rw [setClient_clients] at hk
    split_ifs at hk
    · obtain rfl := Option.some.inj hk
      exact hauth hauthed
    · exact hs.authed k cs' hk hauthed
  listed := hs.listed
  faultless := hs.faultless

theorem LoginsOk.dropClient (hs : LoginsOk s) (c : ClientId) : LoginsOk (s.setClient c none) := by
  have hback : ∀ k cs, (s.setClient c none).clients k = some cs → s.clients k = some cs := by
    intro k cs hk
    rw [setClient_clients] at hk
    split_ifs at hk
    exact hk
  refine ⟨fun k hk => ?_, fun k cs p hk => hs.held k cs p (hback k cs hk),
    fun k k' cs cs' p hk hk' => hs.unique k k' cs cs' p (hback k cs hk) (hback k' cs' hk'),
    fun k cs hk => hs.authed k cs (hback k cs hk), hs.listed, hs.faultless⟩
  rw [setClient_clients]
  split_ifs
  · rfl
  · exact hs.fresh k hk

theorem LoginsOk.connect (hs : LoginsOk s) : LoginsOk (s.step .clientConnect) := by
  have hs' : LoginsOk { s with nextClient := s.nextClient + 1 } :=
    ⟨fun k hk => hs.fresh k (Nat.le_of_succ_le hk), hs.held, hs.unique, hs.authed, hs.listed,
      hs.faultless⟩
  have hidle : ∀ p, p ∉ ({} : AuthClientSession).pPlayer := fun p hp => by cases hp
  exact hs'.setClient (Nat.lt_succ_self _) (fun p hp => absurd hp (hidle p))
    (fun p hp => absurd hp (hidle p)) (fun h => by cases h)

/-- The login `p` is written to, under the same name; a login that is new is not listed. -/
theorem LoginsOk.setHeap {p : PlayerPtr} {pl : Player} (hs : LoginsOk s)
    (hname : ∀ a, s.getPlayer a = some p → pl.szLoginName = a) :
    LoginsOk (s.setHeap p (some pl)) where
  fresh := hs.fresh
  held c cs q hc hq := by
    rw [setHeap_heap]
    split_ifs
    · rfl
    · exact hs.held c cs q hc hq
  unique := hs.unique
  authed := hs.authed
  listed a q hq := by
    rw [setHeap_heap]
    split_ifs with h
    · exact ⟨pl, rfl, hname a (h ▸ hq)⟩
    · exact hs.listed a q hq
  faultless := hs.faultless

theorem LoginsOk.updPlayer {p : PlayerPtr} {f : Player → Player} (hs : LoginsOk s)
    (hlive : (s.heap p).isSome) (hname : ∀ pl, (f pl).szLoginName = pl.szLoginName) :
    LoginsOk (s.updPlayer p f) := by
  obtain ⟨pl, hpl⟩ := Option.isSome_iff_exists.mp hlive
  simp only [State.updPlayer, hpl]
  refine hs.setHeap fun a ha => ?_
  obtain ⟨pl', hpl', rfl⟩ := hs.listed a p ha
  rw [hname, Option.some.inj (hpl.symm.trans hpl')]

theorem LoginsOk.startLogin {c : ClientId} {cs : AuthClientSession} (hs : LoginsOk s) (hk : Keyed s)
    (hc : s.clients c = some cs) (row : AccountRow) (isAuthed : Bool) :
    LoginsOk (s.startLogin c row isAuthed) := by
  have hnew : LoginsOk (s.newPlayer (playerOf row)) := by
    have hset : LoginsOk (s.setHeap s.nextPlayer (some (playerOf row))) := hs.setHeap fun a ha =>
      absurd (hk.listed a _ ha) (Nat.lt_irrefl _)
    exact ⟨hset.fresh, hset.held, hset.unique, hset.authed, hset.listed, hset.faultless⟩
  refine hnew.setClient (hs.lt_nextClient hc) ?_ ?_ fun _ => rfl
  · rintro p ⟨⟩
    simp [newPlayer, setHeap_heap]
  · rintro p ⟨⟩ c' cs' hc' hp
    obtain ⟨pl, hpl⟩ := Option.isSome_iff_exists.mp (hs.held c' cs' _ hc' hp)
    exact absurd (hk.heap _ pl hpl) (Nat.lt_irrefl _)

theorem LoginsOk.addPlayer {a : Name} {p : PlayerPtr} {pl : Player} (hs : LoginsOk s)
    (hp : s.heap p = some pl) (hname : pl.szLoginName = a) : LoginsOk (s.addPlayer a p) := by
  refine ⟨hs.fresh, hs.held, hs.unique, hs.authed, fun b q hq => ?_, hs.faultless⟩
  rw [getPlayer_addPlayer] at hq
  split_ifs at hq with hb
  · obtain rfl := Option.some.inj hq
    exact ⟨pl, hp, hname.trans hb.symm⟩
  · exact hs.listed b q hq

/-- Apart from the kick, whose message may go to a dangling `Game`. -/
theorem dropOldPlayer_eq {old : PlayerPtr} {pl : Player} (hpl : s.heap old = some pl) :
    ∃ s', SameLogins s s' ∧
      s.dropOldPlayer old = (s'.removePlayer pl.szLoginName).deletePlayer old := by
  simp only [dropOldPlayer, hpl]
  refine ⟨_, ?_, rfl⟩
  split
  · exact ⟨rfl, rfl, rfl, rfl, .inl rfl⟩
  · split_ifs
    · exact ⟨rfl, rfl, rfl, rfl, .inr rfl⟩
    · exact ⟨rfl, rfl, rfl, rfl, .inl rfl⟩

/-- The earlier login makes way: its entry is removed, and nobody points to it. -/
theorem LoginsOk.dropOldEntry {a : Name} (hs : LoginsOk s)
    (hheld : ∀ old ∈ s.getPlayer a, ∀ c cs, s.clients c = some cs → cs.pPlayer ≠ some old) :
    LoginsOk (s.dropOldEntry a) ∧
      ∀ q, s.getPlayer a ≠ some q → (s.dropOldEntry a).heap q = s.heap q := by
  unfold State.dropOldEntry
  split
  · exact ⟨hs, fun _ _ => rfl⟩
  · rename_i old hold
    obtain ⟨pl, hpl, rfl⟩ := hs.listed a old hold
    obtain ⟨s', hkick, heq⟩ := dropOldPlayer_eq hpl
    have hs' := hs.sameLogins hkick
    have hfreed : Freed s' ((s'.removePlayer pl.szLoginName).deletePlayer old) pl.szLoginName old :=
      freed_removePlayer (by rw [hkick.heap, hpl]; rfl)
    rw [heq]
    refine ⟨hs'.freed hfreed (fun b hb => ?_) fun c cs hc hp => ?_, fun q hq => ?_⟩
    · rw [hkick.getPlayer] at hb
      exact hs.entry_unique hb hold
    · have hc' := hfreed.clients c cs hc
      rw [hkick.clients] at hc'
      exact hheld old hold c cs hc' hp
    · have hne : q ≠ old := fun he => hq (he ▸ hold)
      rw [hfreed.heap, if_neg hne, hkick.heap]

theorem LoginsOk.account {c : ClientId} {row : Option AccountRow} (hs : LoginsOk s) (hk : Keyed s)
    (ho : Orderly h s (.account c row)) : LoginsOk (s.handleLoginPacket c row) := by
  unfold handleLoginPacket
  split
  · rename_i cs row hc
    split_ifs with hblock
    · exact hs.startLogin hk hc row cs.isAuthed
    · have hs' := hs.startLogin hk hc row true
      obtain ⟨hdrop, hheap⟩ := hs'.dropOldEntry (a := (playerOf row).szLoginName) (by
        intro old hold c' cs' hc' hp
        have hold' : s.getPlayer (playerOf row).szLoginName = some old := hold
        simp only [State.startLogin, setClient_clients] at hc'
        split_ifs at hc' with heq
        · -- the session itself has moved on to the new login
          obtain rfl := Option.some.inj hc'
          obtain rfl := Option.some.inj hp
          exact absurd (hk.listed _ _ hold') (Nat.lt_irrefl _)
        · exact ho row rfl (by simpa using hblock) (by rw [hc]; rfl) old hold' c'
            (hs.lt_nextClient hc') heq cs' hc' hp)
      have hnew : s.getPlayer (playerOf row).szLoginName ≠ some s.nextPlayer := fun ha =>
        absurd (hk.listed _ _ ha) (Nat.lt_irrefl _)
      exact hdrop.addPlayer ((hheap _ hnew).trans (if_pos rfl)) rfl
  · exact hs

/-! ## Leaving -/

/-- What the close of a client session does: only the session goes, or the login it points to is freed
with the entry under its name. -/
theorem clientClose_cases (hs : LoginsOk s) (c : ClientId) :
    s.handleClientClose c = s ∨ s.handleClientClose c = s.setClient c none ∨
      ∃ cs p pl q ql, s.clients c = some cs ∧ cs.pPlayer = some p ∧ s.heap p = some pl ∧
        s.getPlayer pl.szLoginName = some q ∧ s.heap q = some ql ∧
        (ql.nAccountID = pl.nAccountID ∧ ¬ql.bIsInGame) ∧
        Freed s (s.handleClientClose c) pl.szLoginName p ∧ (s.handleClientClose c).clients c = none := by
  unfold handleClientClose
  split
  · exact .inl rfl
  · rename_i cs hc
    split
    · exact .inr (.inl rfl)
    · rename_i p hp
      obtain ⟨pl, hpl⟩ := Option.isSome_iff_exists.mp (hs.held c cs p hc hp)
      simp only [onClientClose, hpl]
      split
      · exact .inr (.inl rfl)
      · rename_i q hq
        obtain ⟨ql, hql, hname⟩ := hs.listed _ q hq
        simp only [hql]
        split_ifs with hcond
        · refine .inr (.inr ⟨cs, p, pl, q, ql, hc, hp, hpl, hq, hql, hcond, ?_, by simp [setClient_clients]⟩)
          rw [hname]
          exact (freed_removePlayer (by rw [hpl]; rfl)).dropClient c
        · exact .inr (.inl rfl)

theorem LoginsOk.clientClose (hs : LoginsOk s) (c : ClientId) : LoginsOk (s.handleClientClose c) := by
  rcases clientClose_cases hs c with heq | heq | ⟨cs, p, pl, q, ql, hc, hp, hpl, -, -, -, hfreed, hgone⟩
  · rw [heq]; exact hs
  · rw [heq]; exact hs.dropClient c
  · refine hs.freed hfreed (fun b hb => ?_) fun c' cs' hc' hp' => ?_
    · obtain ⟨pl', hpl', rfl⟩ := hs.listed b p hb
      rw [Option.some.inj (hpl.symm.trans hpl')]
    · obtain rfl := hs.unique c' c cs' cs p (hfreed.clients c' cs' hc') hc hp' hp
      rw [hgone] at hc'
      cases hc'

theorem clientClose_keepsNewer {c : ClientId} (hs : LoginsOk s) (ho : Orderly h s (.clientClose c)) :
    KeepsNewer s (s.handleClientClose c) (loginOf h s (.clientClose c)) := by
  rcases clientClose_cases hs c with
    heq | heq | ⟨cs, p, pl, q, ql, hc, hp, hpl, hq, hql, hcond, hfreed, -⟩
  · rw [heq]; exact hs.keepsNewer_refl _
  · rw [heq]; exact hs.keepsNewer_refl _
  · refine hfreed.keepsNewer hs (fun b hb => ?_) fun p' hp' q' hq' => ?_
    · obtain ⟨pl', hpl', rfl⟩ := hs.listed b p hb
      rw [Option.some.inj (hpl.symm.trans hpl')]
    · have hp'' : p = p' := by
        simp only [loginOf, hc, Option.bind_some, hp, Option.mem_def] at hp'
        exact Option.some.inj hp'
      obtain rfl := Option.some.inj (hq.symm.trans hq')
      exact hp'' ▸ ho cs hc p hp pl hpl q hq ql hql hcond

/-- What a logout or a failed kick does. -/
theorem dropPlayer_cases (hs : LoginsOk s) (a : Name) :
    s.dropPlayer a = s ∨ ∃ p, s.getPlayer a = some p ∧ Freed s (s.dropPlayer a) a p := by
  unfold dropPlayer
  split
  · exact .inl rfl
  · rename_i p hp
    obtain ⟨pl, hpl, -⟩ := hs.listed a p hp
    exact .inr ⟨p, hp, freed_removePlayer (by rw [hpl]; rfl)⟩

theorem LoginsOk.dropPlayer {a : Name} {p₀ : Option PlayerPtr} (hs : LoginsOk s) (hmay : MayDrop s a p₀) :
    LoginsOk (s.dropPlayer a) := by
  rcases dropPlayer_cases hs a with heq | ⟨p, hp, hfreed⟩
  · rw [heq]; exact hs
  · refine hs.freed hfreed (fun b hb => hs.entry_unique hb hp) fun c cs hc => ?_
    have hc' := hfreed.clients c cs hc
    exact (hmay p hp).1 c (hs.lt_nextClient hc') cs hc'

theorem dropPlayer_keepsNewer {a : Name} {p₀ : Option PlayerPtr} (hs : LoginsOk s) (hmay : MayDrop s a p₀) :
    KeepsNewer s (s.dropPlayer a) p₀ := by
  rcases dropPlayer_cases hs a with heq | ⟨p, hp, hfreed⟩
  · rw [heq]; exact hs.keepsNewer_refl _
  · exact hfreed.keepsNewer hs (fun b hb => hs.entry_unique hb hp) fun p' hp' q hq => (hmay q hq).2 p' hp'

/-! ## Game servers -/

/-- The loop over the players deletes nobody, if nobody is on the server. -/
theorem closePlayers_eq {idx : Nat} (hs : LoginsOk s)
    (hquiet : ∀ e ∈ s.players.entries, ∀ pl ∈ s.heap e.2, pl.nGameIDX ≠ idx) :
    s.closePlayers idx = s := by
  have hround : ∀ e ∈ s.players.entries, s.closePlayer idx e.2 = s := by
    intro e he
    obtain ⟨pl, hpl, -⟩ := hs.listed e.1 e.2 ((mem_entries_iff s e.2 e.1).mp he)
    simp only [closePlayer, hpl, if_neg (hquiet e he pl hpl)]
  suffices ∀ es : List (Sigma fun _ : Name => PlayerPtr), (∀ e ∈ es, s.closePlayer idx e.2 = s) →
      es.foldl (fun s e => s.closePlayer idx e.2) s = s from this _ hround
  intro es hes
  induction es with
  | nil => rfl
  | cons e es ih =>
    rw [List.foldl_cons, hes e (List.mem_cons_self ..)]
    exact ih fun e' he' => hes e' (List.mem_cons_of_mem _ he')

theorem onGameClose_sameLogins {game : Game} (hs : LoginsOk s) (hquiet : LeavesQuietly s game) :
    SameLogins s (s.onGameClose game) := by
  unfold onGameClose
  split
  · exact ⟨rfl, rfl, rfl, rfl, .inl rfl⟩
  · rename_i g hg
    split
    · exact ⟨rfl, rfl, rfl, rfl, .inr rfl⟩
    · rename_i gs hgs
      split_ifs with hname
      · rw [closePlayers_eq hs (hquiet g hg gs hgs hname)]
        exact ⟨rfl, rfl, rfl, rfl, .inl rfl⟩
      · exact ⟨rfl, rfl, rfl, rfl, .inl rfl⟩

theorem closeSocket_sameLogins {g : GameId} (hs : LoginsOk s)
    (hquiet : ∀ gs ∈ s.gameSessions g, gs.isOpen = true → LeavesQuietly s gs.game) :
    SameLogins s (s.closeSocket g) := by
  unfold closeSocket
  split
  · exact ⟨rfl, rfl, rfl, rfl, .inl rfl⟩
  · rename_i gs hgs
    split_ifs with hopen
    · have hs' : LoginsOk (s.setGameSession g (some ⟨gs.game, gs.bIsAuthed, false⟩)) :=
        hs.sameLogins ⟨rfl, rfl, rfl, rfl, .inl rfl⟩
      have hquiet' : LeavesQuietly (s.setGameSession g (some ⟨gs.game, gs.bIsAuthed, false⟩)) gs.game := by
        intro k hk ks hks hname
        rw [Option.mem_def, setGameSession_gameSessions] at hks
        split_ifs at hks with hkg
        · obtain rfl := Option.some.inj hks
          subst hkg
          exact hquiet gs hgs hopen k hk gs hgs rfl
        · exact hquiet gs hgs hopen k hk ks hks hname
      have hsame := onGameClose_sameLogins hs' hquiet'
      exact ⟨hsame.heap, hsame.getPlayer, hsame.clients, hsame.nextClient, hsame.faults⟩
    · exact ⟨rfl, rfl, rfl, rfl, .inl rfl⟩

theorem handleGameLogin_sameLogins {g : GameId} {idx : Nat} {name : Name} (hs : LoginsOk s)
    (ho : Orderly h s (.gameLogin g idx name)) : SameLogins s (s.handleGameLogin g idx name) := by
  unfold handleGameLogin
  split
  · exact ⟨rfl, rfl, rfl, rfl, .inl rfl⟩
  · rename_i gs hgs
    split
    · exact ⟨rfl, rfl, rfl, rfl, .inl rfl⟩
    · have hs' : LoginsOk (s.setGameSession g (some ⟨⟨idx, name⟩, false, gs.isOpen⟩)) :=
        hs.sameLogins ⟨rfl, rfl, rfl, rfl, .inl rfl⟩
      have hsame := closeSocket_sameLogins hs' (g := g) (by
        intro ks hks hopen
        obtain rfl := Option.some.inj ((if_pos rfl).symm.trans hks)
        exact ho gs hgs hopen)
      exact ⟨hsame.heap, hsame.getPlayer, hsame.clients, hsame.nextClient, hsame.faults⟩

theorem destroyGame_sameLogins (s : State) (g : GameId) : SameLogins s (s.destroyGame g) := by
  unfold destroyGame
  split
  · exact ⟨rfl, rfl, rfl, rfl, .inl rfl⟩
  · split_ifs
    · exact ⟨rfl, rfl, rfl, rfl, .inl rfl⟩
    · split
      · exact ⟨rfl, rfl, rfl, rfl, .inl rfl⟩
      · split
        · exact ⟨rfl, rfl, rfl, rfl, .inr rfl⟩
        · exact ⟨rfl, rfl, rfl, rfl, .inl rfl⟩
    · exact ⟨rfl, rfl, rfl, rfl, .inl rfl⟩

/-! ## Runs -/

theorem LoginsOk.selectServer (hs : LoginsOk s) (c : ClientId) (idx : Nat) (r : Rands) :
    LoginsOk (s.handleSelectServer c idx r) := by
  unfold handleSelectServer
  split
  · rename_i p hc
    exact hs.updPlayer (hs.held c _ p hc rfl) fun _ => rfl
  · rename_i hc
    -- an authenticated session points to a login
    exact absurd (hs.authed c _ hc rfl) (by simp)
  · exact hs

theorem LoginsOk.clientLogin (hs : LoginsOk s) (a : Name) (key : Nat) :
    LoginsOk (s.handleClientLogin a key) := by
  unfold handleClientLogin
  split
  · exact hs
  · rename_i p hp
    obtain ⟨pl, hpl, hname⟩ := hs.listed a p hp
    simp only [hpl]
    split_ifs
    · exact hs.setHeap fun b hb => hname.trans (hs.entry_unique hp hb)
    · exact hs

theorem LoginsOk.step (hs : LoginsOk s) (hk : Keyed s) (ho : Orderly h s e) : LoginsOk (s.step e) := by
  cases e with
  | clientConnect => exact hs.connect
  | account c row => exact hs.account hk ho
  | selectServer c idx r => exact hs.selectServer c idx r
  | clientClose c => exact hs.clientClose c
  | gameConnect => exact hs.sameLogins ⟨rfl, rfl, rfl, rfl, .inl rfl⟩
  | gameLogin g idx name => exact hs.sameLogins (handleGameLogin_sameLogins hs ho)
  | clientLogin g a key =>
    simp only [State.step]
    split_ifs
    · exact hs.clientLogin a key
    · exact hs
  | clientLogout g a =>
    simp only [State.step]
    split_ifs with hauthed
    · exact hs.dropPlayer (ho hauthed)
    · exact hs
  | clientKickFailed g a =>
    simp only [State.step]
    split_ifs with hauthed
    · exact hs.dropPlayer (ho hauthed)
    · exact hs
  | gameClose g => exact hs.sameLogins (closeSocket_sameLogins hs ho)
  | gameDestroy g => exact hs.sameLogins (destroyGame_sameLogins s g)

/-- An orderly step spares the entries that are newer than the login it belongs to. -/
theorem keepsNewer_step (hs : LoginsOk s) (ho : Orderly h s e) :
    KeepsNewer s (s.step e) (loginOf h s e) := by
  cases e with
  | clientClose c => exact clientClose_keepsNewer hs ho
  | clientLogout g a =>
    simp only [State.step]
    split_ifs with hauthed
    · exact dropPlayer_keepsNewer hs (ho hauthed)
    · exact hs.keepsNewer_refl _
  | clientKickFailed g a =>
    simp only [State.step]
    split_ifs with hauthed
    · exact dropPlayer_keepsNewer hs (ho hauthed)
    · exact hs.keepsNewer_refl _
  | clientConnect | account | selectServer | gameConnect | gameLogin | clientLogin | gameClose
  | gameDestroy =>
    -- these belong to no earlier login
    intro p hp
    cases hp

/-- What the logins of a reachable state and its history should be. -/
structure LoginsSound (h : History State Event) (s : State) : Prop where
  /-- An authenticated session points to a live player. -/
  session : ∀ c cs, s.clients c = some cs → cs.isAuthed = true →
    ∃ p, cs.pPlayer = some p ∧ (s.heap p).isSome
  /-- An entry is a live player of the account it is keyed by. -/
  entry : ∀ a p, s.getPlayer a = some p → ∃ pl, s.heap p = some pl ∧ pl.szLoginName = a
  /-- No event that belongs to a login removed or freed the entry of a newer one. -/
  newer : ∀ h₂ t h₁, h = h₂ ++ t :: h₁ → KeepsNewer t.before t.after (loginOf h₁ t.before t.event)
  /-- No player was freed twice or used after it was freed, nor read from a node of the map that was
  erased. -/
  faultless : ∀ f ∈ s.faults, f = .gameUse

theorem loginsOk_of_run (hrun : authServer.RunWhere Orderly h s) : LoginsOk s :=
  hrun.invariant (I := fun _ s => LoginsOk s) (fun _ hs => authServer_init hs ▸ loginsOk_start)
    fun _ _ _ _ hr hs ho hstep => authServer_step hstep ▸ hs.step (keyed_of_run hr) ho

/-- **The registry of logins** is sound after every run of orderly steps. -/
theorem loginsSound_of_run (hrun : authServer.RunWhere Orderly h s) : LoginsSound h s := by
  have hs := loginsOk_of_run hrun
  refine ⟨fun c cs hc hauthed => ?_, hs.listed, ?_, hs.faultless⟩
  · obtain ⟨p, hp⟩ := Option.isSome_iff_exists.mp (hs.authed c cs hc hauthed)
    exact ⟨p, hp, hs.held c cs p hc hp⟩
  · refine hrun.invariant (I := fun h _ => ∀ h₂ t h₁, h = h₂ ++ t :: h₁ →
      KeepsNewer t.before t.after (loginOf h₁ t.before t.event)) ?_ ?_
    · intro _ _ h₂ t h₁ heq
      simp at heq
    · intro h s e s' hr ih ho hstep h₂ t h₁ heq
      cases h₂ with
      | nil =>
        obtain ⟨rfl, rfl⟩ := List.cons.inj heq
        exact authServer_step hstep ▸ keepsNewer_step (loginsOk_of_run hr) ho
      | cons u h₂ => exact ih h₂ t h₁ (List.cons.inj heq).2

/-- A player logs in, enters the game server, leaves the authentication server and the game, and logs in
again. -/
theorem loginsSound_enterAndLeave :
    ∃ (h : History State Event) (s : State), h.length = 10 ∧ LoginsSound h s := by
  have hex : (System.exec Orderly (fun s e => some (s.step e))
      [.gameConnect, .gameLogin 0 1 ['g'], .clientConnect, .account 0 (some ⟨5, ['A'], false, 0⟩),
        .selectServer 0 1 (1, 1, 1, 7), .clientLogin 0 ['a'] 7, .clientClose 0, .clientLogout 0 ['a'],
        .clientConnect, .account 1 (some ⟨5, ['A'], false, 0⟩)] [] start).map
      (fun x => x.1.length) = some 10 := by decide +kernel
  obtain ⟨⟨h, s⟩, hrun, hlen⟩ := Option.map_eq_some_iff.mp hex
  exact ⟨h, s, hlen, loginsSound_of_run (System.run_exec (I := (· = start)) _ (.init rfl) hrun)⟩

/-- A second login of the account frees the player that the first session still points to. -/
theorem not_loginsSound : ¬ ∀ h s, authServer.Run h s → LoginsSound h s := by
  intro hall
  have hex : (System.exec (fun _ _ _ => True) (fun s e => some (s.step e))
      [.clientConnect, .account 0 (some ⟨5, ['A'], false, 0⟩), .clientConnect,
        .account 1 (some ⟨5, ['A'], false, 0⟩)] [] start).map
      (fun x => (x.2.clients 0, (x.2.heap 0).isSome)) = some (some ⟨true, some 0⟩, false) := by decide
  obtain ⟨⟨h, s⟩, hrun, hfacts⟩ := Option.map_eq_some_iff.mp hex
  obtain ⟨hclient, hdead⟩ := Prod.mk.inj hfacts
  have hr : authServer.Run h s := System.run_exec (I := (· = start)) _ (.init rfl) hrun
  obtain ⟨p, hp, hlive⟩ := (hall h s hr).session 0 _ hclient rfl
  obtain rfl := Option.some.inj hp
  rw [hdead] at hlive
  cases hlive

end State

end RZEmulator.Mononoke
