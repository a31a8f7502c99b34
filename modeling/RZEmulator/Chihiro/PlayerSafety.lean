import RZEmulator.Chihiro.PlayerAccess

/-!
# The player pointer is null or points to a player

`SessionOk` is the invariant of a session: `m_pPlayer` is null or points to a player who is not marked
for deletion, and no other player of the session is in the world. `Careful` says which packets keep it,
and `SessionOk.careful_iff` that no others do.
-/

namespace RZEmulator.Chihiro.WorldSession

open Lib

variable {s s' : State} {srv : Server} {p : Player} {a : Nat}

/-! ## The invariant -/

structure SessionOk (s : State) : Prop where
  nodup : (s.players.map (·.ptr)).Nodup
  fresh : ∀ p ∈ s.players, p.ptr < s.nextPtr
  /-- The pointer does not dangle. -/
  live : ∀ a, s.m_pPlayer = some a → ∃ p ∈ s.players, p.ptr = a ∧ p.bDeleteRequest = false
  /-- Only the player whom the client plays is in the world. -/
  alone : ∀ p ∈ s.players, p.inWorld = true → s.m_pPlayer = some p.ptr

theorem Init.sessionOk (h : Init s) : SessionOk s := by
  obtain ⟨hptr, -, -, hplayers⟩ := h
  refine ⟨by rw [hplayers]; exact List.nodup_nil, ?_, ?_, ?_⟩
  · rw [hplayers]
    intro p hp
    cases hp
  · rw [hptr]
    intro a ha
    cases ha
  · rw [hplayers]
    intro p hp
    cases hp

/-- At most one player of the session is in the world. -/
theorem SessionOk.inWorld_le_one (hs : SessionOk s) : s.inWorld.length ≤ 1 := by
  have hnd : (s.inWorld.map (·.ptr)).Nodup := hs.nodup.sublist (List.filter_sublist.map _)
  have hsub : s.inWorld.map (·.ptr) ⊆ s.m_pPlayer.toList := by
    intro a ha
    obtain ⟨p, hp, rfl⟩ := List.mem_map.mp ha
    obtain ⟨hmem, hin⟩ := List.mem_filter.mp hp
    rw [hs.alone p hmem hin]
    exact List.mem_singleton.mpr rfl
  have hle : (s.inWorld.map (·.ptr)).length ≤ s.m_pPlayer.toList.length := hnd.length_le_of_subset hsub
  rw [List.length_map] at hle
  refine Nat.le_trans hle ?_
  cases s.m_pPlayer <;> simp

theorem SessionOk.exists_player (hs : SessionOk s) (h : s.m_pPlayer = some a) :
    ∃ p, s.player = some p ∧ p.ptr = a := by
  obtain ⟨p, hp, hptr, -⟩ := hs.live a h
  exact ⟨p, (State.player_eq_some_iff hs.nodup).mpr ⟨hp, by rw [h, hptr]⟩, hptr⟩

/-! ## Changes of the players -/

theorem State.map_ptr_modify {f : Player → Player} (hf : ∀ p, (f p).ptr = p.ptr) :
    (s.modify a f).players.map (·.ptr) = s.players.map (·.ptr) := by
  show (s.players.map fun p => if p.ptr = a then f p else p).map (·.ptr) = _
  rw [List.map_map]
  refine List.map_congr_left fun p _ => ?_
  by_cases hp : p.ptr = a
  · simp [hp, hf]
  · simp [hp]

theorem State.mem_modify {f : Player → Player} {q : Player} :
    q ∈ (s.modify a f).players ↔ ∃ p ∈ s.players, (if p.ptr = a then f p else p) = q := List.mem_map

/-- A player leaves the world, or stays as he is. -/
theorem SessionOk.modify (hs : SessionOk s) {f : Player → Player} (hptr : ∀ p, (f p).ptr = p.ptr)
    (hdel : ∀ p, (f p).bDeleteRequest = p.bDeleteRequest)
    (hin : ∀ p, (f p).inWorld = true → p.inWorld = true) : SessionOk (s.modify a f) := by
  have hg : ∀ p : Player, (if p.ptr = a then f p else p).ptr = p.ptr ∧
      (if p.ptr = a then f p else p).bDeleteRequest = p.bDeleteRequest ∧
      ((if p.ptr = a then f p else p).inWorld = true → p.inWorld = true) := by
    intro p
    split_ifs
    · exact ⟨hptr p, hdel p, hin p⟩
    · exact ⟨rfl, rfl, id⟩
  refine ⟨by rw [State.map_ptr_modify hptr]; exact hs.nodup, fun q hq => ?_, fun b hb => ?_, fun q hq => ?_⟩
  · obtain ⟨p, hp, rfl⟩ := State.mem_modify.mp hq
    rw [(hg p).1]
    exact hs.fresh p hp
  · obtain ⟨p, hp, hpb, hpdel⟩ := hs.live b hb
    exact ⟨_, State.mem_modify.mpr ⟨p, hp, rfl⟩, (hg p).1.trans hpb, (hg p).2.1.trans hpdel⟩
  · obtain ⟨p, hp, rfl⟩ := State.mem_modify.mp hq
    intro hin'
    rw [(hg p).1]
    exact hs.alone p hp ((hg p).2.2 hin')

theorem SessionOk.update (hs : SessionOk s) : SessionOk s.update := by
  refine ⟨hs.nodup.sublist (List.filter_sublist.map _), fun p hp => hs.fresh p (List.mem_of_mem_filter hp),
    fun a ha => ?_, fun p hp => hs.alone p (List.mem_of_mem_filter hp)⟩
  obtain ⟨p, hp, hpa, hdel⟩ := hs.live a ha
  exact ⟨p, List.mem_filter.mpr ⟨hp, by rw [hdel]; rfl⟩, hpa, hdel⟩

theorem SessionOk.onReturnToLobby (hs : SessionOk s) :
    ∃ s', onReturnToLobby s = some s' ∧ SessionOk s' := by
  unfold WorldSession.onReturnToLobby
  cases hptr : s.m_pPlayer with
  | none => exact ⟨s, rfl, hs⟩
  | some a =>
    obtain ⟨p, hp, rfl⟩ := hs.exists_player hptr
    have hkeep : ∀ q : Player, q.cleanupsBeforeDelete.deleteThis.ptr = q.ptr := fun _ => rfl
    rw [if_neg (by simp), State.onPlayer, hp]
    refine ⟨_, rfl, ?_, fun q hq => ?_, fun b hb => (nomatch hb), fun q hq hin => ?_⟩
    · exact (State.map_ptr_modify hkeep).symm ▸ hs.nodup
    · obtain ⟨r, hr, rfl⟩ := State.mem_modify.mp hq
      split_ifs
      · exact hs.fresh r hr
      · exact hs.fresh r hr
    · -- whoever is in the world is not the one who has left it, and nobody else was there
      obtain ⟨r, hr, rfl⟩ := State.mem_modify.mp hq
      split_ifs at hin with hrp
      · cases hin
      · refine absurd (Option.some.inj ?_) hrp
        rw [← hs.alone r hr hin, hptr]

theorem SessionOk.closeSocket (hs : SessionOk s) : ∃ s', closeSocket s = some s' ∧ SessionOk s' := by
  unfold WorldSession.closeSocket
  by_cases hclosed : s.closed = true
  · rw [if_pos hclosed]
    exact ⟨s, rfl, hs⟩
  · rw [if_neg hclosed]
    exact SessionOk.onReturnToLobby (s := { s with closed := true }) ⟨hs.nodup, hs.fresh, hs.live, hs.alone⟩

/-! ## Login -/

/-- The session after a login, where `f` is what has become of the new player. -/
def State.loggedIn (s : State) (f : Player → Player) : State :=
  { s.allocPlayer with players := s.players ++ [f s.newPlayer] }

theorem SessionOk.onPlayer_allocPlayer (hs : SessionOk s) (f : Player → Player) :
    s.allocPlayer.onPlayer f = some (s.loggedIn f) := by
  have hne : ∀ p ∈ s.players, p.ptr ≠ s.nextPtr := fun p hp => Nat.ne_of_lt (hs.fresh p hp)
  have hfind : s.allocPlayer.player = some s.newPlayer := by
    show (s.players ++ [s.newPlayer]).find? (fun p => decide (p.ptr = s.nextPtr)) = _
    rw [List.find?_append, List.find?_eq_none.mpr fun p hp => by simpa using hne p hp, Option.none_or]
    simp [State.newPlayer]
  have hmap : (s.players ++ [s.newPlayer]).map (fun p => if p.ptr = s.nextPtr then f p else p) =
      s.players ++ [f s.newPlayer] := by
    rw [List.map_append, List.map_congr_left fun p hp => if_neg (hne p hp), List.map_id', List.map_singleton]
    exact congrArg (fun p => s.players ++ [p]) (if_pos rfl)
  unfold State.onPlayer
  rw [hfind, Option.map_some]
  exact congrArg (fun l => some { s.allocPlayer with players := l }) hmap

/-- The login keeps the invariant if the new player is not deleted at once, and the player before him is
not in the world. -/
theorem SessionOk.loggedIn_iff (hs : SessionOk s) {f : Player → Player} (hf : ∀ p, (f p).ptr = p.ptr) :
    SessionOk (s.loggedIn f) ↔
      (f s.newPlayer).bDeleteRequest = false ∧ ∀ p ∈ s.player, p.inWorld = false := by
  have hnew : (f s.newPlayer).ptr = s.nextPtr := hf _
  have hne : ∀ p ∈ s.players, p.ptr ≠ s.nextPtr := fun p hp => Nat.ne_of_lt (hs.fresh p hp)
  have hmem : ∀ {q}, q ∈ (s.loggedIn f).players ↔ q ∈ s.players ∨ q = f s.newPlayer := by
    intro q
    show q ∈ s.players ++ [f s.newPlayer] ↔ _
    rw [List.mem_append, List.mem_singleton]
  constructor
  · intro h
    constructor
    · obtain ⟨q, hq, hqa, hdel⟩ := h.live s.nextPtr rfl
      rcases hmem.mp hq with hq | rfl
      · exact absurd hqa (hne q hq)
      · exact hdel
    · intro p hp
      obtain ⟨hp, -⟩ := (State.player_eq_some_iff hs.nodup).mp hp
      refine Bool.eq_false_iff.mpr fun hin => hne p hp ?_
      exact (Option.some.inj (h.alone p (hmem.mpr (.inl hp)) hin)).symm
  · rintro ⟨hdel, hout⟩
    refine ⟨?_, fun q hq => ?_, fun a ha => ?_, fun q hq hin => ?_⟩
    · show ((s.players ++ [f s.newPlayer]).map (·.ptr)).Nodup
      rw [List.map_append, List.map_singleton, hnew]
      refine List.nodup_append.mpr ⟨hs.nodup, List.nodup_singleton _, ?_⟩
      intro a ha b hb
      obtain ⟨p, hp, rfl⟩ := List.mem_map.mp ha
      rw [List.mem_singleton.mp hb]
      exact hne p hp
    · show q.ptr < s.nextPtr + 1
      rcases hmem.mp hq with hq | rfl
      · exact Nat.lt_succ_of_lt (hs.fresh q hq)
      · exact Nat.lt_succ_of_le (Nat.le_of_eq hnew)
    · exact ⟨_, hmem.mpr (.inr rfl), hnew.trans (Option.some.inj ha), hdel⟩
    · rcases hmem.mp hq with hq | rfl
      · have hplayer := (State.player_eq_some_iff hs.nodup).mpr ⟨hq, hs.alone q hq hin⟩
        rw [hout q hplayer] at hin
        cases hin
      · exact congrArg some hnew.symm

theorem SessionOk.onLogin_iff (hs : SessionOk s) (name : String) :
    (∃ s', onLogin srv s name = some s' ∧ SessionOk s') ↔
      srv.readCharacter name s.accountId = true ∧ ∀ p ∈ s.player, p.inWorld = false := by
  unfold onLogin
  cases hread : srv.readCharacter name s.accountId with
  | false =>
    rw [if_neg (by decide), hs.onPlayer_allocPlayer]
    constructor
    · rintro ⟨s', hs', hok⟩
      obtain rfl := Option.some.inj hs'
      -- the pointer is left to a player who is marked for deletion
      have hsame : ∀ p : Player, p.deleteThis.ptr = p.ptr := fun _ => rfl
      exact nomatch ((hs.loggedIn_iff hsame).mp hok).1
    · intro h
      cases h.1
  | true =>
    have hsame : ∀ p : Player, (p.sendLoginProperties (srv.getRegion name)).ptr = p.ptr := fun _ => rfl
    rw [if_pos rfl, hs.onPlayer_allocPlayer]
    constructor
    · rintro ⟨s', hs', hok⟩
      obtain rfl := Option.some.inj hs'
      exact ⟨rfl, ((hs.loggedIn_iff hsame).mp hok).2⟩
    · rintro ⟨-, hout⟩
      exact ⟨_, rfl, (hs.loggedIn_iff hsame).mpr ⟨rfl, hout⟩⟩

/-! ## Careful packets -/

/-- The name in `TS_CS_LOGIN`. -/
def Packet.loginName : Packet → Option String
  | .login name => some name
  | _ => none

/-- A packet whose handler needs a player does not come without one; a character who logs in can be
read, and he does not come while another one of the session is in the world. A packet that the session
does not accept yet may be any. -/
def Careful (s : State) : Event → Prop
  | .packet srv p => (p.authed = true ∧ s.isAuthed = false) ∨
    (needsPlayer srv p = true → s.m_pPlayer ≠ none) ∧
      ∀ name ∈ p.loginName, srv.readCharacter name s.accountId = true ∧
        ∀ q ∈ s.player, q.inWorld = false
  | .closeSocket => True
  | .destroy => True
  | .pendWarp _ _ => True
  | .poolUpdate => True

theorem SessionOk.handler_iff (hs : SessionOk s) {pkt : Packet} (hpkt : pkt.keeps = true) :
    (∃ s', handler srv s pkt = some s' ∧ SessionOk s') ↔
      (needsPlayer srv pkt = true → s.m_pPlayer ≠ none) := by
  cases hptr : s.m_pPlayer with
  | none =>
    rw [handler_of_null hptr hpkt]
    cases needsPlayer srv pkt with
    | false => exact iff_of_true ⟨s, rfl, hs⟩ (fun h => nomatch h)
    | true => exact iff_of_false (fun h => nomatch h) (fun h => h rfl rfl)
  | some a =>
    obtain ⟨p, hp, -⟩ := hs.exists_player hptr
    rw [handler_of_player hp hpkt]
    exact iff_of_true ⟨s, rfl, hs⟩ (fun _ h => nomatch h)

theorem SessionOk.onAuthResult (hs : SessionOk s) (success : Bool) (nAccountID : Nat) :
    ∃ s', onAuthResult s success nAccountID = some s' ∧ SessionOk s' := by
  refine ⟨_, rfl, ?_⟩
  split_ifs
  · exact ⟨hs.nodup, hs.fresh, hs.live, hs.alone⟩
  · exact hs

/-- **A step keeps the invariant exactly if it is careful.** -/
theorem SessionOk.careful_iff (hs : SessionOk s) (e : Event) :
    (∃ s', step s e = some s' ∧ SessionOk s') ↔ Careful s e := by
  cases e with
  | closeSocket => exact iff_of_true hs.closeSocket trivial
  | destroy => exact iff_of_true hs.onReturnToLobby trivial
  | pendWarp ptr region =>
    refine iff_of_true ⟨_, rfl, ?_⟩ trivial
    exact hs.modify (fun _ => rfl) (fun _ => rfl) fun p hin => (Bool.and_eq_true_iff.mp hin).1
  | poolUpdate => exact iff_of_true ⟨_, rfl, hs.update⟩ trivial
  | packet srv p =>
    show (∃ s', processIncoming srv s p = some s' ∧ SessionOk s') ↔ _
    unfold processIncoming Careful
    dsimp only
    by_cases hdrop : p.authed = true ∧ s.isAuthed = false
    · rw [if_pos hdrop]
      exact iff_of_true ⟨s, rfl, hs⟩ (.inl hdrop)
    · rw [if_neg hdrop, or_iff_right hdrop]
      cases p with
      | authResult success nAccountID =>
        exact iff_of_true (hs.onAuthResult success nAccountID) ⟨fun h => (nomatch h), fun _ h => nomatch h⟩
      | returnLobby => exact iff_of_true hs.onReturnToLobby ⟨fun h => (nomatch h), fun _ h => nomatch h⟩
      | login name =>
        refine (hs.onLogin_iff name).trans ⟨fun h => ⟨fun h => (nomatch h), ?_⟩, fun h => h.2 name rfl⟩
        rintro _ ⟨⟩
        exact h
      | mix hMain sub_items =>
        by_cases hlen : sub_items.length ≤ 9
        · have hkeeps : (Packet.mix hMain sub_items).keeps = true := decide_eq_true hlen
          exact (hs.handler_iff hkeeps).trans ⟨fun h => ⟨h, fun _ h => nomatch h⟩, And.left⟩
        · refine iff_of_true ?_ ⟨fun h => ?_, fun _ h => nomatch h⟩
          · show ∃ s', onMixRequest srv s hMain sub_items = some s' ∧ SessionOk s'
            unfold onMixRequest
            rw [if_pos (Nat.lt_of_not_le hlen)]
            exact hs.closeSocket
          · exact absurd (of_decide_eq_true (Bool.and_eq_true_iff.mp h).1) hlen
      | _ => exact (hs.handler_iff rfl).trans ⟨fun h => ⟨h, fun _ h => nomatch h⟩, And.left⟩

/-! ## Runs -/

/-- **In a careful run every careful packet finds the player it needs, and the session has at most one
player in the world.** -/
theorem playerSafe_of_run {hist : History State Event}
    (hrun : system.RunWhere (fun _ s e => Careful s e) hist s) :
    (∀ e, Careful s e → (step s e).isSome = true) ∧ s.inWorld.length ≤ 1 := by
  have hs : SessionOk s := by
    refine hrun.invariant (I := fun _ s => SessionOk s) (fun s h => Init.sessionOk h) ?_
    intro _ s e s' _ hs he hstep
    obtain ⟨t, ht, hok⟩ := (hs.careful_iff e).mpr he
    obtain rfl : s' = t := Option.some.inj (hstep.symm.trans ht)
    exact hok
  refine ⟨fun e he => ?_, hs.inWorld_le_one⟩
  obtain ⟨t, ht, -⟩ := (hs.careful_iff e).mpr he
  exact ht ▸ rfl

/-! ## A client -/

instance (s : State) : (e : Event) → Decidable (Careful s e)
  | .packet srv p => inferInstanceAs (Decidable ((p.authed = true ∧ s.isAuthed = false) ∨
    (needsPlayer srv p = true → s.m_pPlayer ≠ none) ∧
      ∀ name ∈ p.loginName, srv.readCharacter name s.accountId = true ∧
        ∀ q ∈ s.player, q.inWorld = false))
  | .closeSocket => .isTrue trivial
  | .destroy => .isTrue trivial
  | .pendWarp _ _ => .isTrue trivial
  | .poolUpdate => .isTrue trivial

/-- A server on which account 7 has two characters. -/
def village : Server where
  readCharacter name accountId := decide (accountId = 7 ∧ (name = "Ann" ∨ name = "Bea"))
  getRegion _ := true
  findPlayer _ := false
  npc handle := decide (handle = 5)
  object handle := decide (handle = 5)
  item _ := none
  isMixable _ := false
  getProperMixInfo _ _ := false

def connected : State := ⟨none, false, 0, false, [], 0⟩

theorem run_connected (C : History State Event → State → Event → Prop) :
    system.RunWhere C [] connected := .init ⟨rfl, rfl, rfl, rfl⟩

/-- The client plays one character after the other. -/
theorem playerSafe_of_run_village : ∃ hist s, system.RunWhere (fun _ s e => Careful s e) hist s ∧
    ((∀ e, Careful s e → (step s e).isSome = true) ∧ s.inWorld.length ≤ 1) ∧ s.players.length = 2 := by
  let es : List Event := [.packet village .update, .packet village (.authResult true 7),
    .packet village .characterList, .packet village (.login "Ann"), .packet village .update,
    .packet village (.contact 5), .pendWarp 0 true, .packet village .returnLobby,
    .packet village (.login "Bea"), .packet village .timesync]
  have hex : (System.exec (fun _ s e => Careful s e) step es [] connected).map
      (fun x => x.2.players.length) = some 2 := by decide +kernel
  obtain ⟨hist, s, hr, hend⟩ := System.exists_run_exec (·.players.length) es (run_connected _) hex
  exact ⟨hist, s, hr, playerSafe_of_run hr, hend⟩

/-- A packet that comes before the login finds no player. After a login under an unknown name the
pointer dangles. A second login leaves the first player in the world. -/
theorem not_playerSafe_village :
    (∃ hist s, system.Run hist s ∧ s.isAuthed = true ∧ step s (.packet village .update) = none) ∧
    (∃ hist s, system.Run hist s ∧ s.isAuthed = true ∧ step s (.packet village .returnLobby) = none) ∧
    ∃ hist s, system.Run hist s ∧ s.isAuthed = true ∧ s.inWorld.length = 2 := by
  refine ⟨?_, ?_, ?_⟩
  · let es : List Event := [.packet village (.authResult true 7)]
    have hex : (System.exec (fun _ _ _ => True) step es [] connected).map
        (fun x => (x.2.isAuthed, (step x.2 (.packet village .update)).isNone)) = some (true, true) := by
      decide +kernel
    obtain ⟨hist, s, hr, hend⟩ := System.exists_run_exec
      (fun s => (s.isAuthed, (step s (.packet village .update)).isNone)) es (run_connected _) hex
    obtain ⟨hauthed, hnone⟩ := Prod.mk.inj hend
    exact ⟨hist, s, hr, hauthed, Option.isNone_iff_eq_none.mp hnone⟩
  · let es : List Event := [.packet village (.authResult true 7), .packet village (.login "Eve"), .poolUpdate]
    have hex : (System.exec (fun _ _ _ => True) step es [] connected).map
        (fun x => (x.2.isAuthed, (step x.2 (.packet village .returnLobby)).isNone)) = some (true, true) := by
      decide +kernel
    obtain ⟨hist, s, hr, hend⟩ := System.exists_run_exec
      (fun s => (s.isAuthed, (step s (.packet village .returnLobby)).isNone)) es (run_connected _) hex
    obtain ⟨hauthed, hnone⟩ := Prod.mk.inj hend
    exact ⟨hist, s, hr, hauthed, Option.isNone_iff_eq_none.mp hnone⟩
  · let es : List Event := [.packet village (.authResult true 7), .packet village (.login "Ann"),
      .packet village (.login "Bea")]
    have hex : (System.exec (fun _ _ _ => True) step es [] connected).map
        (fun x => (x.2.isAuthed, x.2.inWorld.length)) = some (true, 2) := by decide +kernel
    obtain ⟨hist, s, hr, hend⟩ := System.exists_run_exec
      (fun s => (s.isAuthed, s.inWorld.length)) es (run_connected _) hex
    obtain ⟨hauthed, htwo⟩ := Prod.mk.inj hend
    exact ⟨hist, s, hr, hauthed, htwo⟩

end RZEmulator.Chihiro.WorldSession
