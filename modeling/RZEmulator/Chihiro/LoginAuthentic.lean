import RZEmulator.Chihiro.AuthNetwork

/-!
# Who authenticates a session

`Authentic` is what an authenticated session should be able to show: a request that it sent itself, in
its own `TS_CS_ACCOUNT_WITH_AUTH`, and that the authentication server answered with success and with
exactly the account, id and permission that the session has.

An answer finds its session through `m_queue`, which has one place for each account. `Routed` says that
this place is right for everything under way: the requests not yet answered and the answers of success
not yet delivered. It stays so as long as nobody asks for an account under which another session's login
is under way, and the session's own answer is authentic as long as the client does not send one itself.
-/

namespace RZEmulator.Chihiro.AuthNetwork

open Lib
open Mononoke (Name GameId)
open Mononoke.State (LoginAnswer Keyed keyed_start)

variable {me : GameId} {h : History State Event} {s t : State} {r : Request} {c : SessionId}

/-- The session `r.sender` asked for `r` in its own packet. -/
def Sent (h : History State Event) (r : Request) : Prop :=
  ∃ t ∈ h, ∃ account, t.event = .packet r.sender (.accountWithAuth account r.oneTimeKey) ∧
    r.account = account.map Char.toLower

/-- The authentication server answered `answer` to the request `r` in the step `t`. -/
def Answers (me : GameId) (t : Transition State Event) (r : Request) (answer : LoginAnswer) : Prop :=
  t.event = .atAuth ∧ t.before.toAuth.head? = some (.login r) ∧ t.before.auth.isAuthedGame me = true ∧
    t.before.auth.clientLoginAnswer r.account r.oneTimeKey = answer

/-- The request `r` was sent and later answered with `answer`. -/
def Answered (me : GameId) (h : History State Event) (r : Request) (answer : LoginAnswer) : Prop :=
  ∃ h₂ t h₁, h = h₂ ++ t :: h₁ ∧ Answers me t r answer ∧ Sent h₁ r

/-- The session `c` may be authenticated as `ws`. -/
def Authentic (me : GameId) (h : History State Event) (c : SessionId) (ws : WorldSession) : Prop :=
  ∃ r, r.sender = c ∧ Answered me h r ⟨ws.accountName, ws.accountId, true, ws.nPermission⟩

/-! ## What is under way -/

/-- The request that a message of the game server carries. -/
def AuthMessage.request? : AuthMessage → Option Request
  | .login r => some r
  | .logout _ => none

/-- The request whose login a reply brings about. -/
def Reply.granted? (x : Reply) : Option Request := if x.answer.success then some x.request else none

/-- The requests that are not answered and those whose answer of success is not delivered. -/
def State.underWay (s : State) : List Request :=
  s.toAuth.filterMap AuthMessage.request? ++ s.toGame.filterMap Reply.granted?

/-- A client does not send the authentication server's answer of success, and nobody asks for an account
while another session's login under it is under way. -/
def Undisputed (s : State) : Event → Prop
  | .packet _ (.authResult answer) => answer.success = false
  | .packet c (.accountWithAuth account _) =>
      ∀ r ∈ s.underWay, r.account = account.map Char.toLower → r.sender = c
  | _ => True

instance (s : State) : (e : Event) → Decidable (Undisputed s e)
  | .packet _ (.authResult answer) => inferInstanceAs (Decidable (answer.success = false))
  | .packet c (.accountWithAuth account _) =>
      inferInstanceAs (Decidable (∀ r ∈ s.underWay, r.account = account.map Char.toLower → r.sender = c))
  | .connect | .close _ | .atAuth | .atGame | .auth _ => inferInstanceAs (Decidable True)

theorem mem_underWay : r ∈ s.underWay ↔
    .login r ∈ s.toAuth ∨ ∃ x ∈ s.toGame, x.answer.success = true ∧ x.request = r := by
  have hauth : r ∈ s.toAuth.filterMap AuthMessage.request? ↔ .login r ∈ s.toAuth := by
    rw [List.mem_filterMap]
    constructor
    · rintro ⟨_ | _, hm, hr⟩
      · obtain rfl := Option.some.inj hr
        exact hm
      · cases hr
    · exact fun hm => ⟨_, hm, rfl⟩
  have hgame : r ∈ s.toGame.filterMap Reply.granted? ↔
      ∃ x ∈ s.toGame, x.answer.success = true ∧ x.request = r := by
    simp only [List.mem_filterMap, Reply.granted?, Option.ite_none_right_eq_some, Option.some.injEq]
  rw [State.underWay, List.mem_append, hauth, hgame]

/-! ## The past only grows -/

theorem Sent.cons (hr : Sent h r) (t : Transition State Event) : Sent (t :: h) r := by
  obtain ⟨u, hu, hsent⟩ := hr
  exact ⟨u, List.mem_cons_of_mem _ hu, hsent⟩

theorem Answered.cons {answer : LoginAnswer} (hr : Answered me h r answer) (t : Transition State Event) :
    Answered me (t :: h) r answer := by
  obtain ⟨h₂, u, h₁, rfl, hanswer⟩ := hr
  exact ⟨t :: h₂, u, h₁, rfl, hanswer⟩

theorem Authentic.cons {ws : WorldSession} (hc : Authentic me h c ws) (t : Transition State Event) :
    Authentic me (t :: h) c ws := by
  obtain ⟨r, hr, ha⟩ := hc
  exact ⟨r, hr, ha.cons t⟩

/-! ## The invariant -/

structure LoginInv (me : GameId) (h : History State Event) (s : State) : Prop where
  keyed : Keyed s.auth
  sent : ∀ r, .login r ∈ s.toAuth → Sent h r
  granted : ∀ x ∈ s.toGame, x.answer.success = true →
    Answered me h x.request x.answer ∧ x.answer.account = x.request.account
  routed : ∀ r ∈ s.underWay, ∀ c, s.queue r.account = some c → r.sender = c
  authed : ∀ c ws, s.sessions c = some ws → ws.isAuthed = true → Authentic me h c ws

theorem loginInv_start : LoginInv me [] .start where
  keyed := keyed_start
  sent _ hr := by cases hr
  granted _ hx := by cases hx
  routed _ hr := by cases hr
  authed _ _ hc := by cases hc

/-- A step that sends and answers nothing keeps the invariant, if the sessions that are authenticated
after it are authentic. -/
theorem LoginInv.keep (hi : LoginInv me h s) (e : Event) (hkeyed : Keyed t.auth)
    (hauth : ∀ r, .login r ∈ t.toAuth → .login r ∈ s.toAuth) (hgame : ∀ x ∈ t.toGame, x ∈ s.toGame)
    (hqueue : ∀ a c, t.queue a = some c → s.queue a = some c)
    (hsessions : ∀ c ws, t.sessions c = some ws → ws.isAuthed = true →
      s.sessions c = some ws ∨ Authentic me h c ws) : LoginInv me (⟨s, e, t⟩ :: h) t where
  keyed := hkeyed
  sent r hr := (hi.sent r (hauth r hr)).cons _
  granted x hx hsucc := (hi.granted x (hgame x hx) hsucc).imp_left fun ha => ha.cons _
  routed r hr c hc := by
    refine hi.routed r (mem_underWay.mpr ?_) c (hqueue _ c hc)
    exact (mem_underWay.mp hr).imp (hauth r) fun ⟨x, hx, hrest⟩ => ⟨x, hgame x hx, hrest⟩
  authed c ws hc hauthed := by
    rcases hsessions c ws hc hauthed with hc' | ha
    · exact (hi.authed c ws hc' hauthed).cons _
    · exact ha.cons _

/-- An answer of success carries the name that was asked for. -/
theorem clientLoginAnswer_account {auth : Mononoke.State} (hk : Keyed auth) {account : Name} {key : Nat}
    (hsucc : (auth.clientLoginAnswer account key).success = true) :
    (auth.clientLoginAnswer account key).account = account := by
  unfold Mononoke.State.clientLoginAnswer at hsucc ⊢
  split at hsucc
  · cases hsucc
  · rename_i pl hpl
    obtain ⟨p, hp, hlive⟩ := Option.bind_eq_some_iff.mp hpl
    exact hk.name account p pl hp hlive

theorem setSession_sessions {x : Option WorldSession} {k : SessionId} :
    (s.setSession c x).sessions k = if k = c then x else s.sessions k := rfl

theorem setQueue_queue {a b : Name} {x : Option SessionId} :
    (s.setQueue a x).queue b = if b = a then x else s.queue b := rfl

theorem LoginInv.connect (hi : LoginInv me h s) (e : Event) :
    LoginInv me (⟨s, e, { s.setSession s.nextSession (some {}) with nextSession := s.nextSession + 1 }⟩ :: h)
      { s.setSession s.nextSession (some {}) with nextSession := s.nextSession + 1 } := by
  refine hi.keep e hi.keyed (fun _ hr => hr) (fun _ hx => hx) (fun _ _ hc => hc) fun c ws hc hauthed => ?_
  have hc' : (s.setSession s.nextSession (some {})).sessions c = some ws := hc
  rw [setSession_sessions] at hc'
  split_ifs at hc'
  · obtain rfl := Option.some.inj hc'
    cases hauthed
  · exact .inl hc'

theorem LoginInv.onAuthResult {ws : WorldSession} {answer : LoginAnswer} (hi : LoginInv me h s)
    (e : Event) (hc : s.sessions c = some ws) (hfail : answer.success = false) :
    LoginInv me (⟨s, e, s.processIncoming c ws (.authResult answer)⟩ :: h)
      (s.processIncoming c ws (.authResult answer)) := by
  refine hi.keep e hi.keyed (fun _ hr => hr) (fun _ hx => hx) (fun _ _ hc => hc) fun k ws' hk _ => ?_
  have hsame : ws.onAuthResult answer = ws := by simp [WorldSession.onAuthResult, hfail]
  simp only [State.processIncoming, hsame, setSession_sessions] at hk
  split_ifs at hk with hkc
  · exact .inl (hkc ▸ hc.trans hk)
  · exact .inl hk

/-- A client asks to be let in. -/
theorem LoginInv.onAccountWithAuth {account : Name} {key : Nat} (hi : LoginInv me h s)
    (hfree : ∀ r ∈ s.underWay, r.account = account.map Char.toLower → r.sender = c) :
    LoginInv me (⟨s, .packet c (.accountWithAuth account key), s.onAccountWithAuth c account key⟩ :: h)
      (s.onAccountWithAuth c account key) where
  keyed := hi.keyed
  sent r hr := by
    rcases List.mem_append.mp hr with hr | hr
    · exact (hi.sent r hr).cons _
    · obtain rfl := AuthMessage.login.inj (List.mem_singleton.mp hr)
      exact ⟨_, List.mem_cons_self .., account, rfl, rfl⟩
  granted x hx hsucc := (hi.granted x hx hsucc).imp_left fun ha => ha.cons _
  routed r hr k hk := by
    have hr' : r ∈ s.underWay ∨ r = ⟨c, account.map Char.toLower, key⟩ := by
      rcases mem_underWay.mp hr with hr | hr
      · rcases List.mem_append.mp hr with hr | hr
        · exact .inl (mem_underWay.mpr (.inl hr))
        · exact .inr (AuthMessage.login.inj (List.mem_singleton.mp hr))
      · exact .inl (mem_underWay.mpr (.inr hr))
    have hk' : (s.setQueue (account.map Char.toLower) (some c)).queue r.account = some k := hk
    rw [setQueue_queue] at hk'
    rcases hr' with hr' | rfl
    · split_ifs at hk' with ha
      · obtain rfl := Option.some.inj hk'
        exact hfree r hr' ha
      · exact hi.routed r hr' k hk'
    · rw [if_pos rfl] at hk'
      exact Option.some.inj hk'
  authed k ws hk hauthed := (hi.authed k ws hk hauthed).cons _

theorem LoginInv.onClose {ws : WorldSession} (hi : LoginInv me h s) (e : Event) :
    LoginInv me (⟨s, e, s.onClose c ws⟩ :: h) (s.onClose c ws) := by
  refine hi.keep e hi.keyed (fun r hr => ?_) (fun _ hx => hx) (fun _ _ hc => hc) fun k ws' hk _ => ?_
  · unfold State.onClose at hr
    simp only at hr
    split_ifs at hr
    · exact (List.mem_append.mp hr).elim id fun hr => by simp at hr
    · exact hr
  · have hk' : (s.setSession c none).sessions k = some ws' := hk
    rw [setSession_sessions] at hk'
    split_ifs at hk'
    exact .inl hk'

/-- The authentication server answers. -/
theorem LoginInv.atAuth {m : AuthMessage} {ms : List AuthMessage} (hi : LoginInv me h s)
    (hm : s.toAuth = m :: ms) :
    LoginInv me (⟨s, .atAuth, { s with toAuth := ms }.handleAuthMessage me m⟩ :: h)
      ({ s with toAuth := ms }.handleAuthMessage me m) := by
  have hrest : ∀ r, AuthMessage.login r ∈ ms → AuthMessage.login r ∈ s.toAuth := fun r hr => by
    rw [hm]
    exact List.mem_cons_of_mem _ hr
  cases m with
  | logout account =>
    exact hi.keep _ (hi.keyed.step (.clientLogout me account)) hrest (fun _ hx => hx) (fun _ _ hc => hc)
      fun _ _ hc _ => .inl hc
  | login r =>
    have hkeyed := hi.keyed.step (.clientLogin me r.account r.oneTimeKey)
    by_cases hauthed : s.auth.isAuthedGame me = true
    · -- the new reply is an answer in the sense of `Answered`, and the request was under way before
      have hnew : ∀ x ∈ s.toGame ++ [⟨r, s.auth.clientLoginAnswer r.account r.oneTimeKey⟩],
          x.answer.success = true → x ∈ s.toGame ∨
            x = ⟨r, s.auth.clientLoginAnswer r.account r.oneTimeKey⟩ := fun x hx _ =>
        (List.mem_append.mp hx).imp_right List.mem_singleton.mp
      have hlogin : AuthMessage.login r ∈ s.toAuth := hm ▸ List.mem_cons_self ..
      simp only [State.handleAuthMessage, hauthed, if_true]
      refine ⟨hkeyed, fun r' hr' => (hi.sent r' (hrest r' hr')).cons _, fun x hx hsucc => ?_,
        fun r' hr' k hk => ?_, fun k ws hk hws => (hi.authed k ws hk hws).cons _⟩
      · rcases hnew x hx hsucc with hx | rfl
        · exact (hi.granted x hx hsucc).imp_left fun ha => ha.cons _
        · refine ⟨⟨[], _, h, rfl, ⟨rfl, ?_, hauthed, rfl⟩, hi.sent r hlogin⟩,
            clientLoginAnswer_account hi.keyed hsucc⟩
          show s.toAuth.head? = _
          rw [hm]
          rfl
      · refine hi.routed r' (mem_underWay.mpr ?_) k hk
        rcases mem_underWay.mp hr' with hr' | ⟨x, hx, hsucc, rfl⟩
        · exact .inl (hrest r' hr')
        · rcases hnew x hx hsucc with hx | rfl
          · exact .inr ⟨x, hx, hsucc, rfl⟩
          · exact .inl hlogin
    · have heq : { s with toAuth := ms }.handleAuthMessage me (.login r) =
          { s with toAuth := ms, auth := s.auth.step (.clientLogin me r.account r.oneTimeKey) } := by
        simp [State.handleAuthMessage, hauthed]
      rw [heq]
      exact hi.keep _ hkeyed hrest (fun _ hx => hx) (fun _ _ hc => hc) fun _ _ hc _ => .inl hc

/-- The game server hands an answer to the session that is noted for it. -/
theorem LoginInv.atGame {x : Reply} {xs : List Reply} (hi : LoginInv me h s) (hx : s.toGame = x :: xs)
    (ht : { s with toGame := xs }.handleClientLoginResult x.answer = some t) :
    LoginInv me (⟨s, .atGame, t⟩ :: h) t := by
  have hrest : ∀ y ∈ xs, y ∈ s.toGame := fun y hy => by
    rw [hx]
    exact List.mem_cons_of_mem _ hy
  have hmem : x ∈ s.toGame := hx ▸ List.mem_cons_self ..
  unfold State.handleClientLoginResult at ht
  split at ht
  · obtain rfl := Option.some.inj ht
    exact hi.keep _ hi.keyed (fun _ hr => hr) hrest (fun _ _ hc => hc) fun _ _ hc _ => .inl hc
  · rename_i c hqueue
    obtain ⟨ws, hws, rfl⟩ := Option.map_eq_some_iff.mp ht
    refine hi.keep _ hi.keyed (fun _ hr => hr) hrest (fun a k hk => ?_) fun k ws' hk _ => ?_
    · rw [setQueue_queue] at hk
      split_ifs at hk
      exact hk
    · have hk' : (s.setSession c (some (ws.onAuthResult x.answer))).sessions k = some ws' := hk
      rw [setSession_sessions] at hk'
      split_ifs at hk' with hkc
      · subst hkc
        have hws'' : ws.onAuthResult x.answer = ws' := Option.some.inj hk'
        unfold WorldSession.onAuthResult at hws''
        split_ifs at hws'' with hsucc
        · -- the answer is delivered to the session that asked for it
          obtain ⟨hanswered, haccount⟩ := hi.granted x hmem hsucc
          have hway : x.request ∈ s.underWay := mem_underWay.mpr (.inr ⟨x, hmem, hsucc, rfl⟩)
          refine .inr ⟨x.request, hi.routed _ hway k (haccount ▸ hqueue), ?_⟩
          subst hws''
          rw [← hsucc]
          exact hanswered
        · exact .inl (hws''.symm ▸ hws)
      · exact .inl hk'

theorem LoginInv.step {e : Event} (hi : LoginInv me h s) (hu : Undisputed s e)
    (ht : s.step me e = some t) : LoginInv me (⟨s, e, t⟩ :: h) t := by
  cases e with
  | connect =>
    obtain rfl := Option.some.inj ht
    exact hi.connect _
  | packet c p =>
    obtain ⟨ws, hws, rfl⟩ := Option.map_eq_some_iff.mp ht
    cases p with
    | authResult answer => exact hi.onAuthResult _ hws hu
    | accountWithAuth account key => exact hi.onAccountWithAuth hu
  | close c =>
    obtain ⟨ws, hws, rfl⟩ := Option.map_eq_some_iff.mp ht
    exact hi.onClose _
  | atAuth =>
    simp only [State.step] at ht
    split at ht
    · cases ht
    · rename_i m ms hm
      obtain rfl := Option.some.inj ht
      exact hi.atAuth hm
  | atGame =>
    simp only [State.step] at ht
    split at ht
    · cases ht
    · rename_i x xs hx
      exact hi.atGame hx ht
  | auth e =>
    simp only [State.step] at ht
    split_ifs at ht
    obtain rfl := Option.some.inj ht
    exact hi.keep _ (hi.keyed.step e) (fun _ hr => hr) (fun _ hx => hx) (fun _ _ hc => hc)
      fun _ _ hc _ => .inl hc

/-- **Login authenticity**: after every run of undisputed steps, the authenticated sessions are those
whose own request the authentication server granted, with what it answered. -/
theorem authentic_of_run (hrun : (gameServer me).RunWhere (fun _ => Undisputed) h s) :
    ∀ c ws, s.sessions c = some ws → ws.isAuthed = true → Authentic me h c ws := by
  have hinv : LoginInv me h s :=
    hrun.invariant (I := LoginInv me) (fun s (hs : s = .start) => hs ▸ loginInv_start)
      fun _ _ _ _ _ hi hu ht => hi.step hu ht
  exact hinv.authed

/-- A player with the one-time key 7 for the account `a`, and the game server's connection. -/
def selectedEvents : List Event :=
  [.auth .gameConnect, .auth (.gameLogin 0 1 ['g']), .auth .clientConnect,
    .auth (.account 0 (some ⟨5, ['A'], false, 100⟩)), .auth (.selectServer 0 1 (1, 1, 1, 7))]

theorem authentic_enter : ∃ (h : History State Event) (s : State), s.sessions 0 = some ⟨true, 5, ['a'], 100⟩ ∧
    Authentic 0 h 0 ⟨true, 5, ['a'], 100⟩ := by
  have hex : (System.exec (fun _ => Undisputed) (State.step 0) (selectedEvents ++
      [.connect, .packet 0 (.accountWithAuth ['A'] 7), .atAuth, .atGame]) [] State.start).map
      (fun x => x.2.sessions 0) = some (some ⟨true, 5, ['a'], 100⟩) := by decide +kernel
  obtain ⟨⟨h, s⟩, hrun, hsession⟩ := Option.map_eq_some_iff.mp hex
  exact ⟨h, s, hsession, authentic_of_run (System.run_exec (I := (· = State.start)) _ (.init rfl) hrun) 0 _
    hsession rfl⟩

/-- A client that sends the answer itself is let in as whoever it likes. -/
theorem not_authentic : ¬ ∀ h s, (gameServer 0).Run h s →
    ∀ c ws, s.sessions c = some ws → ws.isAuthed = true → Authentic 0 h c ws := by
  intro hall
  have hex : (System.exec (fun _ _ _ => True) (State.step 0)
      [.connect, .packet 0 (.authResult ⟨['a'], 5, true, 100⟩)] [] State.start).map
      (fun x => (x.2.sessions 0, x.1.map fun t => t.before.toAuth.length)) =
      some (some ⟨true, 5, ['a'], 100⟩, [0, 0]) := by decide +kernel
  obtain ⟨⟨h, s⟩, hrun, hfacts⟩ := Option.map_eq_some_iff.mp hex
  obtain ⟨hsession, hempty⟩ := Prod.mk.inj hfacts
  obtain ⟨r, -, h₂, t, h₁, rfl, ⟨-, hhead, -⟩, -⟩ :=
    hall h s (System.run_exec (I := (· = State.start)) _ (.init rfl) hrun) 0 _ hsession rfl
  -- nothing was ever sent to the authentication server
  have hlen : t.before.toAuth.length ∈ [0, 0] := by
    rw [← hempty]
    exact List.mem_map.mpr ⟨t, by simp, rfl⟩
  have hnil : t.before.toAuth = [] := List.length_eq_zero_iff.mp (by simpa using hlen)
  rw [hnil] at hhead
  cases hhead

end RZEmulator.Chihiro.AuthNetwork
