import RZEmulator.Mononoke.Logins

/-!
# The one-time key

A key is issued by `HandleSelectServer`, which writes it into the player and answers it to the client,
and presented by a game server in `TS_GA_CLIENT_LOGIN`. `Issued h p idx key` is what an answer of
success should mean: the latest selection for the login `p` was of server `idx`, it was answered with
`key`, and no game server has been let in since.

The code compares the key with the one it stores and nothing else. The stored key and index are those
of the latest selection (`keyStored_of_run`), so the answer is right exactly when the request comes from
the server the record names and the record's key is `unspent` (`soundAnswer_iff`): a fresh record has the key `0`, a selection of a server that does not
exist stores a key that nobody was given, and a key stays valid after its use.
-/

namespace RZEmulator.Mononoke

open Lib State

variable {h : History State Event} {s : State} {p : PlayerPtr} {t : Transition State Event}

/-- The server and the random numbers of a selection for the login `p`. -/
def selectedBy (p : PlayerPtr) (t : Transition State Event) : Option (Nat × Rands) :=
  match t.event with
  | .selectServer c idx r =>
    if t.before.clients c = some ⟨true, some p⟩ ∧ (t.before.heap p).isSome then some (idx, r) else none
  | _ => none

/-- A game server was let in with the key of `p`. -/
def acceptedFor (p : PlayerPtr) (t : Transition State Event) : Bool :=
  match t.event with
  | .clientLogin g a key => t.before.isAuthedGame g && t.before.acceptedEntry a key == some p
  | _ => false

/-- The latest selection for `p` was of server `idx` and was answered with `key`; nobody was let in
with it since. -/
def Issued (h : History State Event) (p : PlayerPtr) (idx key : Nat) : Prop :=
  ∃ h₂ t h₁ r, h = h₂ ++ t :: h₁ ∧ selectedBy p t = some (idx, r) ∧
    t.before.selectServerAnswer idx r = some key ∧
    ∀ u ∈ h₂, selectedBy p u = none ∧ acceptedFor p u = false

/-- What last happened to the key of `p` is the selection of a server that was registered. -/
def unspent (p : PlayerPtr) : History State Event → Bool
  | [] => false
  | t :: h =>
    match selectedBy p t with
    | some (idx, _) => (t.before.getGame (gameKey idx)).isSome
    | none => !acceptedFor p t && unspent p h

/-- An answer of success to game server session `g` is right: the key was issued for the server of `g`
and for the login that the account has now. -/
def SoundAnswer (h : History State Event) (s : State) (g : GameId) (a : Name) (key : Nat) : Prop :=
  ∀ gs, s.gameSessions g = some gs → gs.bIsAuthed → (s.clientLoginAnswer a key).success = true →
    ∃ p, s.getPlayer a = some p ∧ Issued h p gs.game.serverIdx key

/-- A request that presents the stored key comes from the server that the record names, and the key is
unspent. -/
def FreshRequest (h : History State Event) (s : State) (g : GameId) (a : Name) (key : Nat) : Prop :=
  ∀ gs, s.gameSessions g = some gs → gs.bIsAuthed → ∀ p pl, s.getPlayer a = some p →
    s.heap p = some pl → pl.nOneTimeKey = key → pl.nGameIDX = gs.game.serverIdx ∧ unspent p h = true

/-! ## The stored key is that of the latest selection -/

/-- The record of a login against the history of its selections. -/
structure KeyStored (h : History State Event) (s : State) : Prop where
  keyed : Keyed s
  unborn : ∀ p, s.nextPlayer ≤ p → h.findSome? (selectedBy p) = none
  stored : ∀ p pl, s.heap p = some pl → ∀ idx r, h.findSome? (selectedBy p) = some (idx, r) →
    pl.nGameIDX = idx ∧ pl.nOneTimeKey = oneTimeKeyOf r

theorem selectedBy_eq_none {e : Event} {s' : State}
    (hne : ∀ c idx r, e = .selectServer c idx r → s.clients c ≠ some ⟨true, some p⟩) :
    selectedBy p ⟨s, e, s'⟩ = none := by
  unfold selectedBy
  split
  · rename_i c idx r he
    exact if_neg fun hc => hne c idx r he hc.1
  · rfl

theorem keyStored_start : KeyStored [] start where
  keyed := keyed_start
  unborn _ _ := rfl
  stored _ _ hp := by cases hp

theorem KeyStored.step (hk : KeyStored h s) (e : Event) :
    KeyStored (⟨s, e, s.step e⟩ :: h) (s.step e) where
  keyed := hk.keyed.step e
  unborn p hp := by
    have hp' : s.nextPlayer ≤ p := Nat.le_trans (nextPlayer_le_step s e) hp
    have hdead : s.heap p = none := by
      by_contra hlive
      obtain ⟨pl, hpl⟩ := Option.ne_none_iff_exists'.mp hlive
      exact absurd (hk.keyed.heap p pl hpl) (Nat.not_lt.mpr hp')
    have hsel : selectedBy p ⟨s, e, s.step e⟩ = none := by
      unfold selectedBy
      split
      · exact if_neg fun hc => by simp [hdead] at hc
      · rfl
    rw [List.findSome?_cons, hsel]
    exact hk.unborn p hp'
  stored p pl' hp idx r hfind := by
    rcases heap_step hp with ⟨c, row, rfl, rfl, -⟩ | ⟨pl, hpl, hkept⟩
    · -- a new login: nobody has selected for it yet
      rw [List.findSome?_cons, selectedBy_eq_none (by simp), hk.unborn _ (Nat.le_refl _)] at hfind
      cases hfind
    · cases hkept with
      | @selected c idx' r' he hc =>
        subst he
        have hsel : selectedBy p ⟨s, .selectServer c idx' r', s.step (.selectServer c idx' r')⟩ =
            some (idx', r') := if_pos ⟨hc, by rw [hpl]; rfl⟩
        rw [List.findSome?_cons, hsel] at hfind
        obtain ⟨rfl, rfl⟩ := Prod.mk.inj (Option.some.inj hfind)
        exact ⟨rfl, rfl⟩
      | accepted he =>
        subst he
        rw [List.findSome?_cons, selectedBy_eq_none (by simp)] at hfind
        exact hk.stored p pl hpl idx r hfind
      | same hne =>
        rw [List.findSome?_cons, selectedBy_eq_none hne] at hfind
        exact hk.stored p pl' hpl idx r hfind

theorem keyStored_of_run (hrun : authServer.Run h s) : KeyStored h s :=
  hrun.invariant (I := KeyStored) (fun _ hs => authServer_init hs ▸ keyStored_start)
    fun _ _ e _ _ hk _ hstep => authServer_step hstep ▸ hk.step e

/-! ## Unspent and issued -/

theorem findSome?_of_split {α β : Type*} {f : α → Option β} {l₂ l₁ : List α} {a : α} {b : β}
    (hnone : ∀ u ∈ l₂, f u = none) (ha : f a = some b) :
    (l₂ ++ a :: l₁).findSome? f = some b := by
  rw [List.findSome?_append, List.findSome?_eq_none_iff.mpr hnone, Option.none_or,
    List.findSome?_cons, ha]

/-- An unspent key was issued by the selection that is the latest for its login. -/
theorem issued_of_unspent (hu : unspent p h = true) :
    ∃ idx r, h.findSome? (selectedBy p) = some (idx, r) ∧ Issued h p idx (oneTimeKeyOf r) := by
  induction h with
  | nil => cases hu
  | cons t h ih =>
    unfold unspent at hu
    split at hu
    · rename_i idx r hsel
      refine ⟨idx, r, by rw [List.findSome?_cons, hsel], [], t, h, r, rfl, hsel, ?_, by simp⟩
      rw [selectServerAnswer, if_pos hu]
    · rename_i hsel
      obtain ⟨hacc, hu⟩ := Bool.and_eq_true_iff.mp hu
      obtain ⟨idx, r, hfind, h₂, u, h₁, r', rfl, hu', hkey, hrest⟩ := ih hu
      refine ⟨idx, r, by rw [List.findSome?_cons, hsel]; exact hfind, t :: h₂, u, h₁, r', rfl, hu',
        hkey, ?_⟩
      intro v hv
      rcases List.mem_cons.mp hv with rfl | hv
      · exact ⟨hsel, by simpa using hacc⟩
      · exact hrest v hv

/-- An issued key is unspent, and the selection that issued it is the latest. -/
theorem Issued.unspent {idx key : Nat} (hi : Issued h p idx key) :
    unspent p h = true ∧ ∃ r, h.findSome? (selectedBy p) = some (idx, r) := by
  obtain ⟨h₂, t, h₁, r, rfl, hsel, hkey, hrest⟩ := hi
  refine ⟨?_, r, findSome?_of_split (fun u hu => (hrest u hu).1) hsel⟩
  have hreg : (t.before.getGame (gameKey idx)).isSome := by
    unfold selectServerAnswer at hkey
    split_ifs at hkey with hg
    exact hg
  induction h₂ with
  | nil => simpa only [List.nil_append, Mononoke.unspent, hsel] using hreg
  | cons u h₂ ih =>
    obtain ⟨hu, hacc⟩ := hrest u (by simp)
    simp only [List.cons_append, Mononoke.unspent, hu, hacc, Bool.not_false, Bool.true_and]
    exact ih fun v hv => hrest v (by simp [hv])

/-! ## The answer -/

theorem clientLoginAnswer_success {a : Name} {key : Nat} :
    (s.clientLoginAnswer a key).success = true ↔
      ∃ p pl, s.getPlayer a = some p ∧ s.heap p = some pl ∧ pl.nOneTimeKey = key := by
  unfold clientLoginAnswer
  cases ha : s.getPlayer a with
  | none => simp
  | some p =>
    cases hp : s.heap p with
    | none => simp [hp]
    | some pl => simp [hp]

/-- **When an answer of success is right.** In every reachable state `HandleClientLogin` answers success
only for a key that was issued for the asking server and the account's present login and that nobody has
used, exactly if the request is fresh wherever it presents the stored key. -/
theorem soundAnswer_iff (hrun : authServer.Run h s) (g : GameId) (a : Name) (key : Nat) :
    SoundAnswer h s g a key ↔ FreshRequest h s g a key := by
  have hk := keyStored_of_run hrun
  constructor
  · intro hsound gs hg hauthed p pl ha hp hkey
    obtain ⟨q, hq, hi⟩ := hsound gs hg hauthed (clientLoginAnswer_success.mpr ⟨p, pl, ha, hp, hkey⟩)
    obtain rfl := Option.some.inj (hq.symm.trans ha)
    obtain ⟨hu, r, hfind⟩ := hi.unspent
    exact ⟨(hk.stored q pl hp _ r hfind).1, hu⟩
  · intro hfresh gs hg hauthed hsucc
    obtain ⟨p, pl, ha, hp, hkey⟩ := clientLoginAnswer_success.mp hsucc
    obtain ⟨hidx, hu⟩ := hfresh gs hg hauthed p pl ha hp hkey
    obtain ⟨idx, r, hfind, hi⟩ := issued_of_unspent hu
    obtain ⟨hidx', hkey'⟩ := hk.stored p pl hp idx r hfind
    have hsame : idx = gs.game.serverIdx := Int.ofNat.inj (hidx'.symm.trans hidx)
    exact ⟨p, ha, by rw [← hkey, hkey', ← hsame]; exact hi⟩

/-- A game server registers with index 1, and the account `a` logs in. -/
def loginEvents : List Event :=
  [.gameConnect, .gameLogin 0 1 ['g'], .clientConnect, .account 0 (some ⟨5, ['A'], false, 0⟩)]

theorem soundAnswer_selected :
    ∃ h s, (s.clientLoginAnswer ['a'] 1).success = true ∧ SoundAnswer h s 0 ['a'] 1 := by
  have hex : (System.exec (fun _ _ _ => True) (fun s e => some (s.step e))
      (loginEvents ++ [.selectServer 0 1 (1, 1, 1, 1)]) [] start).map (fun x =>
        (x.2.clientLoginAnswer ['a'] 1, (x.2.gameSessions 0).map (·.game.serverIdx),
          x.2.getPlayer ['a'], (x.2.heap 0).map (·.nGameIDX), unspent 0 x.1)) =
      some (⟨['a'], 5, true, 0⟩, some 1, some 0, some 1, true) := by decide
  obtain ⟨⟨h, s⟩, hrun, hfacts⟩ := Option.map_eq_some_iff.mp hex
  simp only [Prod.mk.injEq] at hfacts
  obtain ⟨hanswer, hidx, hplayer, hgame, hunspent⟩ := hfacts
  refine ⟨h, s, by rw [hanswer], (soundAnswer_iff (System.run_exec (I := (· = start)) _
    (.init rfl) hrun) 0 ['a'] 1).mpr ?_⟩
  intro gs hg _ p pl ha hp _
  obtain rfl := Option.some.inj (hplayer.symm.trans ha)
  rw [hg] at hidx
  rw [hp] at hgame
  have hidx' : gs.game.serverIdx = 1 := Option.some.inj hidx
  have hgame' : pl.nGameIDX = 1 := Option.some.inj hgame
  exact ⟨by rw [hgame', hidx']; rfl, hunspent⟩

/-- An account that has selected no server is let in with the key 0. -/
theorem not_soundAnswer_zero :
    ¬ ∀ h s, authServer.Run h s → ∀ g a key, SoundAnswer h s g a key := by
  intro hall
  have hex : (System.exec (fun _ _ _ => True) (fun s e => some (s.step e)) loginEvents [] start).map
      (fun x => (x.2.clientLoginAnswer ['a'] 0, (x.2.gameSessions 0).map (·.bIsAuthed),
        x.2.getPlayer ['a'], (x.1.findSome? (selectedBy 0)).isNone)) =
      some (⟨['a'], 5, true, 0⟩, some true, some 0, true) := by decide
  obtain ⟨⟨h, s⟩, hrun, hfacts⟩ := Option.map_eq_some_iff.mp hex
  simp only [Prod.mk.injEq] at hfacts
  obtain ⟨hanswer, hauthed, hplayer, hnone⟩ := hfacts
  obtain ⟨gs, hg, hgs⟩ := Option.map_eq_some_iff.mp hauthed
  obtain ⟨p, ha, hi⟩ := hall h s (System.run_exec (I := (· = start)) _ (.init rfl) hrun) 0 ['a'] 0 gs hg
    hgs (by rw [hanswer])
  obtain rfl := Option.some.inj (hplayer.symm.trans ha)
  obtain ⟨-, r, hfind⟩ := hi.unspent
  simp [hfind] at hnone

end RZEmulator.Mononoke
