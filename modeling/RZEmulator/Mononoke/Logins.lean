import RZEmulator.Mononoke.Server

/-!
# What a step does to the players

`heap_step` and `getPlayer_step` read a step backwards: a live player of the state after it was live
before, with the same record up to what a selection or an accepted login writes, or it was made by
this step; a listed player was listed before or was made by this step. Everything else only deletes
and removes. `Keyed` is the consequence that holds without any condition: whoever is listed and alive
is listed under its own name.
-/

namespace RZEmulator.Mononoke.State

variable {s : State} {e : Event}

/-- What happens to the record of a player that a step keeps alive. -/
inductive Kept (s : State) (e : Event) (p : PlayerPtr) (pl : Player) : Player → Prop
  | selected {c : ClientId} {idx : Nat} {r : Rands} (he : e = .selectServer c idx r)
      (hc : s.clients c = some ⟨true, some p⟩) :
      Kept s e p pl { pl with nGameIDX := idx, nOneTimeKey := oneTimeKeyOf r, bIsInGame := true }
  | accepted {g : GameId} {a : Name} {key : Nat} (he : e = .clientLogin g a key) :
      Kept s e p pl { pl with bIsInGame := true }
  | same (hsel : ∀ c idx r, e = .selectServer c idx r → s.clients c ≠ some ⟨true, some p⟩) :
      Kept s e p pl pl

theorem Kept.name {p : PlayerPtr} {pl pl' : Player} (h : Kept s e p pl pl') :
    pl'.szLoginName = pl.szLoginName := by
  cases h <;> rfl

theorem handleLoginPacket_heap {c : ClientId} {row : Option AccountRow} {q : PlayerPtr} {pl : Player}
    (hq : (s.handleLoginPacket c row).heap q = some pl) :
    (∃ row', row = some row' ∧ q = s.nextPlayer ∧ pl = playerOf row') ∨ s.heap q = some pl := by
  have hnew : ∀ row', (s.newPlayer (playerOf row')).heap q = some pl →
      (q = s.nextPlayer ∧ pl = playerOf row') ∨ s.heap q = some pl := by
    intro row' hq
    simp only [newPlayer, setHeap_heap] at hq
    split_ifs at hq with h
    · exact .inl ⟨h, (Option.some.inj hq).symm⟩
    · exact .inr hq
  unfold handleLoginPacket at hq
  split at hq
  · rename_i row' _
    have hq' : (s.newPlayer (playerOf row')).heap q = some pl := by
      split_ifs at hq
      · exact hq
      · exact (dropOldEntry_shrinks (s.startLogin c row' true) _).heap _ _ hq
    exact (hnew row' hq').imp_left fun h => ⟨row', rfl, h⟩
  · exact .inr hq

theorem updPlayer_heap {p q : PlayerPtr} {f : Player → Player} {pl' : Player}
    (hq : (s.updPlayer p f).heap q = some pl') :
    (q ≠ p ∧ s.heap q = some pl') ∨ (q = p ∧ ∃ pl, s.heap p = some pl ∧ pl' = f pl) := by
  unfold updPlayer at hq
  split at hq
  · rename_i hnone
    refine .inl ⟨?_, hq⟩
    rintro rfl
    exact absurd (hnone.symm.trans hq) (by simp)
  · rename_i pl hpl
    rw [setHeap_heap] at hq
    split_ifs at hq with h
    · exact .inr ⟨h, pl, hpl, (Option.some.inj hq).symm⟩
    · exact .inl ⟨h, hq⟩

theorem handleClientClose_heap {c : ClientId} {q : PlayerPtr} {pl : Player}
    (hq : (s.handleClientClose c).heap q = some pl) : s.heap q = some pl := by
  unfold handleClientClose at hq
  split at hq
  · exact hq
  · split at hq
    · exact hq
    · exact (onClientClose_shrinks s _).heap _ _ hq

theorem handleClientLogin_heap {a : Name} {key : Nat} {q : PlayerPtr} {pl' : Player}
    (hq : (s.handleClientLogin a key).heap q = some pl') :
    s.heap q = some pl' ∨ ∃ pl, s.heap q = some pl ∧ pl' = { pl with bIsInGame := true } := by
  unfold handleClientLogin at hq
  split at hq
  · exact .inl hq
  · split at hq
    · exact .inl hq
    · rename_i p pl hpl
      split_ifs at hq
      · rw [setHeap_heap] at hq
        split_ifs at hq with h
        · exact .inr ⟨pl, h ▸ hpl, (Option.some.inj hq).symm⟩
        · exact .inl hq
      · exact .inl hq

theorem heap_step {q : PlayerPtr} {pl' : Player} (hq : (s.step e).heap q = some pl') :
    (∃ c row, e = .account c (some row) ∧ q = s.nextPlayer ∧ pl' = playerOf row) ∨
    ∃ pl, s.heap q = some pl ∧ Kept s e q pl pl' := by
  have hstay : (∀ c idx r, e ≠ .selectServer c idx r) → s.heap q = some pl' →
      (∃ c row, e = .account c (some row) ∧ q = s.nextPlayer ∧ pl' = playerOf row) ∨
      ∃ pl, s.heap q = some pl ∧ Kept s e q pl pl' := fun hne hs =>
    .inr ⟨pl', hs, .same fun c idx r he => absurd he (hne c idx r)⟩
  cases e with
  | clientConnect => exact hstay (by simp) hq
  | account c row =>
    rcases handleLoginPacket_heap hq with ⟨row', rfl, hq', hpl⟩ | hq'
    · exact .inl ⟨c, row', rfl, hq', hpl⟩
    · exact hstay (by simp) hq'
  | selectServer c idx r =>
    simp only [step, handleSelectServer] at hq
    split at hq
    · rename_i p hc
      rcases updPlayer_heap hq with ⟨hne, hq⟩ | ⟨rfl, pl, hpl, rfl⟩
      · refine .inr ⟨pl', hq, .same ?_⟩
        rintro c' idx' r' he hc'
        obtain ⟨rfl, rfl, rfl⟩ := Event.selectServer.inj he
        rw [hc] at hc'
        cases hc'
        exact hne rfl
      · exact .inr ⟨pl, hpl, .selected rfl hc⟩
    · rename_i hc
      refine .inr ⟨pl', hq, .same ?_⟩
      rintro c' idx' r' he hc'
      obtain ⟨rfl, rfl, rfl⟩ := Event.selectServer.inj he
      rw [hc] at hc'
      cases hc'
    · rename_i hnone _
      refine .inr ⟨pl', hq, .same ?_⟩
      rintro c' idx' r' he hc'
      obtain ⟨rfl, rfl, rfl⟩ := Event.selectServer.inj he
      exact hnone _ hc'
  | clientClose c => exact hstay (by simp) (handleClientClose_heap hq)
  | gameConnect => exact hstay (by simp) hq
  | gameLogin g idx name =>
    exact hstay (by simp) ((handleGameLogin_shrinks s g idx name).heap _ _ hq)
  | clientLogin g a key =>
    simp only [step] at hq
    split_ifs at hq
    · rcases handleClientLogin_heap hq with hq | ⟨pl, hpl, rfl⟩
      · exact hstay (by simp) hq
      · exact .inr ⟨pl, hpl, .accepted rfl⟩
    · exact hstay (by simp) hq
  | clientLogout g a =>
    simp only [step] at hq
    split_ifs at hq
    · exact hstay (by simp) ((dropPlayer_shrinks s a).heap _ _ hq)
    · exact hstay (by simp) hq
  | clientKickFailed g a =>
    simp only [step] at hq
    split_ifs at hq
    · exact hstay (by simp) ((dropPlayer_shrinks s a).heap _ _ hq)
    · exact hstay (by simp) hq
  | gameClose g => exact hstay (by simp) ((closeSocket_shrinks s g).heap _ _ hq)
  | gameDestroy g => exact hstay (by simp) ((destroyGame_shrinks s g).heap _ _ hq)

/-! ## Listing -/

theorem handleLoginPacket_getPlayer {c : ClientId} {row : Option AccountRow} {a : Name} {q : PlayerPtr}
    (hq : (s.handleLoginPacket c row).getPlayer a = some q) :
    (∃ row', row = some row' ∧ row'.bIsBlocked = false ∧ (s.clients c).isSome ∧ q = s.nextPlayer ∧
      a = (playerOf row').szLoginName) ∨ s.getPlayer a = some q := by
  unfold handleLoginPacket at hq
  split at hq
  · rename_i cs row' hc
    split_ifs at hq with hblock
    · exact .inr hq
    · rw [getPlayer_addPlayer] at hq
      split_ifs at hq with ha
      · exact .inl ⟨row', rfl, by simpa using hblock, by rw [hc]; rfl, (Option.some.inj hq).symm, ha⟩
      · exact .inr ((dropOldEntry_shrinks (s.startLogin c row' true) _).getPlayer _ _ hq)
  · exact .inr hq

theorem getPlayer_step {a : Name} {q : PlayerPtr} (hq : (s.step e).getPlayer a = some q) :
    (∃ c row, e = .account c (some row) ∧ row.bIsBlocked = false ∧ (s.clients c).isSome ∧
      q = s.nextPlayer ∧ a = (playerOf row).szLoginName) ∨ s.getPlayer a = some q := by
  cases e with
  | clientConnect => exact .inr hq
  | account c row =>
    rcases handleLoginPacket_getPlayer hq with ⟨row', rfl, hb, hc, hq', ha⟩ | hq'
    · exact .inl ⟨c, row', rfl, hb, hc, hq', ha⟩
    · exact .inr hq'
  | selectServer c idx r =>
    simp only [step, handleSelectServer, updPlayer] at hq
    split at hq
    · split at hq <;> exact .inr hq
    · exact .inr hq
    · exact .inr hq
  | clientClose c =>
    simp only [step, handleClientClose] at hq
    split at hq
    · exact .inr hq
    · split at hq
      · exact .inr hq
      · exact .inr ((onClientClose_shrinks s _).getPlayer _ _ hq)
  | gameConnect => exact .inr hq
  | gameLogin g idx name => exact .inr ((handleGameLogin_shrinks s g idx name).getPlayer _ _ hq)
  | clientLogin g b key =>
    simp only [step, handleClientLogin] at hq
    split_ifs at hq
    · split at hq
      · exact .inr hq
      · split at hq
        · exact .inr hq
        · split_ifs at hq <;> exact .inr hq
    · exact .inr hq
  | clientLogout g b =>
    simp only [step] at hq
    split_ifs at hq
    · exact .inr ((dropPlayer_shrinks s b).getPlayer _ _ hq)
    · exact .inr hq
  | clientKickFailed g b =>
    simp only [step] at hq
    split_ifs at hq
    · exact .inr ((dropPlayer_shrinks s b).getPlayer _ _ hq)
    · exact .inr hq
  | gameClose g => exact .inr ((closeSocket_shrinks s g).getPlayer _ _ hq)
  | gameDestroy g => exact .inr ((destroyGame_shrinks s g).getPlayer _ _ hq)

/-! ## Addresses -/

theorem nextPlayer_step (s : State) (e : Event) :
    (s.step e).nextPlayer = s.nextPlayer ∨
      (s.step e).nextPlayer = s.nextPlayer + 1 ∧ ∃ c row, e = .account c (some row) := by
  cases e with
  | clientConnect => exact .inl rfl
  | account c row =>
    simp only [step, handleLoginPacket]
    split
    · rename_i row' _
      split_ifs
      · exact .inr ⟨rfl, c, row', rfl⟩
      · exact .inr ⟨(dropOldEntry_shrinks (s.startLogin c row' true) _).nextPlayer, c, row', rfl⟩
    · exact .inl rfl
  | selectServer c idx r =>
    simp only [step, handleSelectServer, updPlayer]
    split
    · split <;> exact .inl rfl
    · exact .inl rfl
    · exact .inl rfl
  | clientClose c =>
    simp only [step, handleClientClose]
    split
    · exact .inl rfl
    · split
      · exact .inl rfl
      · exact .inl (onClientClose_shrinks s _).nextPlayer
  | gameConnect => exact .inl rfl
  | gameLogin g idx name => exact .inl (handleGameLogin_shrinks s g idx name).nextPlayer
  | clientLogin g b key =>
    simp only [step, handleClientLogin]
    split_ifs
    · split
      · exact .inl rfl
      · split
        · exact .inl rfl
        · split_ifs <;> exact .inl rfl
    · exact .inl rfl
  | clientLogout g b =>
    simp only [step]
    split_ifs
    · exact .inl (dropPlayer_shrinks s b).nextPlayer
    · exact .inl rfl
  | clientKickFailed g b =>
    simp only [step]
    split_ifs
    · exact .inl (dropPlayer_shrinks s b).nextPlayer
    · exact .inl rfl
  | gameClose g => exact .inl (closeSocket_shrinks s g).nextPlayer
  | gameDestroy g => exact .inl (destroyGame_shrinks s g).nextPlayer

theorem nextPlayer_le_step (s : State) (e : Event) : s.nextPlayer ≤ (s.step e).nextPlayer := by
  rcases nextPlayer_step s e with h | ⟨h, -⟩
  · exact Nat.le_of_eq h.symm
  · exact h ▸ Nat.le_succ _

/-- Addresses that are in use have been handed out, and a listed player that is alive is listed under
its own name. -/
structure Keyed (s : State) : Prop where
  heap : ∀ p pl, s.heap p = some pl → p < s.nextPlayer
  listed : ∀ a p, s.getPlayer a = some p → p < s.nextPlayer
  name : ∀ a p pl, s.getPlayer a = some p → s.heap p = some pl → pl.szLoginName = a

theorem keyed_start : Keyed start where
  heap _ _ h := by cases h
  listed _ _ h := by cases h
  name _ _ _ h := by cases h

/-- A login whose session does not exist makes no player. -/
theorem account_new {c : ClientId} {row : AccountRow} {pl : Player} (hs : Keyed s)
    (hq : (s.step (.account c (some row))).heap s.nextPlayer = some pl) :
    (s.step (.account c (some row))).nextPlayer = s.nextPlayer + 1 := by
  simp only [step, handleLoginPacket] at hq ⊢
  split at hq
  · split_ifs at hq ⊢
    · rfl
    · exact (dropOldEntry_shrinks (s.startLogin c _ true) _).nextPlayer
  · exact absurd (hs.heap _ _ hq) (Nat.lt_irrefl _)

theorem Keyed.step (hs : Keyed s) (e : Event) : Keyed (s.step e) where
  heap p pl hp := by
    rcases heap_step hp with ⟨c, row, rfl, rfl, -⟩ | ⟨pl', hpl', -⟩
    · rw [account_new hs hp]
      exact Nat.lt_succ_self _
    · exact Nat.lt_of_lt_of_le (hs.heap p pl' hpl') (nextPlayer_le_step s e)
  listed a p ha := by
    rcases getPlayer_step ha with ⟨c, row, rfl, hb, hc, rfl, -⟩ | ha'
    · obtain ⟨cs, hcs⟩ := Option.isSome_iff_exists.mp hc
      simp only [State.step, handleLoginPacket, hcs, hb]
      exact Nat.lt_of_lt_of_eq (Nat.lt_succ_self _)
        (dropOldEntry_shrinks (s.startLogin c row true) _).nextPlayer.symm
    · exact Nat.lt_of_lt_of_le (hs.listed a p ha') (nextPlayer_le_step s e)
  name a p pl ha hp := by
    rcases heap_step hp with ⟨c, row, rfl, rfl, rfl⟩ | ⟨pl', hpl', hkept⟩
    · rcases getPlayer_step ha with ⟨c', row', he, -, -, -, hname⟩ | ha'
      · obtain ⟨rfl, hrow⟩ := Event.account.inj he
        rw [hname, Option.some.inj hrow]
      · exact absurd (hs.listed _ _ ha') (Nat.lt_irrefl _)
    · rcases getPlayer_step ha with ⟨c, row, rfl, -, -, rfl, -⟩ | ha'
      · exact absurd (hs.heap _ _ hpl') (Nat.lt_irrefl _)
      · rw [hkept.name]
        exact hs.name a p pl' ha' hpl'

/-- Every reachable state is keyed. -/
theorem keyed_of_run {C : Lib.History State Event → State → Event → Prop} {h : Lib.History State Event}
    (hrun : authServer.RunWhere C h s) : Keyed s :=
  hrun.invariant (I := fun _ s => Keyed s) (fun _ hs => authServer_init hs ▸ keyed_start)
    fun _ _ e _ _ hs _ hstep => authServer_step hstep ▸ hs.step e

end RZEmulator.Mononoke.State
