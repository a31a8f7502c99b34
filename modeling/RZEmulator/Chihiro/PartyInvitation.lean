import RZEmulator.Chihiro.PartyChange
import RZEmulator.Chihiro.PartyCommand
import RZEmulator.Chihiro.PartyRun

/-!
# Invitations

An invitation to a party is good for as long as the party exists: `/pjoin` accepts the two texts of the message
if the party has room, and accepts no other password. The argument is that the password of a party never
changes, is small enough to be read back, and is what the message says. A restart, which forgets the
passwords, and a password that is drawn too large are what `CarefulCommand` excludes.
-/

namespace RZEmulator.Chihiro

namespace GroupManager

open Lib State

variable {N : Type} {chars : Characters N} {w w' : State N} {p : Player N} {id : Int}
  {h : History (State N) (Command N)}

/-! ## The text of `/pjoin` -/

/-- A number in decimal has no blank in it. -/
theorem intText_solid (n : Int) : ∀ c ∈ intText n, c ≠ ' ' ∧ c ≠ '\x00' := by
  have hdigits : ∀ c ∈ Nat.toDigits 10 n.natAbs, c ≠ ' ' ∧ c ≠ '\x00' := fun c hc => by
    have hdigit : c.isDigit = true := Nat.isDigit_of_mem_toDigits (by decide) (by decide) hc
    constructor <;> rintro rfl <;> exact absurd hdigit (by decide)
  intro c hc
  unfold intText at hc
  split_ifs at hc
  · rcases List.mem_cons.mp hc with rfl | hc
    · decide
    · exact hdigits c hc
  · exact hdigits c hc

theorem tokenizer_intText (m n : Int) : tokenizer (intText m ++ ' ' :: intText n) ' ' = [intText m, intText n] := by
  have hne : intText n ≠ [] := by
    unfold intText
    split_ifs
    · exact List.cons_ne_nil _ _
    · exact Nat.toDigits_ne_nil
  have hlast : tokensFrom ' ' [] (intText n) = [intText n] := by
    rw [← List.append_nil (intText n), tokensFrom_append (intText_solid n), List.nil_append, List.append_nil,
      tokensFrom, if_neg hne]
  rw [tokenizer, tokensFrom_append (intText_solid m), List.nil_append, tokensFrom, if_pos rfl, hlast]

/-! ## Passwords -/

/-- The parties that are left are those of before, with their passwords. -/
structure Keeps (w w' : State N) : Prop where
  party : ∀ id info', w'.getPartyInfo id = some info' → ∃ info, w.getPartyInfo id = some info ∧
    info'.nPartyPassword = info.nPartyPassword ∧
    (info'.vMemberNameList.length ≤ info.vMemberNameList.length ∨ info'.vMemberNameList.length ≤ 8)
  row : ∀ id ∈ w'.Party, id ∈ w.Party

namespace Keeps

theorem refl (w : State N) : Keeps w w :=
  ⟨fun _ info hi => ⟨info, hi, rfl, .inl (Nat.le_refl _)⟩, fun _ hid => hid⟩

/-- What changes neither the parties nor their rows. -/
theorem then_eq {w'' : State N} (h : Keeps w w') (hparty : w''.m_hshPartyID = w'.m_hshPartyID)
    (hrow : w''.Party = w'.Party) : Keeps w w'' := by
  refine ⟨fun id info hi => h.party id info ?_, fun id hid => h.row id (hrow ▸ hid)⟩
  unfold getPartyInfo at hi ⊢
  rw [← hparty]
  exact hi

theorem setPartyInfo {info : PartyInfo N} (hi : w.getPartyInfo id = some info) (info' : PartyInfo N)
    (hpw : info'.nPartyPassword = info.nPartyPassword)
    (hlen : info'.vMemberNameList.length ≤ info.vMemberNameList.length ∨ info'.vMemberNameList.length ≤ 8) :
    Keeps w (w.setPartyInfo id info') := by
  refine ⟨fun id' info₁ hi₁ => ?_, fun _ hid => hid⟩
  by_cases hid : id' = id
  · subst hid
    rw [getPartyInfo_setPartyInfo, Option.some.injEq] at hi₁
    subst hi₁
    exact ⟨info, hi, hpw, hlen⟩
  · rw [getPartyInfo_setPartyInfo_ne hid] at hi₁
    exact ⟨info₁, hi₁, rfl, .inl (Nat.le_refl _)⟩

theorem retag (w : State N) (nPartyID : Int) (szName : N) (f : PartyMemberTag N → PartyMemberTag N) :
    Keeps w (w.retag chars nPartyID szName f) := by
  unfold State.retag
  cases hi : w.getPartyInfo nPartyID with
  | none => exact .refl w
  | some info => exact .setPartyInfo hi _ rfl (.inl (by rw [List.length_map]))

theorem joinParty {nPass : Nat} (hrun : w.joinParty id p nPass = some w') : Keeps w w' := by
  obtain ⟨info, hi, hrun⟩ := Option.bind_eq_some_iff.mp hrun
  split_ifs at hrun with hfull
  obtain rfl := Option.some.inj hrun
  obtain ⟨hroom, -⟩ := not_or.mp hfull
  set info' : PartyInfo N :=
    { info with vMemberNameList := info.vMemberNameList ++ [⟨true, p.sid, p.name, some p.handle⟩] } with hinfo'
  refine (setPartyInfo hi info' rfl (.inr ?_)).then_eq rfl rfl
  rw [hinfo', List.length_append, List.length_singleton]
  omega

theorem onJoinParty (w : State N) (p : Player N) (partyID : Int) (partyPW : Nat) :
    Keeps w (w.onJoinParty p partyID partyPW) := by
  unfold State.onJoinParty
  split_ifs
  · exact .refl w
  · cases hrun : w.joinParty partyID p partyPW with
    | none => exact .refl w
    | some w₁ => exact .joinParty hrun

theorem onJoinPartyText {args : List Char} (hrun : w.onJoinPartyText p args = some w') : Keeps w w' := by
  unfold State.onJoinPartyText at hrun
  have hstay : some w = some w' → Keeps w w' := fun heq => by
    obtain rfl := Option.some.inj heq
    exact .refl w
  split_ifs at hrun
  · exact hstay hrun
  · split at hrun
    · split_ifs at hrun
      · obtain ⟨partyID, -, hrun⟩ := Option.bind_eq_some_iff.mp hrun
        obtain ⟨partyPW, -, rfl⟩ := Option.map_eq_some_iff.mp hrun
        exact .onJoinParty w p partyID _
      · exact hstay hrun
    · exact hstay hrun

/-- A login and a logout change the players, and then a tag. -/
theorem retag_of_eq {w₁ : State N} (hparty : w₁.m_hshPartyID = w.m_hshPartyID) (hrow : w₁.Party = w.Party)
    (nPartyID : Int) (szName : N) (f : PartyMemberTag N → PartyMemberTag N) :
    Keeps w (w₁.retag chars nPartyID szName f) := by
  have h : Keeps w₁ (w₁.retag chars nPartyID szName f) := .retag w₁ nPartyID szName f
  refine ⟨fun id info hi => ?_, fun id hid => hrow ▸ h.row id hid⟩
  obtain ⟨info₁, hi₁, hrest⟩ := h.party id info hi
  refine ⟨info₁, ?_, hrest⟩
  unfold getPartyInfo at hi₁ ⊢
  rw [← hparty]
  exact hi₁

theorem login (w : State N) (sid : Nat) (szName : N) (handle : Nat) : Keeps w (w.login chars sid szName handle) := by
  unfold State.login onLogin
  dsimp only
  split_ifs
  · refine retag_of_eq ?_ ?_ _ _ _ <;> rfl
  · exact (refl w).then_eq rfl rfl
  · exact refl w

theorem logout (w : State N) (p : Player N) : Keeps w (w.logout chars p) := by
  unfold State.logout onLogout
  dsimp only
  have hsave : ∀ f, Keeps w ((w.save p).retag chars p.partyID p.name f) := fun f => by
    refine retag_of_eq ?_ ?_ _ _ _ <;> rfl
  split_ifs
  · exact (hsave _).then_eq rfl rfl
  · exact (refl w).then_eq rfl rfl

theorem destroyParty (w : State N) (nPartyID : Int) : Keeps w (w.destroyParty nPartyID) := by
  unfold State.destroyParty
  dsimp only
  rw [Consistent.foldl_dismiss]
  refine ⟨fun id info hi => ?_, fun id hid => (AList.mem_erase.mp hid).2⟩
  by_cases hid : id = nPartyID
  · subst hid
    rw [getPartyInfo, AList.lookup_erase] at hi
    cases hi
  · rw [getPartyInfo, AList.lookup_erase_ne hid] at hi
    exact ⟨info, hi, rfl, .inl (Nat.le_refl _)⟩

theorem onPartyDestroy [DecidableEq N] (w : State N) (p : Player N) : Keeps w (w.onPartyDestroy p) := by
  unfold State.onPartyDestroy
  split_ifs
  · exact .refl w
  · exact .destroyParty w _

theorem onLeaveParty (w : State N) (p : Player N) : Keeps w (w.onLeaveParty chars p) := by
  unfold State.onLeaveParty
  split_ifs
  · exact .refl w
  · cases hrun : w.leaveParty chars p.partyID p.name with
    | none => exact .refl w
    | some w₁ =>
      obtain ⟨info, hi, hrun⟩ := Option.bind_eq_some_iff.mp hrun
      split_ifs at hrun
      obtain rfl := Option.some.inj hrun
      set info' : PartyInfo N := { info with
        vMemberNameList := info.vMemberNameList.eraseP fun it => chars.iequals p.name it.strName }
      exact (setPartyInfo hi info' rfl (.inl List.eraseP_sublist.length_le)).then_eq rfl rfl

end Keeps

/-! ## The invariant -/

variable [DecidableEq N] [Inhabited N]

/-- The invitations say what the parties say, and the parties say what `/pjoin` can read. -/
structure Inviting (chars : Characters N) (h : History (State N) (Command N)) (w : State N) : Prop where
  message : ∀ m ∈ outstanding chars h, ∃ info, w.getPartyInfo m.1 = some info ∧
    m.2 = ⟨intText m.1, intText info.nPartyPassword⟩
  party : ∀ id info, w.getPartyInfo id = some info →
    IsInt32 id ∧ info.nPartyPassword < 2 ^ 31 ∧ info.vMemberNameList.length ≤ 8
  row : ∀ id ∈ w.Party, IsInt32 id

/-- The number of the next party. -/
def nextPartyID (w : State N) : Int := narrow32 ((w.m_nMaxPartyID + 1 : Nat) : Int)

def nameTaken (w : State N) (szName : N) : Bool :=
  w.m_hshPartyID.entries.any fun party => party.2.strPartyName = szName

/-- What the library reads from a text fits into 32 bits. -/
def ReadsInt32 (s : List Char) : Prop := ∃ n ∈ intPrefix s, IsInt32 n

instance (s : List Char) : Decidable (ReadsInt32 s) := inferInstanceAs (Decidable (∃ n ∈ intPrefix s, IsInt32 n))

/-- The two numbers of `/pjoin`, where it looks at them, can be converted. -/
def Readable (p : Player N) (args : List Char) : Prop :=
  p.partyID = 0 → (tokenizer args ' ').length = 2 → (∀ s ∈ tokenizer args ' ', isMXNumeric s = true) →
    ∀ s ∈ tokenizer args ' ', ReadsInt32 s

/-- When a command leaves the invitations good: a new party has a password that can be read back and a number
of its own; a restart happens while all invitations are to parties without a password, and no party has more
than eight characters; and what `/pjoin` reads can be read. -/
def CarefulCommand (chars : Characters N) (h : History (State N) (Command N)) (w : State N) : Command N → Prop
  | .party (.onCreateParty pClient partyName password) => ∀ p ∈ w.player pClient, p.partyID = 0 →
    nameTaken w partyName = false → password < 2 ^ 31 ∧ (w.getPartyInfo (nextPartyID w)).isSome = false
  | .party .restart => (∀ m ∈ outstanding chars h, m.1 ∈ w.Party → w.getPassword m.1 = 0) ∧
    ∀ id ∈ w.Party.keys, (chars.sids.filter fun sid => w.party_id sid = id).length ≤ 8
  | .onJoinParty pClient args => ∀ p ∈ w.player pClient, Readable p args
  | _ => True

namespace Inviting

theorem keeps (hw : Inviting chars h w) {c : Command N} (hkeep : Keeps w w') (hsent : sent chars ⟨w, c, w'⟩ = none) :
    Inviting chars (⟨w, c, w'⟩ :: h) w' := by
  refine ⟨fun m hm => ?_, fun id info' hi' => ?_, fun id hid => hw.row id (hkeep.row id hid)⟩
  · rw [outstanding, hsent] at hm
    obtain ⟨hm, hsome⟩ := List.mem_filter.mp hm
    obtain ⟨info', hi'⟩ := Option.isSome_iff_exists.mp hsome
    obtain ⟨info, hi, hpw, -⟩ := hkeep.party m.1 info' hi'
    obtain ⟨info₀, hi₀, hmessage⟩ := hw.message m hm
    obtain rfl := Option.some.inj (hi.symm.trans hi₀)
    exact ⟨info', hi', by rw [hpw]; exact hmessage⟩
  · obtain ⟨info, hi, hpw, hlen⟩ := hkeep.party id info' hi'
    obtain ⟨hid, hsmall, hsize⟩ := hw.party id info hi
    exact ⟨hid, hpw ▸ hsmall, by omega⟩

theorem onInviteParty (hw : Inviting chars h w) (handle : Nat) (szPlayer : N) :
    Inviting chars (⟨w, .onInviteParty handle szPlayer, w⟩ :: h) w := by
  refine ⟨fun m hm => ?_, hw.party, hw.row⟩
  obtain ⟨hm, hsome⟩ := List.mem_filter.mp hm
  rcases List.mem_append.mp hm with hm | hm
  · obtain ⟨info, hi⟩ := Option.isSome_iff_exists.mp hsome
    refine ⟨info, hi, ?_⟩
    obtain ⟨p, -, hsent⟩ := Option.bind_eq_some_iff.mp (Option.mem_toList.mp hm)
    obtain ⟨⟨player, invitation⟩, hinvite, rfl⟩ := Option.map_eq_some_iff.mp hsent
    unfold State.onInviteParty at hinvite
    split_ifs at hinvite
    · obtain ⟨q, -, hnone⟩ := Option.bind_eq_some_iff.mp hinvite
      cases hnone
    · obtain ⟨q, -, hinvite⟩ := Option.bind_eq_some_iff.mp hinvite
      simp only [Option.some.injEq, Prod.mk.injEq] at hinvite
      dsimp only at hi ⊢
      rw [← hinvite.2, State.getPassword, hi]
      rfl
  · exact hw.message m hm

end Inviting

omit [Inhabited N] in
/-- A party that is created is new, and has its creator as its only member. -/
theorem onCreateParty_cases (w : State N) (p : Player N) (partyName : N) (password : Nat) :
    w.onCreateParty p partyName password = w ∨ p.partyID = 0 ∧ nameTaken w partyName = false ∧
      ∃ info, info.nPartyPassword = password ∧ info.vMemberNameList.length = 1 ∧
        (w.onCreateParty p partyName password).getPartyInfo (nextPartyID w) = some info ∧
        (∀ id, id ≠ nextPartyID w →
          (w.onCreateParty p partyName password).getPartyInfo id = w.getPartyInfo id) ∧
        ∀ id ∈ (w.onCreateParty p partyName password).Party, id ∈ w.Party ∨ id = nextPartyID w := by
  unfold State.onCreateParty
  by_cases hfree : p.partyID = 0
  swap
  · exact .inl (if_pos hfree)
  rw [if_neg (not_not.mpr hfree)]
  have htaken : (w.m_hshPartyID.entries.any fun party => party.2.strPartyName = partyName) =
    nameTaken w partyName := rfl
  unfold State.createParty
  rw [htaken]
  by_cases hname : nameTaken w partyName = true
  · rw [if_pos hname]
    exact .inl rfl
  refine .inr ⟨hfree, Bool.eq_false_iff.mpr hname, ?_⟩
  rw [if_neg hname]
  dsimp only
  rw [show narrow32 ((w.m_nMaxPartyID + 1 : Nat) : Int) = nextPartyID w from rfl]
  generalize nextPartyID w = n
  set w₁ : State N := { w with m_nMaxPartyID := w.m_nMaxPartyID + 1 } with hw₁
  set info : PartyInfo N := ⟨password, n, p.sid, partyName, p.name, []⟩ with hinfo
  set info' : PartyInfo N := { info with vMemberNameList := [⟨true, p.sid, p.name, some p.handle⟩] } with hinfo'
  set w₂ := ((w₁.setPartyInfo n info).setPartyInfo n info').setPartyID p.handle n with hw₂
  have hjoin : (w₁.setPartyInfo n info).joinParty n p password = some w₂ := by
    unfold State.joinParty
    rw [getPartyInfo_setPartyInfo, Option.bind_some, if_neg (by simp [hinfo])]
    rfl
  rw [hjoin, Option.getD_some, Option.map_some, Option.getD_some]
  have hadd : (w₂.addGroupToDatabase info).m_hshPartyID = w₂.m_hshPartyID := by
    unfold addGroupToDatabase
    split_ifs <;> rfl
  have hget : ∀ id, ((w₂.addGroupToDatabase info).setPartyID p.handle n).getPartyInfo id = w₂.getPartyInfo id :=
    fun id => congrArg (AList.lookup id) hadd
  refine ⟨info', rfl, rfl, ?_, fun id hne => ?_, fun id hid => ?_⟩
  · exact (hget n).trans (getPartyInfo_setPartyInfo n info')
  · exact (hget id).trans ((getPartyInfo_setPartyInfo_ne hne info').trans (getPartyInfo_setPartyInfo_ne hne info))
  · have hrow : id ∈ (w₂.addGroupToDatabase info).Party := hid
    unfold addGroupToDatabase at hrow
    split_ifs at hrow
    · exact .inl hrow
    · exact ((AList.mem_insert _).mp hrow).symm

namespace Inviting

theorem onCreateParty (hw : Inviting chars h w) {handle : Nat} {partyName : N} {password : Nat}
    (hp : w.player handle = some p)
    (hc : CarefulCommand chars h w (.party (.onCreateParty handle partyName password))) :
    Inviting chars (⟨w, .party (.onCreateParty handle partyName password),
      w.onCreateParty p partyName password⟩ :: h) (w.onCreateParty p partyName password) := by
  rcases onCreateParty_cases w p partyName password with hsame | hnew
  · rw [hsame]
    exact hw.keeps (.refl w) rfl
  obtain ⟨hfree, hname, info, hpw, hlen, hi, hother, hrow⟩ := hnew
  obtain ⟨hsmall, hunused⟩ := hc p hp hfree hname
  have hid : IsInt32 (nextPartyID w) := narrow32_isInt32 _
  refine ⟨fun m hm => ?_, fun id info' hi' => ?_, fun id hid' => ?_⟩
  · obtain ⟨hm, -⟩ := List.mem_filter.mp hm
    obtain ⟨info₀, hi₀, hmessage⟩ := hw.message m hm
    have hne : m.1 ≠ nextPartyID w := fun heq => by
      rw [← heq, hi₀] at hunused
      cases hunused
    exact ⟨info₀, (hother m.1 hne).trans hi₀, hmessage⟩
  · by_cases heq : id = nextPartyID w
    · rw [heq, hi, Option.some.injEq] at hi'
      rw [heq, ← hi', hpw, hlen]
      exact ⟨hid, hsmall, by decide⟩
    · rw [hother id heq] at hi'
      exact hw.party id info' hi'
  · rcases hrow id hid' with hmem | heq
    · exact hw.row id hmem
    · rw [heq]
      exact hid

omit [DecidableEq N] in
theorem loadPartyInfo_nPartyPassword (w : State N) (id : Int) (row : PartyRow N) :
    (w.loadPartyInfo chars id row).nPartyPassword = 0 := rfl

theorem restart (hw : Inviting chars h w) (hc : CarefulCommand chars h w (.party .restart)) :
    Inviting chars (⟨w, .party .restart, w.initGroupSystem chars⟩ :: h) (w.initGroupSystem chars) := by
  obtain ⟨hzero, hsize⟩ := hc
  refine ⟨fun m hm => ?_, fun id info hi => ?_, hw.row⟩
  · obtain ⟨hm, hsome⟩ := List.mem_filter.mp hm
    obtain ⟨info, hi, hmessage⟩ := hw.message m hm
    obtain ⟨info', hi'⟩ := Option.isSome_iff_exists.mp hsome
    have hload := hi'
    rw [Consistent.getPartyInfo_initGroupSystem] at hload
    obtain ⟨row, hrow, rfl⟩ := Option.map_eq_some_iff.mp hload
    have hnone := hzero m hm (AList.lookup_isSome.mp (Option.isSome_of_eq_some hrow))
    rw [State.getPassword, hi] at hnone
    have hpw : info.nPartyPassword = 0 := hnone
    exact ⟨_, hi', by rw [hmessage, hpw, loadPartyInfo_nPartyPassword]⟩
  · rw [Consistent.getPartyInfo_initGroupSystem] at hi
    obtain ⟨row, hrow, rfl⟩ := Option.map_eq_some_iff.mp hi
    have hmem : id ∈ w.Party := AList.lookup_isSome.mp (Option.isSome_of_eq_some hrow)
    refine ⟨hw.row id hmem, by rw [loadPartyInfo_nPartyPassword]; exact Nat.two_pow_pos 31, ?_⟩
    unfold loadPartyInfo
    rw [List.length_map]
    exact hsize id hmem

/-- One step. -/
theorem step (hw : Inviting chars h w) {c : Command N} (hc : CarefulCommand chars h w c)
    (hrun : run chars w c = some w') : Inviting chars (⟨w, c, w'⟩ :: h) w' := by
  cases c with
  | onInviteParty handle szPlayer =>
    obtain ⟨p, -, rfl⟩ := Option.map_eq_some_iff.mp hrun
    exact hw.onInviteParty handle szPlayer
  | onJoinParty handle args =>
    obtain ⟨p, -, hjoin⟩ := Option.bind_eq_some_iff.mp hrun
    exact hw.keeps (.onJoinPartyText hjoin) rfl
  | party e =>
    unfold run at hrun
    dsimp only at hrun
    split_ifs at hrun with hjoins
    cases e with
    | login sid szName handle =>
      unfold GroupManager.step at hrun
      dsimp only at hrun
      split_ifs at hrun
      obtain rfl := Option.some.inj hrun
      exact hw.keeps (.login w sid szName handle) rfl
    | logout handle =>
      obtain ⟨p, -, rfl⟩ := Option.map_eq_some_iff.mp hrun
      exact hw.keeps (.logout w p) rfl
    | save handle =>
      obtain ⟨p, -, rfl⟩ := Option.map_eq_some_iff.mp hrun
      exact hw.keeps ((Keeps.refl w).then_eq rfl rfl) rfl
    | onCreateParty handle partyName password =>
      obtain ⟨p, hp, rfl⟩ := Option.map_eq_some_iff.mp hrun
      exact hw.onCreateParty hp hc
    | onJoinParty handle partyID partyPW => exact absurd rfl hjoins
    | onPartyDestroy handle =>
      obtain ⟨p, -, rfl⟩ := Option.map_eq_some_iff.mp hrun
      exact hw.keeps (.onPartyDestroy w p) rfl
    | onLeaveParty handle =>
      obtain ⟨p, -, rfl⟩ := Option.map_eq_some_iff.mp hrun
      exact hw.keeps (.onLeaveParty w p) rfl
    | restart =>
      obtain rfl := Option.some.inj hrun
      exact hw.restart hc

end Inviting

/-! ## What is claimed -/

/-- **The invitations hold**: each is accepted as long as its party has room, no other password is, and no
party has more than eight members. -/
structure InvitationsHold (chars : Characters N) (h : History (State N) (Command N)) (w : State N) : Prop where
  accepted : ∀ m ∈ outstanding chars h, ∃ info, w.getPartyInfo m.1 = some info ∧
    (info.vMemberNameList.length < 8 → ∀ p : Player N, p.partyID = 0 →
      ∃ w', w.joinParty m.1 p info.nPartyPassword = some w' ∧
        w.onJoinPartyText p (m.2.nPartyID ++ ' ' :: m.2.nPW) = some w')
  refused : ∀ id info, w.getPartyInfo id = some info → ∀ (p : Player N) (args idText pwText : List Char),
    tokenizer args ' ' = [idText, pwText] → intPrefix idText = some id →
      intPrefix pwText ≠ some (info.nPartyPassword : Int) →
        ∀ w', w.onJoinPartyText p args = some w' → w' = w
  size : ∀ id info, w.getPartyInfo id = some info → info.vMemberNameList.length ≤ 8

theorem stoi_eq_some {s : List Char} {n : Int} : stoi s = some n ↔ intPrefix s = some n ∧ IsInt32 n := by
  unfold stoi
  rw [Option.filter_eq_some_iff, decide_eq_true_eq]

theorem stoi_isSome {s : List Char} : (stoi s).isSome ↔ ReadsInt32 s := by
  rw [Option.isSome_iff_exists]
  exact exists_congr fun n => stoi_eq_some

omit [DecidableEq N] [Inhabited N] in
/-- `/pjoin` does not throw, exactly if it can read what it looks at. -/
theorem onJoinPartyText_isSome (w : State N) (p : Player N) (args : List Char) :
    (w.onJoinPartyText p args).isSome ↔ Readable p args := by
  unfold State.onJoinPartyText Readable
  by_cases hfree : p.partyID = 0
  swap
  · rw [if_pos hfree]
    exact ⟨fun _ h => absurd h hfree, fun _ => rfl⟩
  rw [if_neg (not_not.mpr hfree)]
  obtain hnil | ⟨idText, hone⟩ | ⟨idText, pwText, htwo⟩ | ⟨s₁, s₂, s₃, rest, hmore⟩ :
      tokenizer args ' ' = [] ∨ (∃ s, tokenizer args ' ' = [s]) ∨ (∃ s s', tokenizer args ' ' = [s, s']) ∨
        ∃ s₁ s₂ s₃ rest, tokenizer args ' ' = s₁ :: s₂ :: s₃ :: rest := by
    rcases tokenizer args ' ' with _ | ⟨s₁, _ | ⟨s₂, _ | ⟨s₃, rest⟩⟩⟩ <;> simp
  · rw [hnil]
    exact ⟨fun _ _ hlen => absurd hlen (by decide), fun _ => rfl⟩
  · rw [hone]
    exact ⟨fun _ _ hlen => absurd hlen (by simp), fun _ => rfl⟩
  · rw [htwo]
    dsimp only
    by_cases hnum : isMXNumeric idText = true ∧ isMXNumeric pwText = true
    swap
    · rw [if_neg hnum]
      refine ⟨fun _ _ _ hall => absurd ⟨hall idText ?_, hall pwText ?_⟩ hnum, fun _ => rfl⟩ <;> simp
    rw [if_pos hnum]
    have hboth : ((stoi idText).bind fun partyID => (stoi pwText).map fun partyPW =>
        w.onJoinParty p partyID (partyPW % 2 ^ 32).toNat).isSome = ((stoi idText).isSome && (stoi pwText).isSome) := by
      cases stoi idText <;> cases stoi pwText <;> rfl
    rw [hboth, Bool.and_eq_true, stoi_isSome, stoi_isSome]
    simp [hfree, hnum]
  · rw [hmore]
    exact ⟨fun _ _ hlen => absurd hlen (by simp), fun _ => rfl⟩

omit [DecidableEq N] [Inhabited N] in
/-- What `/pjoin` does with two numbers that it can read. -/
theorem onJoinPartyText_eq {idText pwText args : List Char} {id n : Int} (hfree : p.partyID = 0)
    (htokens : tokenizer args ' ' = [idText, pwText]) (hnum : isMXNumeric idText = true ∧ isMXNumeric pwText = true)
    (hid : stoi idText = some id) (hn : stoi pwText = some n) :
    w.onJoinPartyText p args = some ((w.joinParty id p (n % 2 ^ 32).toNat).getD w) := by
  unfold State.onJoinPartyText State.onJoinParty
  rw [if_neg (not_not.mpr hfree), htokens]
  dsimp only
  rw [if_pos hnum, hid, hn, Option.bind_some, Option.map_some, if_neg (not_not.mpr hfree)]

theorem Inviting.accepted (hw : Inviting chars h w) {m : Int × Invitation} (hm : m ∈ outstanding chars h) :
    ∃ info, w.getPartyInfo m.1 = some info ∧
      (info.vMemberNameList.length < 8 → ∀ p : Player N, p.partyID = 0 →
        ∃ w', w.joinParty m.1 p info.nPartyPassword = some w' ∧
          w.onJoinPartyText p (m.2.nPartyID ++ ' ' :: m.2.nPW) = some w') := by
  obtain ⟨info, hi, hmessage⟩ := hw.message m hm
  obtain ⟨hid, hsmall, -⟩ := hw.party m.1 info hi
  refine ⟨info, hi, fun hroom p hfree => ?_⟩
  have hjoin : ∃ w', w.joinParty m.1 p info.nPartyPassword = some w' := by
    unfold State.joinParty
    rw [hi, Option.bind_some, if_neg (by omega)]
    exact ⟨_, rfl⟩
  obtain ⟨w', hjoin⟩ := hjoin
  have hpw : IsInt32 (info.nPartyPassword : Int) := ⟨by omega, by omega⟩
  have hback : ((info.nPartyPassword : Int) % 2 ^ 32).toNat = info.nPartyPassword := by omega
  refine ⟨w', hjoin, ?_⟩
  rw [hmessage, onJoinPartyText_eq hfree (tokenizer_intText _ _) ⟨readsDouble_intText ?_, readsDouble_intText ?_⟩
    (stoi_intText hid) (stoi_intText hpw), hback, hjoin]
  · rfl
  · unfold IsInt32 at hid
    omega
  · omega

theorem Inviting.refused (hw : Inviting chars h w) {info : PartyInfo N} (hi : w.getPartyInfo id = some info)
    {args idText pwText : List Char} (htokens : tokenizer args ' ' = [idText, pwText])
    (hid : intPrefix idText = some id) (hpw : intPrefix pwText ≠ some (info.nPartyPassword : Int))
    (hrun : w.onJoinPartyText p args = some w') : w' = w := by
  obtain ⟨-, hsmall, -⟩ := hw.party id info hi
  unfold State.onJoinPartyText at hrun
  split_ifs at hrun with hfree
  · exact (Option.some.inj hrun).symm
  rw [htokens] at hrun
  dsimp only at hrun
  split_ifs at hrun with hnum
  swap
  · exact (Option.some.inj hrun).symm
  obtain ⟨id', hid', hrun⟩ := Option.bind_eq_some_iff.mp hrun
  obtain ⟨n, hn, rfl⟩ := Option.map_eq_some_iff.mp hrun
  obtain ⟨hn, hint⟩ := stoi_eq_some.mp hn
  obtain rfl := Option.some.inj (hid.symm.trans (stoi_eq_some.mp hid').1)
  have hne : n ≠ (info.nPartyPassword : Int) := fun heq => hpw (hn.trans (congrArg some heq))
  have hother : (n % 2 ^ 32).toNat ≠ info.nPartyPassword := by
    unfold IsInt32 at hint
    omega
  unfold State.onJoinParty State.joinParty
  rw [if_neg (not_not.mpr (not_not.mp hfree)), hi, Option.bind_some, if_pos (.inr hother)]
  rfl

theorem Inviting.hold (hw : Inviting chars h w) : InvitationsHold chars h w :=
  ⟨fun _ hm => hw.accepted hm, fun _ _ hi _ _ _ _ htokens hid hpw _ hrun => hw.refused hi htokens hid hpw hrun,
    fun id info hi => (hw.party id info hi).2.2⟩

theorem Init.inviting (hw : Init w) : Inviting chars [] w := by
  obtain ⟨-, hparties, htable, -⟩ := hw
  refine ⟨fun m hm => (by cases hm), fun id info hi => ?_, fun id hid => ?_⟩
  · rw [getPartyInfo, hparties] at hi
    cases hi
  · rw [htable] at hid
    cases hid

/-- **In a run of careful commands the invitations hold**, and `/pjoin` does not throw if it can read what it
looks at. -/
theorem invitations_of_run
    (hrun : (commandSystem chars).RunWhere (CarefulCommand chars) h w) :
    InvitationsHold chars h w ∧ ∀ p args, (w.onJoinPartyText p args).isSome ↔ Readable p args := by
  have hw : Inviting chars h w := hrun.invariant (I := Inviting chars) (fun _ h0 => Init.inviting h0)
    fun _ _ _ _ _ hw hc hstep => hw.step hc hstep
  exact ⟨hw.hold, onJoinPartyText_isSome w⟩

/-! ## Two characters -/

instance (p : Player N) (args : List Char) : Decidable (Readable p args) :=
  inferInstanceAs (Decidable (p.partyID = 0 → (tokenizer args ' ').length = 2 →
    (∀ s ∈ tokenizer args ' ', isMXNumeric s = true) → ∀ s ∈ tokenizer args ' ', ReadsInt32 s))

instance (h : History (State N) (Command N)) (w : State N) :
    (c : Command N) → Decidable (CarefulCommand chars h w c)
  | .party (.onCreateParty pClient partyName password) => inferInstanceAs (Decidable (∀ p ∈ w.player pClient,
      p.partyID = 0 → nameTaken w partyName = false →
        password < 2 ^ 31 ∧ (w.getPartyInfo (nextPartyID w)).isSome = false))
  | .party .restart => inferInstanceAs (Decidable ((∀ m ∈ outstanding chars h, m.1 ∈ w.Party →
      w.getPassword m.1 = 0) ∧ ∀ id ∈ w.Party.keys, (chars.sids.filter fun sid => w.party_id sid = id).length ≤ 8))
  | .onJoinParty pClient args => inferInstanceAs (Decidable (∀ p ∈ w.player pClient, Readable p args))
  | .onInviteParty _ _ => .isTrue trivial
  | .party (.login _ _ _) => .isTrue trivial
  | .party (.logout _) => .isTrue trivial
  | .party (.save _) => .isTrue trivial
  | .party (.onJoinParty _ _ _) => .isTrue trivial
  | .party (.onPartyDestroy _) => .isTrue trivial
  | .party (.onLeaveParty _) => .isTrue trivial

theorem run_couple (C : History _ _ → State Nat → Command Nat → Prop) :
    (commandSystem couple).RunWhere C [] emptyServer :=
  .init ⟨rfl, rfl, rfl, rfl, fun _ => rfl⟩

/-- A party survives a restart, and a character is invited to it and joins. -/
theorem invitations_of_run_couple : ∃ h w, (commandSystem couple).RunWhere (CarefulCommand couple) h w ∧
    InvitationsHold couple h w ∧ (outstanding couple h).length = 1 ∧
      (w.getPartyInfo 1).map (·.vMemberNameList.length) = some 2 := by
  let cs : List (Command Nat) := [.party (.login 0 0 10), .party (.login 1 1 11), .party (.onCreateParty 10 7 99),
    .party (.save 10), .party .restart, .party (.login 0 0 12), .party (.login 1 1 13), .onInviteParty 12 1,
    .onJoinParty 13 (intText 1 ++ ' ' :: intText 0)]
  have hex : ((System.exec (CarefulCommand couple) (run couple) cs [] emptyServer).map
      fun x => ((outstanding couple x.1).length, (x.2.getPartyInfo 1).map (·.vMemberNameList.length))) =
        some (1, some 2) := by decide +kernel
  obtain ⟨⟨h, w⟩, hrun, hend⟩ := Option.map_eq_some_iff.mp hex
  obtain ⟨hsent, hmembers⟩ := Prod.mk.inj hend
  have hr := System.run_exec cs (run_couple _) hrun
  exact ⟨h, w, hr, (invitations_of_run hr).1, hsent, hmembers⟩

/-- Half of all passwords are too large for `std::stoi`. -/
theorem not_invitationsHold : ¬ ∀ (h : History (State Nat) (Command Nat)) (w : State Nat),
    (commandSystem couple).Run h w → InvitationsHold couple h w := by
  intro hall
  let cs : List (Command Nat) := [.party (.login 0 0 10), .party (.login 1 1 11),
    .party (.onCreateParty 10 7 (2 ^ 31)), .onInviteParty 10 1]
  have hex : ((System.exec (fun _ _ _ => True) (run couple) cs [] emptyServer).map
      fun x => (outstanding couple x.1, (x.2.getPartyInfo 1).map (·.vMemberNameList.length),
        (x.2.onJoinPartyText ⟨11, 1, 1, 0⟩ (intText 1 ++ ' ' :: intText (2 ^ 31))).isSome)) =
      some ([(1, ⟨intText 1, intText (2 ^ 31)⟩)], some 1, false) := by decide +kernel
  obtain ⟨⟨h, w⟩, hrun, hend⟩ := Option.map_eq_some_iff.mp hex
  simp only [Prod.mk.injEq] at hend
  obtain ⟨hsent, hmembers, hnone⟩ := hend
  have hr : (commandSystem couple).Run h w := System.run_exec cs (run_couple _) hrun
  obtain ⟨info, hi, haccept⟩ := (hall h w hr).accepted _ (hsent ▸ List.mem_singleton_self _)
  rw [hi, Option.map_some, Option.some.injEq] at hmembers
  obtain ⟨w', -, hjoin⟩ := haccept (by omega) ⟨11, 1, 1, 0⟩ rfl
  rw [hjoin] at hnone
  cases hnone

end GroupManager

end RZEmulator.Chihiro
