import RZEmulator.Chihiro.PartyChange

/-!
# Runs of the parties

Login, logout, saving and a restart leave the party of every character as it is. Login and logout
change the tags that bear the player's name, which is one tag of his own party and no other; a restart
builds the member lists from the column `party_id`.
-/

namespace RZEmulator.Chihiro.GroupManager

open Lib State

variable {N : Type} {chars : Characters N} {w w' : State N} {p : Player N}

/-- A player whose handle is not in use. -/
theorem handle_ne_of_player_eq_none {h : Nat} (hnone : w.player h = none) (q : Player N)
    (hq : q ∈ w.players) : q.handle ≠ h := by
  intro he
  exact List.find?_eq_none.mp hnone q hq (decide_eq_true he)

/-- The tags of one character are changed. -/
theorem PartyOk.mapTags {id : Int} {info : PartyInfo N} (hold : PartyOk chars w id info) {sid : Nat}
    (hle : w.m_nMaxPartyID ≤ w'.m_nMaxPartyID) (hptr : ∀ s, s ≠ sid → w'.pointer s = w.pointer s)
    (hparty : ∀ s, w'.partyOf s = w.partyOf s) {g : PartyMemberTag N → PartyMemberTag N}
    (hsame : ∀ tag, (g tag).sid = tag.sid ∧ (g tag).strName = tag.strName)
    (hself : ∀ tag ∈ info.vMemberNameList, tag.sid = sid →
      (g tag).pPlayer = w'.pointer sid ∧ (g tag).bIsOnline = (w'.pointer sid).isSome)
    (hothers : ∀ tag ∈ info.vMemberNameList, tag.sid ≠ sid → g tag = tag) :
    PartyOk chars w' id { info with vMemberNameList := info.vMemberNameList.map g } where
  pos := hold.pos
  le := Int.le_trans hold.le (Int.ofNat_le.mpr hle)
  tag := by
    intro tag' ht'
    obtain ⟨tag, ht, rfl⟩ := List.mem_map.mp ht'
    obtain ⟨htsid, htname, hpPlayer, hbIsOnline⟩ := hold.tag tag ht
    refine ⟨by rwa [(hsame tag).1], by rw [(hsame tag).1, (hsame tag).2]; exact htname, ?_, ?_⟩
    · rw [(hsame tag).1]
      by_cases hs : tag.sid = sid
      · rw [(hself tag ht hs).1, hs]
      · rw [hothers tag ht hs, hpPlayer, hptr _ hs]
    · rw [(hsame tag).1]
      by_cases hs : tag.sid = sid
      · rw [(hself tag ht hs).2, hs]
      · rw [hothers tag ht hs, hbIsOnline, hptr _ hs]
  partyOf := by
    intro tag' ht'
    obtain ⟨tag, ht, rfl⟩ := List.mem_map.mp ht'
    rw [(hsame tag).1, hparty]
    exact hold.partyOf tag ht
  nodup := by
    have hsids : (info.vMemberNameList.map g).map (·.sid) = info.vMemberNameList.map (·.sid) := by
      rw [List.map_map]
      exact List.map_congr_left fun tag _ => (hsame tag).1
    rw [hsids]
    exact hold.nodup
  size := by
    rw [List.length_map]
    exact hold.size
  leader := by
    obtain ⟨leader, hl, hlsid, hlname⟩ := hold.leader
    exact ⟨g leader, List.mem_map_of_mem hl, (hsame leader).1.trans hlsid, (hsame leader).2.trans hlname⟩

namespace Consistent

/-! ## Login and logout -/

/-- The players change by one character that is in no party. -/
theorem repointed (hw : Consistent chars w) {sid : Nat} (hplayers : PlayersOk chars w'.players)
    (hmap : w'.m_hshPartyID = w.m_hshPartyID) (hmax : w'.m_nMaxPartyID = w.m_nMaxPartyID)
    (htable : w'.Party = w.Party) (hptr : ∀ s, s ≠ sid → w'.pointer s = w.pointer s)
    (hparty : ∀ s, w'.partyOf s = w.partyOf s) (hzero : w.partyOf sid = 0) : Consistent chars w' := by
  have hinfo : ∀ id, w'.getPartyInfo id = w.getPartyInfo id := fun id => by
    unfold State.getPartyInfo
    rw [hmap]
  refine ⟨hplayers, fun id info hi => ?_, fun s hs hne => ?_, fun id => ?_⟩
  · rw [hinfo] at hi
    exact (hw.party id info hi).mono (Nat.le_of_eq hmax.symm)
      (fun tag ht => hptr _ (hw.not_listed hzero hi ht)) fun tag _ => hparty tag.sid
  · rw [hparty] at hne ⊢
    rw [hinfo]
    exact hw.listed s hs hne
  · rw [htable, hinfo]
    exact hw.row id

/-- Among the members of a party the name is that of the one character. -/
theorem named_iff (hw : Consistent chars w) {sid : Nat} (hsid : sid ∈ chars.sids) {name : N}
    (hname : chars.iequals name (chars.name sid) = true) {id : Int} {info : PartyInfo N} (hi : w.getPartyInfo id = some info)
    {tag : PartyMemberTag N} (ht : tag ∈ info.vMemberNameList) : chars.iequals tag.strName name = true ↔ tag.sid = sid := by
  have hiff := ((hw.party id info hi).tag tag ht).iequals_iff (p := ⟨0, sid, name, 0⟩) ⟨hsid, hname⟩
  exact ⟨fun h => hiff.mp (chars.iequals_symm _ _ h), fun h => chars.iequals_symm _ _ (hiff.mpr h)⟩

/-- The members of one party get new tags, and the party keeps its name and its leader. -/
theorem retagged (hw : Consistent chars w) {sid : Nat} (hplayers : PlayersOk chars w'.players)
    (hmap : w'.m_hshPartyID = w.m_hshPartyID) (hmax : w'.m_nMaxPartyID = w.m_nMaxPartyID)
    (htable : w'.Party = w.Party) (hptr : ∀ s, s ≠ sid → w'.pointer s = w.pointer s)
    (hparty : ∀ s, w'.partyOf s = w.partyOf s) {info : PartyInfo N} (hi : w.getPartyInfo (w.partyOf sid) = some info)
    {g : PartyMemberTag N → PartyMemberTag N} (hgsid : ∀ tag, (g tag).sid = tag.sid ∧ (g tag).strName = tag.strName)
    (hself : ∀ tag ∈ info.vMemberNameList, tag.sid = sid → (g tag).pPlayer = w'.pointer sid ∧
      (g tag).bIsOnline = (w'.pointer sid).isSome)
    (hothers : ∀ tag ∈ info.vMemberNameList, tag.sid ≠ sid → g tag = tag) :
    Consistent chars (w'.setPartyInfo (w.partyOf sid) { info with vMemberNameList := info.vMemberNameList.map g }) := by
  have hold := hw.party _ info hi
  set id := w.partyOf sid with hid
  set info' : PartyInfo N := { info with vMemberNameList := info.vMemberNameList.map g } with hinfo'
  set v := w'.setPartyInfo id info' with hv
  have hnew : v.getPartyInfo id = some info' := getPartyInfo_setPartyInfo id info'
  have hother : ∀ id', id' ≠ id → v.getPartyInfo id' = w.getPartyInfo id' := by
    intro id' hne
    refine (getPartyInfo_setPartyInfo_ne hne info').trans ?_
    unfold State.getPartyInfo
    rw [hmap]
  have hle : w.m_nMaxPartyID ≤ w'.m_nMaxPartyID := Nat.le_of_eq hmax.symm
  have hvptr : ∀ s, v.pointer s = w'.pointer s := fun _ => rfl
  have hvparty : ∀ s, v.partyOf s = w.partyOf s := hparty
  refine ⟨hplayers, fun id' info₀ hi₀ => ?_, fun s hs hne => ?_, fun id' => ?_⟩
  · by_cases hne : id' = id
    · subst hne
      obtain rfl := Option.some.inj (hnew.symm.trans hi₀)
      exact @PartyOk.mapTags _ _ w v _ _ hold sid hle hptr hvparty g hgsid hself hothers
    · rw [hother id' hne] at hi₀
      have hok := hw.party id' info₀ hi₀
      refine hok.mono hle (fun tag ht => ?_) fun tag _ => hvparty tag.sid
      refine (hvptr tag.sid).trans (hptr _ ?_)
      rintro rfl
      exact hne (hok.partyOf tag ht).symm
  · rw [hvparty] at hne ⊢
    obtain ⟨info₀, hi₀, tag, ht, htag⟩ := hw.listed s hs hne
    by_cases hs' : w.partyOf s = id
    · rw [hs'] at hi₀ ⊢
      obtain rfl := Option.some.inj (hi.symm.trans hi₀)
      exact ⟨info', hnew, g tag, List.mem_map_of_mem ht, (hgsid tag).1.trans htag⟩
    · exact ⟨info₀, (hother _ hs').trans hi₀, tag, ht, htag⟩
  · exact (congrArg _ htable).trans (hw.row_replaced hi hnew ⟨rfl, rfl⟩ hother id')

/-- The players change by the one of the character `sid`, and the tag of that character follows. -/
theorem retag (hw : Consistent chars w) {sid : Nat} (hsid : sid ∈ chars.sids) {name : N}
    (hname : chars.iequals name (chars.name sid) = true) (hplayers : PlayersOk chars w'.players)
    (hmap : w'.m_hshPartyID = w.m_hshPartyID) (hmax : w'.m_nMaxPartyID = w.m_nMaxPartyID)
    (htable : w'.Party = w.Party) (hptr : ∀ s, s ≠ sid → w'.pointer s = w.pointer s)
    (hparty : ∀ s, w'.partyOf s = w.partyOf s) {f : PartyMemberTag N → PartyMemberTag N}
    (hf : ∀ tag, (f tag).sid = tag.sid ∧ (f tag).strName = tag.strName ∧
      (f tag).pPlayer = w'.pointer sid ∧ (f tag).bIsOnline = (w'.pointer sid).isSome) :
    Consistent chars
      (if w.partyOf sid ≠ 0 then w'.retag chars (w.partyOf sid) name f else w') := by
  by_cases hzero : w.partyOf sid = 0
  · rw [if_neg (not_not.mpr hzero)]
    exact hw.repointed hplayers hmap hmax htable hptr hparty hzero
  rw [if_pos hzero]
  obtain ⟨info, hi, -⟩ := hw.listed sid hsid hzero
  have hi' : w'.getPartyInfo (w.partyOf sid) = some info := by
    unfold State.getPartyInfo at hi ⊢
    rw [hmap, hi]
  unfold State.retag
  rw [hi']
  refine hw.retagged hplayers hmap hmax htable hptr hparty hi (fun tag => ?_) (fun tag ht hs => ?_) fun tag ht hs => ?_
  · split_ifs
    · exact ⟨(hf tag).1, (hf tag).2.1⟩
    · exact ⟨rfl, rfl⟩
  · rw [if_pos ((hw.named_iff hsid hname hi ht).mpr hs)]
    exact (hf tag).2.2
  · exact if_neg (mt (hw.named_iff hsid hname hi ht).mp hs)

/-- A character that is not logged in logs in. -/
theorem login (hw : Consistent chars w) {sid : Nat} {szName : N} {h : Nat}
    (hnone : w.player h = none) (hout : ∀ q ∈ w.players, q.sid ≠ sid) :
    Consistent chars (w.login chars sid szName h) := by
  unfold State.login
  by_cases hfound : sid ∈ chars.sids ∧ chars.iequals szName (chars.name sid) = true
  swap
  · rw [if_neg hfound]
    exact hw
  rw [if_pos hfound]
  obtain ⟨hsid, hname⟩ := hfound
  dsimp only
  set p : Player N := ⟨h, sid, szName, w.party_id sid⟩ with hp
  set w₁ : State N := { w with players := p :: w.players } with hw₁
  have hoffline : w.online sid = none := find?_key_eq_none_iff.mpr hout
  have honline : ∀ s, w₁.online s = if s = sid then some p else w.online s := by
    intro s
    show List.find? _ (p :: w.players) = _
    rw [List.find?_cons]
    by_cases hs : s = sid
    · simp [hp, hs]
    · simp [hp, hs, Ne.symm hs, State.online]
  have hpartyOf : w.partyOf sid = w.party_id sid := by
    unfold State.partyOf
    rw [hoffline]
    rfl
  have hplayers : PlayersOk chars w₁.players := by
    refine ⟨List.nodup_cons.mpr ⟨fun hmem => ?_, hw.handles⟩,
      List.nodup_cons.mpr ⟨fun hmem => ?_, hw.sids⟩, fun q hq => ?_⟩
    · obtain ⟨q, hq, hqh⟩ := List.mem_map.mp hmem
      exact handle_ne_of_player_eq_none hnone q hq hqh
    · obtain ⟨q, hq, hqs⟩ := List.mem_map.mp hmem
      exact hout q hq hqs
    · rcases List.mem_cons.mp hq with rfl | hq
      · exact ⟨hsid, hname⟩
      · exact hw.known q hq
  have hpointer : w₁.pointer sid = some h := by
    unfold State.pointer
    rw [honline, if_pos rfl]
    rfl
  rw [← hpartyOf]
  refine hw.retag hsid hname hplayers rfl rfl rfl (fun s hs => ?_) (fun s => ?_) fun tag => ?_
  · unfold State.pointer
    rw [honline, if_neg hs]
  · unfold State.partyOf
    rw [honline]
    by_cases hs : s = sid
    · rw [if_pos hs, hs, hoffline]
      rfl
    · rw [if_neg hs]
  · exact ⟨rfl, rfl, hpointer.symm, by rw [hpointer]; rfl⟩

/-- Saving writes to the database what the player belongs to anyway. -/
theorem partyOf_save (hw : Consistent chars w) (hp : p ∈ w.players) (sid : Nat) :
    (w.save p).partyOf sid = w.partyOf sid := by
  show ((w.online sid).map _).getD (if sid = p.sid then p.partyID else w.party_id sid) =
    ((w.online sid).map _).getD (w.party_id sid)
  by_cases hs : sid = p.sid
  · rw [hs, online_of_mem hw.sids hp]
    rfl
  · rw [if_neg hs]

theorem save (hw : Consistent chars w) (hp : p ∈ w.players) : Consistent chars (w.save p) := by
  refine ⟨hw.toPlayersOk, fun id info hi => ?_, fun sid hsid hne => ?_, hw.row⟩
  · exact (hw.party id info hi).mono (Nat.le_refl _) (fun _ _ => rfl)
      fun tag _ => hw.partyOf_save hp tag.sid
  · rw [hw.partyOf_save hp] at hne ⊢
    exact hw.listed sid hsid hne

/-- A player is saved and logs out. -/
theorem logout (hw : Consistent chars w) (hp : p ∈ w.players) :
    Consistent chars (w.logout chars p) := by
  have hparty := partyOf_of_mem hw.sids hp
  set w₁ : State N := { w.save p with
    players := w.players.filter fun q => decide (q.handle ≠ p.handle) } with hw₁
  have hmem : ∀ q, q ∈ w₁.players ↔ q ∈ w.players ∧ q ≠ p := by
    intro q
    rw [hw₁, List.mem_filter, decide_eq_true_iff]
    refine and_congr_right fun hq => not_congr ⟨fun he => ?_, fun he => he ▸ rfl⟩
    exact List.inj_on_of_nodup_map hw.handles hq hp he
  have hsub : w₁.players.Sublist w.players := List.filter_sublist
  have hplayers : PlayersOk chars w₁.players :=
    ⟨(hsub.map _).nodup hw.handles, (hsub.map _).nodup hw.sids,
      fun q hq => hw.known q (hsub.subset hq)⟩
  have honline : ∀ s, w₁.online s = if s = p.sid then none else w.online s := by
    intro s
    by_cases hs : s = p.sid
    · rw [if_pos hs, hs]
      refine find?_key_eq_none_iff.mpr fun q hq he => ?_
      obtain ⟨hq, hne⟩ := (hmem q).mp hq
      exact hne (List.inj_on_of_nodup_map hw.sids hq hp he)
    · rw [if_neg hs]
      refine find?_key_congr hw.sids hplayers.sids fun q hq => (hmem q).trans ?_
      exact and_iff_left fun he => hs (by rw [← hq, he])
  have hout : w.logout chars p =
      if w.partyOf p.sid ≠ 0 then w₁.retag chars (w.partyOf p.sid) p.name
        ({ · with bIsOnline := false, pPlayer := none }) else w₁ := by
    rw [hparty]
    unfold State.logout
    dsimp only
    split_ifs
    · unfold onLogout State.retag
      show State.mk _ _ _ _ _ = _
      have hi : (w.save p).getPartyInfo p.partyID = w₁.getPartyInfo p.partyID := rfl
      rw [hi]
      cases w₁.getPartyInfo p.partyID with
      | none => rfl
      | some info => rfl
    · rfl
  rw [hout]
  have hpointer : w₁.pointer p.sid = none := by
    unfold State.pointer
    rw [honline, if_pos rfl]
    rfl
  refine hw.retag (hw.known p hp).1 (hw.known p hp).2 hplayers rfl rfl rfl (fun s hs => ?_)
    (fun s => ?_) fun tag => ⟨rfl, rfl, hpointer.symm, by rw [hpointer]; rfl⟩
  · unfold State.pointer
    rw [honline, if_neg hs]
  · rw [← hw.partyOf_save hp s]
    show ((w₁.online s).map _).getD (if s = p.sid then p.partyID else w.party_id s) =
      ((w.online s).map _).getD (if s = p.sid then p.partyID else w.party_id s)
    rw [honline]
    by_cases hs : s = p.sid
    · rw [if_pos hs, if_pos hs, hs, online_of_mem hw.sids hp]
      rfl
    · rw [if_neg hs, if_neg hs]

/-! ## Restart -/

/-- The members that are loaded are those that were listed. -/
theorem mem_loaded (hw : Consistent chars w) (hpartyOf : ∀ sid, w.partyOf sid = w.party_id sid) {id : Int}
    {info : PartyInfo N} (hi : w.getPartyInfo id = some info) (sid : Nat) :
    sid ∈ chars.sids.filter (fun sid => decide (w.party_id sid = id)) ↔
      ∃ tag ∈ info.vMemberNameList, tag.sid = sid := by
  have hok := hw.party id info hi
  rw [List.mem_filter, decide_eq_true_iff, ← hpartyOf]
  constructor
  · rintro ⟨hsid, rfl⟩
    obtain ⟨info₀, hi₀, hlisted⟩ := hw.listed sid hsid fun hz => absurd hok.pos (by rw [hz]; decide)
    obtain rfl := Option.some.inj (hi.symm.trans hi₀)
    exact hlisted
  · rintro ⟨tag, ht, rfl⟩
    exact ⟨(hok.tag tag ht).sid, hok.partyOf tag ht⟩

section

variable [Inhabited N]

theorem getPartyInfo_initGroupSystem (w : State N) (id : Int) :
    (w.initGroupSystem chars).getPartyInfo id =
      (w.Party.lookup id).map (w.loadPartyInfo chars id) := by
  refine (lookup_foldl_insert _ w.Party.nodupKeys ∅).trans ?_
  exact Option.or_none

/-- A party that is loaded from the database, with nobody online. -/
theorem partyOk_loaded (hw : Consistent chars w) (hpartyOf : ∀ sid, w.partyOf sid = w.party_id sid) {id : Int}
    {info : PartyInfo N} (hi : w.getPartyInfo id = some info) (hkey : id ∈ w.Party.keys) :
    PartyOk chars (w.initGroupSystem chars) id (w.loadPartyInfo chars id ⟨info.strPartyName, info.nLeaderSID⟩) := by
  have hok := hw.party id info hi
  have hsids := hw.mem_loaded hpartyOf hi
  set sids := chars.sids.filter fun sid => decide (w.party_id sid = id) with hsidsdef
  have hnodup : sids.Nodup := chars.nodup.filter _
  have hmap : (w.loadPartyInfo chars id ⟨info.strPartyName, info.nLeaderSID⟩).vMemberNameList.map
      (·.sid) = sids := by
    show (sids.map _).map _ = sids
    rw [List.map_map]
    exact List.map_id'' (fun _ => rfl) sids
  refine ⟨hok.pos, ?_, fun tag ht => ?_, fun tag ht => ?_, by rw [hmap]; exact hnodup, ?_, ?_⟩
  · have hle := le_foldr_max (f := Int.toNat) hkey
    have hpos := hok.pos
    show id ≤ ((w.Party.keys.foldr (fun sid m => max sid.toNat m) 0 : Nat) : Int)
    omega
  · obtain ⟨sid, hsid, rfl⟩ := List.mem_map.mp ht
    obtain ⟨old, hold, rfl⟩ := (hsids sid).mp hsid
    have hname := (hok.tag old hold).name
    exact ⟨(hok.tag old hold).sid, chars.iequals_trans _ _ _ (chars.iequals_symm _ _ hname) hname,
      rfl, rfl⟩
  · obtain ⟨sid, hsid, rfl⟩ := List.mem_map.mp ht
    exact of_decide_eq_true (List.mem_filter.mp hsid).2
  · rw [← List.length_map (·.sid), hmap]
    have hsub : sids ⊆ info.vMemberNameList.map (·.sid) := fun sid hsid => by
      obtain ⟨tag, ht, rfl⟩ := (hsids sid).mp hsid
      exact List.mem_map_of_mem ht
    have hlength := (List.subperm_of_subset hnodup hsub).length_le
    rw [List.length_map] at hlength
    exact Nat.le_trans hlength hok.size
  · obtain ⟨leader, hl, hlsid, -⟩ := hok.leader
    have hin : info.nLeaderSID ∈ sids := (hsids _).mpr ⟨leader, hl, hlsid⟩
    exact ⟨_, List.mem_map_of_mem hin, rfl, (if_pos hin).symm⟩

/-- The server starts again, when all players have been saved. -/
theorem restart (hw : Consistent chars w) (hsaved : ∀ p ∈ w.players, w.party_id p.sid = p.partyID) :
    Consistent chars (w.initGroupSystem chars) := by
  have hpartyOf : ∀ sid, w.partyOf sid = w.party_id sid := by
    intro sid
    unfold State.partyOf
    cases hq : w.online sid with
    | none => rfl
    | some q =>
      obtain ⟨hmem, rfl⟩ := (online_eq_some_iff hw.sids).mp hq
      exact (hsaved q hmem).symm
  refine ⟨⟨List.nodup_nil, List.nodup_nil, nofun⟩, fun id info' hi' => ?_, fun sid hsid hne => ?_,
    fun id => ?_⟩
  · rw [getPartyInfo_initGroupSystem] at hi'
    obtain ⟨row, hrow, rfl⟩ := Option.map_eq_some_iff.mp hi'
    obtain ⟨info, hi, rfl⟩ := Option.map_eq_some_iff.mp ((hw.row id).symm.trans hrow)
    exact hw.partyOk_loaded hpartyOf hi (AList.lookup_isSome.mp (by rw [hrow]; rfl))
  · have hsame : (w.initGroupSystem chars).partyOf sid = w.partyOf sid := (hpartyOf sid).symm
    rw [hsame] at hne ⊢
    obtain ⟨info, hi, hlisted⟩ := hw.listed sid hsid hne
    refine ⟨w.loadPartyInfo chars (w.partyOf sid) ⟨info.strPartyName, info.nLeaderSID⟩, ?_, ?_⟩
    · rw [getPartyInfo_initGroupSystem, hw.row, hi]
      rfl
    · exact ⟨_, List.mem_map_of_mem ((hw.mem_loaded hpartyOf hi sid).mpr hlisted), rfl⟩
  · rw [getPartyInfo_initGroupSystem, Option.map_map]
    show w.Party.lookup id = _
    exact Option.map_id'.symm

end

end Consistent

/-! ## The run -/

variable [DecidableEq N] [Inhabited N]

/-- A character logs in only while it is not logged in; a party is destroyed only while all its members
are online; the server stops only when the party of every player who is logged in has been saved; and
the party numbers have not run out. -/
def Careful (w : State N) : Event N → Prop
  | .login sid _ _ => ∀ q ∈ w.players, q.sid ≠ sid
  | .onCreateParty _ _ _ => w.m_nMaxPartyID + 1 < 2 ^ 31
  | .onPartyDestroy h => ∀ p ∈ w.player h, w.isLeader p.partyID p.name = true →
    ∀ info ∈ w.getPartyInfo p.partyID, ∀ tag ∈ info.vMemberNameList, tag.bIsOnline = true
  | .restart => ∀ p ∈ w.players, w.party_id p.sid = p.partyID
  | _ => True

/-- **Step**: a careful event keeps the invariant. -/
theorem Consistent.step (hw : Consistent chars w) {e : Event N} (he : Careful w e)
    (hstep : step chars w e = some w') : Consistent chars w' := by
  have hmem : ∀ h p, w.player h = some p → p ∈ w.players := fun h p hp =>
    ((player_eq_some_iff hw.handles).mp hp).1
  cases e with
  | login sid szName h =>
    unfold GroupManager.step at hstep
    dsimp only at hstep
    split_ifs at hstep with hused
    obtain rfl := Option.some.inj hstep
    exact hw.login (Option.not_isSome_iff_eq_none.mp hused) he
  | logout h =>
    obtain ⟨p, hp, rfl⟩ := Option.map_eq_some_iff.mp hstep
    exact hw.logout (hmem h p hp)
  | save h =>
    obtain ⟨p, hp, rfl⟩ := Option.map_eq_some_iff.mp hstep
    exact hw.save (hmem h p hp)
  | onCreateParty h partyName password =>
    obtain ⟨p, hp, rfl⟩ := Option.map_eq_some_iff.mp hstep
    exact hw.onCreateParty (hmem h p hp) he partyName password
  | onJoinParty h partyID partyPW =>
    obtain ⟨p, hp, rfl⟩ := Option.map_eq_some_iff.mp hstep
    unfold onJoinParty
    by_cases hfree : p.partyID = 0
    · rw [if_neg (not_not.mpr hfree)]
      cases hjoin : w.joinParty partyID p partyPW with
      | none => exact hw
      | some w₁ => exact hw.joinParty (hmem h p hp) hfree hjoin
    · rw [if_pos hfree]
      exact hw
  | onPartyDestroy h =>
    obtain ⟨p, hp, rfl⟩ := Option.map_eq_some_iff.mp hstep
    exact hw.onPartyDestroy (he p hp)
  | onLeaveParty h =>
    obtain ⟨p, hp, rfl⟩ := Option.map_eq_some_iff.mp hstep
    exact hw.onLeaveParty (hmem h p hp)
  | restart =>
    obtain rfl := Option.some.inj hstep
    exact hw.restart he

omit [DecidableEq N] [Inhabited N] in
theorem Init.consistent (hw : Init w) : Consistent chars w := by
  obtain ⟨hplayers, hparties, htable, -, hzero⟩ := hw
  have hnone : ∀ id, w.getPartyInfo id = none := fun id => by
    unfold State.getPartyInfo
    rw [hparties]
    exact AList.lookup_empty id
  have hparty : ∀ sid, w.partyOf sid = 0 := fun sid => by
    unfold partyOf online
    rw [hplayers]
    exact hzero sid
  refine ⟨⟨by rw [hplayers]; exact List.nodup_nil, by rw [hplayers]; exact List.nodup_nil,
    fun p hp => ?_⟩, fun id info hi => ?_, fun sid _ hne => absurd (hparty sid) hne, fun id => ?_⟩
  · rw [hplayers] at hp
    cases hp
  · rw [hnone] at hi
    cases hi
  · rw [hnone, htable]
    exact AList.lookup_empty id

/-- **The parties are in order in every state of a careful run.** -/
theorem partiesOk_of_run {hist : History (State N) (Event N)}
    (hrun : (system chars).RunWhere (fun _ w e => Careful w e) hist w) : w.PartiesOk := by
  have hw : Consistent chars w := by
    refine hrun.invariant (I := fun _ w => Consistent chars w) (fun w (hw : Init w) => hw.consistent) ?_
    intro _ w e w' _ hw he hstep
    exact hw.step he hstep
  exact hw.partiesOk

/-! ## Two characters -/

instance (w : State N) : (e : Event N) → Decidable (Careful w e)
  | .login sid _ _ => inferInstanceAs (Decidable (∀ q ∈ w.players, q.sid ≠ sid))
  | .logout _ => .isTrue trivial
  | .save _ => .isTrue trivial
  | .onCreateParty _ _ _ => inferInstanceAs (Decidable (w.m_nMaxPartyID + 1 < 2 ^ 31))
  | .onJoinParty _ _ _ => .isTrue trivial
  | .onPartyDestroy h => inferInstanceAs (Decidable (∀ p ∈ w.player h,
      w.isLeader p.partyID p.name = true → ∀ info ∈ w.getPartyInfo p.partyID,
        ∀ tag ∈ info.vMemberNameList, tag.bIsOnline = true))
  | .onLeaveParty _ => .isTrue trivial
  | .restart => inferInstanceAs (Decidable (∀ p ∈ w.players, w.party_id p.sid = p.partyID))

/-- Two characters, whose names are numbers. -/
def couple : Characters Nat where
  sids := [0, 1]
  nodup := by decide
  name := id
  iequals a b := decide (a = b)
  iequals_symm a b h := decide_eq_true (of_decide_eq_true h).symm
  iequals_trans a b c hab hbc := decide_eq_true ((of_decide_eq_true hab).trans (of_decide_eq_true hbc))
  distinct _ _ _ _ h := of_decide_eq_true h

def emptyServer : State Nat := ⟨0, ∅, [], ∅, fun _ => 0⟩

theorem run_emptyServer (C : History _ _ → State Nat → Event Nat → Prop) :
    (system couple).RunWhere C [] emptyServer :=
  .init ⟨rfl, rfl, rfl, rfl, fun _ => rfl⟩

/-- A party is created and joined; it survives a restart, and a member leaves and comes back. -/
theorem partiesOk_of_run_couple : ∃ hist w,
    (system couple).RunWhere (fun _ w e => Careful w e) hist w ∧ w.PartiesOk ∧
      (w.getPartyInfo 1).map (·.vMemberNameList.length) = some 2 := by
  let es : List (Event Nat) := [.login 0 0 10, .login 1 1 11, .onCreateParty 10 7 99,
    .onJoinParty 11 1 99, .logout 11, .save 10, .restart, .login 1 1 12, .onLeaveParty 12,
    .login 0 0 13, .onJoinParty 12 1 0]
  have hex : ((System.exec (fun _ w e => Careful w e) (step couple) es [] emptyServer).map
      fun x => (x.2.getPartyInfo 1).map (·.vMemberNameList.length)) = some (some 2) := by
    decide +kernel
  obtain ⟨⟨hist, w⟩, hrun, hend⟩ := Option.map_eq_some_iff.mp hex
  have hr := System.run_exec es (run_emptyServer _) hrun
  exact ⟨hist, w, hr, partiesOk_of_run hr, hend⟩

/-- A member is logged out while the party is destroyed. When he comes back his party does not exist. -/
theorem not_partiesOk_destroyed : ∃ hist w, (system couple).Run hist w ∧ ¬w.PartiesOk := by
  let es : List (Event Nat) := [.login 0 0 10, .login 1 1 11, .onCreateParty 10 7 99,
    .onJoinParty 11 1 99, .logout 11, .onPartyDestroy 10, .login 1 1 12]
  have hex : ((System.exec (fun _ _ _ => True) (step couple) es [] emptyServer).map
      fun x => ((x.2.player 12).map (·.partyID), (x.2.getPartyInfo 1).isSome)) =
        some (some 1, false) := by
    decide +kernel
  obtain ⟨⟨hist, w⟩, hrun, hend⟩ := Option.map_eq_some_iff.mp hex
  obtain ⟨hplayer, hgone⟩ := Prod.mk.inj hend
  obtain ⟨p, hp, hparty⟩ := Option.map_eq_some_iff.mp hplayer
  refine ⟨hist, w, System.run_exec es (run_emptyServer _) hrun, fun hok => ?_⟩
  rcases hok.own p (List.mem_of_find?_eq_some hp) with hzero | ⟨info, hi, -⟩
  · rw [hparty] at hzero
    cases hzero
  · rw [hparty] at hi
    rw [hi] at hgone
    cases hgone

end RZEmulator.Chihiro.GroupManager
