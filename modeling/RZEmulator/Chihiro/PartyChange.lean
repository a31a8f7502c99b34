import RZEmulator.Chihiro.PartyMembership

/-!
# Changes of a party

A player joins a party, creates one, leaves one, or destroys one. Each of these changes the party of some
characters together with the member list, and keeps the invariant. Joining and creating have one shape:
a player who was in no party is now a member of a party that has at most changed by this.
-/

namespace RZEmulator.Chihiro.GroupManager

open Lib State

variable {N : Type} {chars : Characters N} {w w' : State N} {p : Player N} {id : Int}

/-- The name of a member is that of a player exactly if he is the player's character. -/
theorem TagOk.iequals_iff {tag : PartyMemberTag N} (ht : TagOk chars w tag)
    (hp : p.sid ∈ chars.sids ∧ chars.iequals p.name (chars.name p.sid) = true) :
    chars.iequals p.name tag.strName = true ↔ tag.sid = p.sid := by
  constructor
  · intro h
    have hnames := chars.iequals_trans _ _ _ (chars.iequals_symm _ _ hp.2)
      (chars.iequals_trans _ _ _ h ht.name)
    exact (chars.distinct _ hp.1 _ ht.sid hnames).symm
  · intro h
    have hname := ht.name
    rw [h] at hname
    exact chars.iequals_trans _ _ _ hp.2 (chars.iequals_symm _ _ hname)

/-- A party with one member more. -/
theorem PartyOk.append {info : PartyInfo N} (hold : PartyOk chars w id info) {tag : PartyMemberTag N}
    (hmax : w.m_nMaxPartyID ≤ w'.m_nMaxPartyID) (hptr : ∀ sid, w'.pointer sid = w.pointer sid)
    (hparty : ∀ tag' ∈ info.vMemberNameList, w'.partyOf tag'.sid = w.partyOf tag'.sid)
    (htag : TagOk chars w' tag) (hin : w'.partyOf tag.sid = id)
    (hnew : ∀ tag' ∈ info.vMemberNameList, tag'.sid ≠ tag.sid) (hroom : info.vMemberNameList.length < 8) :
    PartyOk chars w' id { info with vMemberNameList := info.vMemberNameList ++ [tag] } := by
  have hrest := hold.mono hmax (fun tag' _ => hptr tag'.sid) hparty
  refine ⟨hrest.pos, hrest.le, fun tag' ht' => ?_, fun tag' ht' => ?_, ?_, ?_, ?_⟩
  · rcases List.mem_append.mp ht' with ht' | ht'
    · exact hrest.tag tag' ht'
    · obtain rfl := List.mem_singleton.mp ht'
      exact htag
  · rcases List.mem_append.mp ht' with ht' | ht'
    · exact hrest.partyOf tag' ht'
    · obtain rfl := List.mem_singleton.mp ht'
      exact hin
  · rw [List.map_append, List.nodup_append]
    refine ⟨hrest.nodup, List.nodup_singleton _, ?_⟩
    intro sid hsid sid' hsid' heq
    obtain ⟨tag', ht', rfl⟩ := List.mem_map.mp hsid
    obtain rfl := List.mem_singleton.mp hsid'
    exact hnew tag' ht' heq
  · rw [List.length_append]
    exact Nat.succ_le_of_lt hroom
  · obtain ⟨leader, hl, hleader⟩ := hrest.leader
    exact ⟨leader, List.mem_append_left _ hl, hleader⟩

/-- A party without one of its members, who is not the leader. -/
theorem PartyOk.without {info : PartyInfo N} (hold : PartyOk chars w id info) {sid : Nat}
    (hmax : w.m_nMaxPartyID ≤ w'.m_nMaxPartyID) (hptr : ∀ s, w'.pointer s = w.pointer s)
    (hparty : ∀ tag ∈ info.vMemberNameList, tag.sid ≠ sid → w'.partyOf tag.sid = w.partyOf tag.sid)
    (hleader : ∀ tag ∈ info.vMemberNameList, ¬(tag.sid = sid ∧ tag.strName = info.strLeaderName)) :
    PartyOk chars w' id { info with
      vMemberNameList := info.vMemberNameList.filter fun tag => decide (tag.sid ≠ sid) } := by
  have hmem : ∀ tag, tag ∈ info.vMemberNameList.filter (fun tag => decide (tag.sid ≠ sid)) ↔
      tag ∈ info.vMemberNameList ∧ tag.sid ≠ sid := by
    intro tag
    rw [List.mem_filter, decide_eq_true_iff]
  refine ⟨hold.pos, Int.le_trans hold.le (Int.ofNat_le.mpr hmax), fun tag ht => ?_, fun tag ht => ?_,
    (List.filter_sublist.map _).nodup hold.nodup, Nat.le_trans (List.length_filter_le _ _) hold.size, ?_⟩
  · obtain ⟨hsid, hname, hpPlayer, hbIsOnline⟩ := hold.tag tag ((hmem tag).mp ht).1
    exact ⟨hsid, hname, by rw [hpPlayer, hptr], by rw [hbIsOnline, hptr]⟩
  · obtain ⟨ht, hne⟩ := (hmem tag).mp ht
    rw [hparty tag ht hne]
    exact hold.partyOf tag ht
  · obtain ⟨leader, hl, hsid, hname⟩ := hold.leader
    exact ⟨leader, (hmem leader).mpr ⟨hl, fun he => hleader leader hl ⟨he, hname⟩⟩, hsid, hname⟩

namespace Consistent

/-! ## Joining and creating -/

/-- A player who was in no party is in the party `id` now. -/
theorem enlist (hw : Consistent chars w) (hp : p ∈ w.players) (hfree : p.partyID = 0)
    (hplayers : w'.players = (w.setPartyID p.handle id).players) (hdb : w'.party_id = w.party_id)
    (hmax : w.m_nMaxPartyID ≤ w'.m_nMaxPartyID)
    (hother : ∀ id', id' ≠ id → w'.getPartyInfo id' = w.getPartyInfo id') {info' : PartyInfo N}
    (hinfo : w'.getPartyInfo id = some info') (hok : PartyOk chars w' id info')
    (hkeep : ∀ info, w.getPartyInfo id = some info → ∀ tag ∈ info.vMemberNameList,
      tag ∈ info'.vMemberNameList)
    (hmember : ∃ tag ∈ info'.vMemberNameList, tag.sid = p.sid)
    (hrow : ∀ id, w'.Party.lookup id =
      (w'.getPartyInfo id).map fun info => ⟨info.strPartyName, info.nLeaderSID⟩) :
    Consistent chars w' := by
  have hzero : w.partyOf p.sid = 0 := (partyOf_of_mem hw.sids hp).trans hfree
  have hptr : ∀ sid, w'.pointer sid = w.pointer sid := by
    intro sid
    rw [← pointer_setPartyID (w := w) p.handle id sid]
    unfold pointer online
    rw [hplayers]
  have hparty : ∀ sid, w'.partyOf sid = if sid = p.sid then id else w.partyOf sid := by
    intro sid
    rw [← partyOf_setPartyID hw.handles hw.sids hp id sid]
    unfold partyOf online
    rw [hplayers, hdb]
    rfl
  refine ⟨hplayers ▸ hw.toPlayersOk.map (samePlayer_ite id), fun id' info hi => ?_, fun sid hsid hne => ?_,
    hrow⟩
  · by_cases hid : id' = id
    · subst hid
      obtain rfl := Option.some.inj (hinfo.symm.trans hi)
      exact hok
    · rw [hother id' hid] at hi
      refine (hw.party id' info hi).mono hmax (fun tag _ => hptr tag.sid) fun tag ht => ?_
      rw [hparty, if_neg (hw.not_listed hzero hi ht)]
  · rw [hparty] at hne ⊢
    by_cases hs : sid = p.sid
    · rw [if_pos hs]
      obtain ⟨tag, ht, htag⟩ := hmember
      exact ⟨info', hinfo, tag, ht, htag.trans hs.symm⟩
    · rw [if_neg hs] at hne ⊢
      obtain ⟨info, hi, tag, ht, htag⟩ := hw.listed sid hsid hne
      by_cases hid : w.partyOf sid = id
      · rw [hid] at hi ⊢
        exact ⟨info', hinfo, tag, hkeep info hi tag ht, htag⟩
      · exact ⟨info, (hother _ hid).trans hi, tag, ht, htag⟩

/-- The tag of a player who joins. -/
theorem tagOk_new (hw : Consistent chars w) (hp : p ∈ w.players)
    (hptr : w'.pointer p.sid = w.pointer p.sid) :
    TagOk chars w' ⟨true, p.sid, p.name, some p.handle⟩ := by
  have hpointer : w.pointer p.sid = some p.handle := by
    unfold pointer
    rw [online_of_mem hw.sids hp]
    rfl
  rw [hpointer] at hptr
  exact ⟨(hw.known p hp).1, (hw.known p hp).2, hptr.symm, by rw [hptr]; rfl⟩

theorem joinParty (hw : Consistent chars w) (hp : p ∈ w.players) (hfree : p.partyID = 0)
    {nPass : Nat} (hjoin : w.joinParty id p nPass = some w') : Consistent chars w' := by
  obtain ⟨info, hi, hjoin⟩ := Option.bind_eq_some_iff.mp hjoin
  split_ifs at hjoin with hfull
  obtain rfl := Option.some.inj hjoin
  obtain ⟨hlt, -⟩ := not_or.mp hfull
  set tag : PartyMemberTag N := ⟨true, p.sid, p.name, some p.handle⟩ with htag
  set info' : PartyInfo N := { info with vMemberNameList := info.vMemberNameList ++ [tag] } with hinfo'
  have hold := hw.party id info hi
  have hzero : w.partyOf p.sid = 0 := (partyOf_of_mem hw.sids hp).trans hfree
  have hnew : ((w.setPartyInfo id info').setPartyID p.handle id).getPartyInfo id = some info' :=
    getPartyInfo_setPartyInfo id info'
  have hparty := @partyOf_setPartyID _ (w.setPartyInfo id info') hw.handles hw.sids p hp id
  refine hw.enlist hp hfree rfl rfl (Nat.le_refl _)
    (fun id' hne => getPartyInfo_setPartyInfo_ne hne info') hnew ?_ ?_ ?_ ?_
  · refine hold.append (Nat.le_refl _) (fun s => pointer_setPartyID p.handle id s) (fun tag' ht' => ?_)
      (hw.tagOk_new hp (pointer_setPartyID p.handle id p.sid)) ?_
      (fun tag' ht' => hw.not_listed hzero hi ht') (not_le.mp hlt)
    · rw [hparty]
      exact if_neg (hw.not_listed hzero hi ht')
    · rw [hparty]
      exact if_pos rfl
  · intro info₀ hi₀ tag' ht'
    obtain rfl := Option.some.inj (hi.symm.trans hi₀)
    exact List.mem_append_left _ ht'
  · exact ⟨tag, List.mem_append_right _ (List.mem_singleton.mpr rfl), rfl⟩
  · exact hw.row_replaced hi hnew ⟨rfl, rfl⟩ fun id' hne => getPartyInfo_setPartyInfo_ne hne info'

theorem setPartyID_twice (h : Nat) (v : Int) :
    ((w.setPartyID h v).setPartyID h v).players = (w.setPartyID h v).players := by
  unfold setPartyID
  dsimp only
  rw [List.map_map]
  refine List.map_congr_left fun q _ => ?_
  rw [Function.comp_apply]
  split_ifs <;> rfl

/-- The number of a new party is that of no party. -/
theorem getPartyInfo_fresh (hw : Consistent chars w) :
    w.getPartyInfo ((w.m_nMaxPartyID + 1 : Nat) : Int) = none := by
  cases h : w.getPartyInfo ((w.m_nMaxPartyID + 1 : Nat) : Int) with
  | none => rfl
  | some info =>
    have hle := Int.ofNat_le.mp (hw.party _ info h).le
    omega

/-- A player who was in no party creates one, whose only member he is. -/
theorem onCreateParty [DecidableEq N] (hw : Consistent chars w) (hp : p ∈ w.players)
    (hbound : w.m_nMaxPartyID + 1 < 2 ^ 31) (partyName : N) (password : Nat) :
    Consistent chars (w.onCreateParty p partyName password) := by
  unfold State.onCreateParty
  by_cases hfree : p.partyID = 0
  swap
  · rw [if_pos hfree]
    exact hw
  rw [if_neg (not_not.mpr hfree)]
  unfold State.createParty
  by_cases hname : (w.m_hshPartyID.entries.any fun party => party.2.strPartyName = partyName) = true
  · rw [if_pos hname]
    exact hw
  rw [if_neg hname]
  set n : Int := ((w.m_nMaxPartyID + 1 : Nat) : Int) with hn
  have hnarrow : narrow32 n = n := narrow32_eq_self ⟨by omega, by omega⟩
  set tag : PartyMemberTag N := ⟨true, p.sid, p.name, some p.handle⟩ with htag
  set w₁ : State N := { w with m_nMaxPartyID := w.m_nMaxPartyID + 1 } with hw₁
  set info : PartyInfo N := ⟨password, n, p.sid, partyName, p.name, []⟩ with hinfo
  set info' : PartyInfo N := { info with vMemberNameList := [tag] } with hinfo'
  set w₂ := ((w₁.setPartyInfo n info).setPartyInfo n info').setPartyID p.handle n with hw₂
  have hjoin : (w₁.setPartyInfo n info).joinParty n p password = some w₂ := by
    unfold State.joinParty
    rw [getPartyInfo_setPartyInfo, Option.bind_some, if_neg (by simp [hinfo])]
    rfl
  have hrow : w₂.Party.lookup n = none := by
    refine (hw.row n).trans ?_
    rw [hw.getPartyInfo_fresh]
    rfl
  have hadd : w₂.addGroupToDatabase info =
      { w₂ with Party := w₂.Party.insert n ⟨partyName, p.sid⟩ } := by
    unfold addGroupToDatabase
    rw [hrow]
    rfl
  dsimp only
  rw [hnarrow, hjoin, Option.getD_some, Option.map_some, Option.getD_some, hadd]
  have hnew : w₂.getPartyInfo n = some info' := getPartyInfo_setPartyInfo n info'
  have hother : ∀ id', id' ≠ n → w₂.getPartyInfo id' = w.getPartyInfo id' := fun id' hne =>
    (getPartyInfo_setPartyInfo_ne hne info').trans (getPartyInfo_setPartyInfo_ne hne info)
  have hptr : w₂.pointer p.sid = w.pointer p.sid := pointer_setPartyID p.handle n p.sid
  have hparty : w₂.partyOf p.sid = n := by
    rw [hw₂, @partyOf_setPartyID _ ((w₁.setPartyInfo n info).setPartyInfo n info') hw.handles hw.sids
      p hp n, if_pos rfl]
  have hplayers : (w₂.setPartyID p.handle n).players = (w.setPartyID p.handle n).players :=
    setPartyID_twice p.handle n
  refine hw.enlist hp hfree hplayers rfl (Nat.le_succ _) hother hnew ?_ ?_
    ⟨tag, List.mem_singleton.mpr rfl, rfl⟩ fun id' => ?_
  · have hok : PartyOk chars w₂ n info' := by
      refine ⟨by omega, Int.le_refl _, fun tag' ht' => ?_, fun tag' ht' => ?_, List.nodup_singleton _,
        (show 1 ≤ 8 by decide), ⟨tag, List.mem_singleton.mpr rfl, rfl, rfl⟩⟩
      · obtain rfl := List.mem_singleton.mp ht'
        exact hw.tagOk_new hp hptr
      · obtain rfl := List.mem_singleton.mp ht'
        exact hparty
    refine hok.mono (Nat.le_refl _) (fun tag' _ => ?_) fun tag' _ => ?_
    · unfold pointer online
      exact congrArg (fun l => (List.find? _ l).map _) hplayers
    · unfold State.partyOf online
      exact congrArg (fun l => ((List.find? _ l).map _).getD _) hplayers
  · intro info₀ hi₀
    rw [hw.getPartyInfo_fresh] at hi₀
    cases hi₀
  · show (w₂.Party.insert n ⟨partyName, p.sid⟩).lookup id' = (w₂.getPartyInfo id').map _
    by_cases hne : id' = n
    · subst hne
      rw [AList.lookup_insert, hnew]
      rfl
    · rw [AList.lookup_insert_ne hne, hother id' hne]
      exact hw.row id'

/-! ## Leaving -/

/-- A player leaves his party if he is not its leader. -/
theorem onLeaveParty (hw : Consistent chars w) (hp : p ∈ w.players) :
    Consistent chars (w.onLeaveParty chars p) := by
  unfold State.onLeaveParty
  by_cases hzero : p.partyID = 0
  · rw [if_pos hzero]
    exact hw
  rw [if_neg hzero]
  have hparty := partyOf_of_mem hw.sids hp
  obtain ⟨info, hi, -⟩ := hw.listed p.sid (hw.known p hp).1 (by rwa [hparty])
  rw [hparty] at hi
  have hold := hw.party _ info hi
  unfold State.leaveParty
  rw [hi, Option.bind_some]
  by_cases hleader : chars.iequals info.strLeaderName p.name = true
  · rw [if_pos hleader]
    exact hw
  rw [if_neg hleader, Option.map_some, Option.getD_some,
    @eraseP_key_eq_filter _ _ _ (fun tag : PartyMemberTag N => tag.sid) _ p.sid hold.nodup _
      fun tag ht => (hold.tag tag ht).iequals_iff (hw.known p hp)]
  set info' : PartyInfo N := { info with
    vMemberNameList := info.vMemberNameList.filter fun tag => decide (tag.sid ≠ p.sid) } with hinfo'
  have hmem : ∀ tag, tag ∈ info'.vMemberNameList ↔ tag ∈ info.vMemberNameList ∧ tag.sid ≠ p.sid := by
    intro tag
    rw [hinfo', List.mem_filter, decide_eq_true_iff]
  set w' := (w.setPartyInfo p.partyID info').setPartyID p.handle 0 with hw'
  have hnew : w'.getPartyInfo p.partyID = some info' := getPartyInfo_setPartyInfo _ info'
  have hother : ∀ id', id' ≠ p.partyID → w'.getPartyInfo id' = w.getPartyInfo id' :=
    fun id' hne => getPartyInfo_setPartyInfo_ne hne info'
  have hptr : ∀ sid, w'.pointer sid = w.pointer sid := fun sid => pointer_setPartyID p.handle 0 sid
  have hpartyOf : ∀ sid, w'.partyOf sid = if sid = p.sid then 0 else w.partyOf sid :=
    @partyOf_setPartyID _ (w.setPartyInfo p.partyID info') hw.handles hw.sids p hp 0
  refine ⟨hw.toPlayersOk.map (samePlayer_ite 0), fun id' info₀ hi₀ => ?_, fun sid hsid hne => ?_,
    fun id' => ?_⟩
  · by_cases hid : id' = p.partyID
    · subst hid
      obtain rfl := Option.some.inj (hnew.symm.trans hi₀)
      refine @PartyOk.without _ _ w w' _ _ hold p.sid (Nat.le_refl _) hptr (fun tag _ hs => ?_) fun leader hl he => hleader ?_
      · rw [hpartyOf, if_neg hs]
      · -- the leader is not the one who leaves
        rw [← he.2]
        exact chars.iequals_symm _ _ (((hold.tag leader hl).iequals_iff (hw.known p hp)).mpr he.1)
    · rw [hother id' hid] at hi₀
      refine (hw.party id' info₀ hi₀).mono (Nat.le_refl _) (fun tag _ => hptr tag.sid) fun tag ht => ?_
      have htag := (hw.party id' info₀ hi₀).partyOf tag ht
      have hne : tag.sid ≠ p.sid := fun he => hid (by rw [← htag, he, hparty])
      rw [hpartyOf, if_neg hne]
  · rw [hpartyOf] at hne ⊢
    by_cases hs : sid = p.sid
    · exact absurd (if_pos hs) hne
    rw [if_neg hs] at hne ⊢
    obtain ⟨info₀, hi₀, tag, ht, htag⟩ := hw.listed sid hsid hne
    by_cases hid : w.partyOf sid = p.partyID
    · rw [hid] at hi₀ ⊢
      obtain rfl := Option.some.inj (hi.symm.trans hi₀)
      exact ⟨info', hnew, tag, (hmem tag).mpr ⟨ht, htag ▸ hs⟩, htag⟩
    · exact ⟨info₀, (hother _ hid).trans hi₀, tag, ht, htag⟩
  · exact hw.row_replaced hi hnew ⟨rfl, rfl⟩ hother id'

/-! ## Destroying -/

/-- The player after the party of the tags has been destroyed. -/
def dismissed (tags : List (PartyMemberTag N)) (q : Player N) : Player N :=
  if ∃ tag ∈ tags, tag.bIsOnline = true ∧ tag.pPlayer = some q.handle then { q with partyID := 0 } else q

theorem dismiss_eq (w : State N) (tag : PartyMemberTag N) :
    w.dismiss tag = { w with players := w.players.map (dismissed [tag]) } := by
  obtain ⟨online, sid, name, pPlayer⟩ := tag
  have hmap : ∀ g : Player N → Player N, (∀ q, g q = q) → w.players.map g = w.players := by
    intro g hg
    rw [List.map_congr_left fun q _ => hg q, List.map_id']
  unfold dismiss
  cases pPlayer with
  | none =>
    dsimp only
    rw [hmap _ fun q => by simp [dismissed]]
  | some h =>
    cases online with
    | false =>
      dsimp only
      rw [hmap _ fun q => by simp [dismissed]]
      rfl
    | true =>
      show w.setPartyID h 0 = _
      unfold setPartyID
      congr 2
      funext q
      unfold dismissed
      by_cases hq : q.handle = h
      · simp [hq]
      · simp [hq, Ne.symm hq]

theorem foldl_dismiss (tags : List (PartyMemberTag N)) :
    ∀ w : State N, tags.foldl dismiss w = { w with players := w.players.map (dismissed tags) } := by
  induction tags with
  | nil =>
    intro w
    have hnone : dismissed ([] : List (PartyMemberTag N)) = id := by
      funext q
      simp [dismissed]
    rw [hnone, List.map_id]
    rfl
  | cons tag tags ih =>
    intro w
    rw [List.foldl_cons, ih, dismiss_eq]
    dsimp only
    rw [List.map_map]
    congr 2
    funext q
    rw [Function.comp_apply]
    unfold dismissed
    by_cases hfirst : tag.bIsOnline = true ∧ tag.pPlayer = some q.handle
    · simp [hfirst]
    · simp [hfirst]

/-- The parties of the characters when the members of one, who are all online, have been dismissed. -/
theorem partyOf_dismissed (hw : Consistent chars w) {id : Int} {tags : List (PartyMemberTag N)}
    (hplayers : w'.players = w.players.map (dismissed tags)) (hcolumn : w'.party_id = w.party_id)
    (htag : ∀ tag ∈ tags, TagOk chars w tag ∧ w.partyOf tag.sid = id ∧ tag.bIsOnline = true)
    (hnone : id = 0 → tags = []) {sid : Nat} (hlisted : w.partyOf sid = id → id ≠ 0 → ∃ tag ∈ tags, tag.sid = sid) :
    w'.partyOf sid = if w.partyOf sid = id then 0 else w.partyOf sid := by
  have hsame : ∀ q, SamePlayer q (dismissed tags q) := samePlayer_ite 0
  have hon : w'.online sid = (w.online sid).map (dismissed tags) := online_map hsame hplayers sid
  by_cases hin : w.partyOf sid = id
  · rw [if_pos hin]
    by_cases hzero : id = 0
    · rw [← hzero, ← hin]
      unfold State.partyOf
      rw [hon, hcolumn, hnone hzero, Option.map_map]
      congr 2
    · obtain ⟨tag, ht, rfl⟩ := hlisted hin hzero
      obtain ⟨hok, -, hon'⟩ := htag tag ht
      obtain ⟨h, hh⟩ := Option.isSome_iff_exists.mp (hok.bIsOnline.symm.trans hon')
      obtain ⟨q, hq, rfl⟩ := Option.map_eq_some_iff.mp hh
      unfold State.partyOf
      rw [hon, hq, Option.map_some, dismissed, if_pos ⟨tag, ht, hon', hok.pPlayer.trans hh⟩]
      rfl
  · rw [if_neg hin]
    unfold State.partyOf
    rw [hon, hcolumn]
    cases hq : w.online sid with
    | none => rfl
    | some q =>
      obtain ⟨hqmem, rfl⟩ := (online_eq_some_iff hw.sids).mp hq
      rw [Option.map_some, dismissed, if_neg]
      rintro ⟨tag, ht, -, hh⟩
      obtain ⟨hok, hparty, -⟩ := htag tag ht
      rw [hok.pPlayer] at hh
      obtain ⟨q', hq', hhandle⟩ := Option.map_eq_some_iff.mp hh
      obtain ⟨hqmem', hsid'⟩ := (online_eq_some_iff hw.sids).mp hq'
      obtain rfl := List.inj_on_of_nodup_map hw.handles hqmem' hqmem hhandle
      exact hin (hsid' ▸ hparty)

/-- A party is gone, and those who belonged to it belong to none. -/
theorem removed (hw : Consistent chars w) {w' : State N} {id : Int} (hplayers : PlayersOk chars w'.players)
    (hmax : w'.m_nMaxPartyID = w.m_nMaxPartyID) (hptr : ∀ sid, w'.pointer sid = w.pointer sid)
    (hgone : w'.getPartyInfo id = none) (hother : ∀ id', id' ≠ id → w'.getPartyInfo id' = w.getPartyInfo id')
    (hrow : w'.Party.lookup id = none) (hrows : ∀ id', id' ≠ id → w'.Party.lookup id' = w.Party.lookup id')
    (hpartyOf : ∀ sid ∈ chars.sids, w'.partyOf sid = if w.partyOf sid = id then 0 else w.partyOf sid) :
    Consistent chars w' := by
  refine ⟨hplayers, fun id' info hi => ?_, fun sid hsid hne => ?_, fun id' => ?_⟩
  · have hne : id' ≠ id := by
      rintro rfl
      rw [hgone] at hi
      cases hi
    rw [hother id' hne] at hi
    have hok := hw.party id' info hi
    refine hok.mono (Nat.le_of_eq hmax.symm) (fun tag _ => hptr tag.sid) fun tag ht => ?_
    rw [hpartyOf _ (hok.tag tag ht).sid, if_neg]
    rw [hok.partyOf tag ht]
    exact hne
  · rw [hpartyOf sid hsid] at hne ⊢
    by_cases hin : w.partyOf sid = id
    · exact absurd (if_pos hin) hne
    rw [if_neg hin] at hne ⊢
    rw [hother _ hin]
    exact hw.listed sid hsid hne
  · by_cases hne : id' = id
    · subst hne
      rw [hgone]
      exact hrow
    · rw [hother id' hne]
      exact (hrows id' hne).trans (hw.row id')

/-- A party whose members are all online is destroyed. -/
theorem onPartyDestroy [DecidableEq N] (hw : Consistent chars w)
    (honline : w.isLeader p.partyID p.name = true → ∀ info, w.getPartyInfo p.partyID = some info →
      ∀ tag ∈ info.vMemberNameList, tag.bIsOnline = true) :
    Consistent chars (w.onPartyDestroy p) := by
  unfold State.onPartyDestroy
  by_cases hright : p.partyID ≠ 0 ∧ w.isLeader p.partyID p.name = false
  · rw [if_pos hright]
    exact hw
  rw [if_neg hright]
  unfold destroyParty
  set id := p.partyID with hid
  set tags := ((w.getPartyInfo id).map (·.vMemberNameList)).getD [] with htags
  dsimp only
  rw [foldl_dismiss]
  set w' : State N := { w with
    players := w.players.map (dismissed tags)
    Party := w.Party.erase id
    m_hshPartyID := w.m_hshPartyID.erase id } with hw'
  have hsame : ∀ q, SamePlayer q (dismissed tags q) := samePlayer_ite 0
  -- the tags are those of the characters that belong to the party
  have htag : ∀ tag ∈ tags, TagOk chars w tag ∧ w.partyOf tag.sid = id ∧ tag.bIsOnline = true := by
    intro tag ht
    cases hi : w.getPartyInfo id with
    | none =>
      rw [htags, hi] at ht
      cases ht
    | some info =>
      rw [htags, hi] at ht
      have hok := hw.party id info hi
      have hleader : w.isLeader id p.name = true := by
        refine Bool.not_eq_false _ ▸ fun hc => hright ⟨fun hz => ?_, hc⟩
        rw [hz, hw.getPartyInfo_zero] at hi
        cases hi
      exact ⟨hok.tag tag ht, hok.partyOf tag ht, honline hleader info hi tag ht⟩
  have hpartyOf : ∀ sid ∈ chars.sids,
      w'.partyOf sid = if w.partyOf sid = id then 0 else w.partyOf sid := by
    intro sid hsid
    refine @partyOf_dismissed _ _ _ w' hw _ _ rfl rfl htag (fun hzero => ?_) _ fun hin hzero => ?_
    · rw [htags, hzero, hw.getPartyInfo_zero]
      rfl
    · obtain ⟨info, hi, tag, ht, htsid⟩ := hw.listed sid hsid (hin.symm ▸ hzero)
      rw [hin] at hi
      refine ⟨tag, ?_, htsid⟩
      rw [htags, hi]
      exact ht
  exact hw.removed (hw.toPlayersOk.map hsame) rfl (pointer_map hsame rfl) (AList.lookup_erase _ _)
    (fun id' hne => AList.lookup_erase_ne hne) (AList.lookup_erase _ _) (fun id' hne => AList.lookup_erase_ne hne) hpartyOf

end Consistent

end RZEmulator.Chihiro.GroupManager
