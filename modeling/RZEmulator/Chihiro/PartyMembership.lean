import RZEmulator.Chihiro.GroupManager
import RZEmulator.Lib.Keyed

/-!
# Party membership

`PartiesOk` is what the parties promise: a player who is logged in belongs to no party or to one that
exists and lists him once, nobody is listed in two parties, a party has one to eight members, and its
leader is one of them.

The argument follows the party every character belongs to (`partyOf`): the `PARTY_ID` of the player if
the character is logged in, and the column `party_id` if it is not. Login, logout, saving and a restart
leave it as it is; joining, creating, leaving and destroying a party change it together with the member
list. Two steps do not keep this up: a party destroyed while a member is offline leaves that member's
column behind, and a restart loses what was not saved. `Careful` excludes them.
-/

namespace RZEmulator.Chihiro.GroupManager

open Lib

variable {N : Type} {chars : Characters N} {w w' : State N}

namespace State

/-- The player of a character that is logged in. -/
def online (w : State N) (sid : Nat) : Option (Player N) := w.players.find? (·.sid = sid)

/-- The pointer to the player of a character. -/
def pointer (w : State N) (sid : Nat) : Option Nat := (w.online sid).map (·.handle)

/-- The party a character belongs to. -/
def partyOf (w : State N) (sid : Nat) : Int :=
  ((w.online sid).map (·.partyID)).getD (w.party_id sid)

/-- **What the parties promise.** -/
structure PartiesOk (w : State N) : Prop where
  own : ∀ p ∈ w.players, p.partyID = 0 ∨ ∃ info, w.getPartyInfo p.partyID = some info ∧
    (info.vMemberNameList.map (·.sid)).count p.sid = 1
  once : ∀ id info id' info', w.getPartyInfo id = some info → w.getPartyInfo id' = some info' →
    ∀ tag ∈ info.vMemberNameList, ∀ tag' ∈ info'.vMemberNameList, tag.sid = tag'.sid → id = id'
  size : ∀ id info, w.getPartyInfo id = some info →
    1 ≤ info.vMemberNameList.length ∧ info.vMemberNameList.length ≤ 8
  leader : ∀ id info, w.getPartyInfo id = some info →
    ∃ tag ∈ info.vMemberNameList, tag.strName = info.strLeaderName

end State

open State

/-! ## The invariant -/

/-- The tag of a member: it bears his name and points to his player if he is logged in. -/
structure TagOk (chars : Characters N) (w : State N) (tag : PartyMemberTag N) : Prop where
  sid : tag.sid ∈ chars.sids
  name : chars.iequals tag.strName (chars.name tag.sid) = true
  pPlayer : tag.pPlayer = w.pointer tag.sid
  bIsOnline : tag.bIsOnline = (w.pointer tag.sid).isSome

/-- A party, and its row in the database. -/
structure PartyOk (chars : Characters N) (w : State N) (id : Int) (info : PartyInfo N) : Prop where
  pos : 0 < id
  le : id ≤ w.m_nMaxPartyID
  tag : ∀ tag ∈ info.vMemberNameList, TagOk chars w tag
  partyOf : ∀ tag ∈ info.vMemberNameList, w.partyOf tag.sid = id
  nodup : (info.vMemberNameList.map (·.sid)).Nodup
  size : info.vMemberNameList.length ≤ 8
  leader : ∃ tag ∈ info.vMemberNameList, tag.sid = info.nLeaderSID ∧ tag.strName = info.strLeaderName

/-- The players have different handles and characters, and bear the names of these. -/
structure PlayersOk (chars : Characters N) (players : List (Player N)) : Prop where
  handles : (players.map (·.handle)).Nodup
  sids : (players.map (·.sid)).Nodup
  known : ∀ p ∈ players, p.sid ∈ chars.sids ∧ chars.iequals p.name (chars.name p.sid) = true

/-- **The invariant.** -/
structure Consistent (chars : Characters N) (w : State N) : Prop extends PlayersOk chars w.players where
  party : ∀ id info, w.getPartyInfo id = some info → PartyOk chars w id info
  listed : ∀ sid ∈ chars.sids, w.partyOf sid ≠ 0 → ∃ info, w.getPartyInfo (w.partyOf sid) = some info ∧
    ∃ tag ∈ info.vMemberNameList, tag.sid = sid
  row : ∀ id, w.Party.lookup id =
    (w.getPartyInfo id).map fun info => ⟨info.strPartyName, info.nLeaderSID⟩

/-! ## Players by their characters -/

theorem online_eq_some_iff (hs : (w.players.map (·.sid)).Nodup) {sid : Nat} {p : Player N} :
    w.online sid = some p ↔ p ∈ w.players ∧ p.sid = sid :=
  find?_key_eq_some_iff hs

theorem online_of_mem (hs : (w.players.map (·.sid)).Nodup) {p : Player N} (hp : p ∈ w.players) :
    w.online p.sid = some p :=
  (online_eq_some_iff hs).mpr ⟨hp, rfl⟩

theorem partyOf_of_mem (hs : (w.players.map (·.sid)).Nodup) {p : Player N} (hp : p ∈ w.players) :
    w.partyOf p.sid = p.partyID := by
  unfold partyOf
  rw [online_of_mem hs hp]
  rfl

theorem player_eq_some_iff (hh : (w.players.map (·.handle)).Nodup) {h : Nat} {p : Player N} :
    w.player h = some p ↔ p ∈ w.players ∧ p.handle = h :=
  find?_key_eq_some_iff hh

namespace Consistent

variable {p : Player N} {sid : Nat}

theorem tag_unique (hw : Consistent chars w) {id id' : Int} {info info' : PartyInfo N}
    (hi : w.getPartyInfo id = some info) (hi' : w.getPartyInfo id' = some info')
    {tag tag' : PartyMemberTag N} (ht : tag ∈ info.vMemberNameList)
    (ht' : tag' ∈ info'.vMemberNameList) (hsid : tag.sid = tag'.sid) : id = id' := by
  rw [← (hw.party id info hi).partyOf tag ht, hsid]
  exact (hw.party id' info' hi').partyOf tag' ht'

theorem getPartyInfo_zero (hw : Consistent chars w) : w.getPartyInfo 0 = none := by
  cases h : w.getPartyInfo 0 with
  | none => rfl
  | some info => exact absurd (hw.party 0 info h).pos (by decide)

/-- A character in no party is listed in none. -/
theorem not_listed (hw : Consistent chars w) (hzero : w.partyOf sid = 0) {id : Int}
    {info : PartyInfo N} (hi : w.getPartyInfo id = some info) {tag : PartyMemberTag N}
    (ht : tag ∈ info.vMemberNameList) : tag.sid ≠ sid := by
  rintro rfl
  have hparty := hw.party id info hi
  have hid := hparty.partyOf tag ht
  rw [hzero] at hid
  exact absurd hparty.pos (by rw [← hid]; decide)

/-- A player who belongs to a party is listed in it, exactly once. -/
theorem listed_once (hw : Consistent chars w) (hp : p ∈ w.players) (hne : p.partyID ≠ 0) :
    ∃ info, w.getPartyInfo p.partyID = some info ∧
      (info.vMemberNameList.map (·.sid)).count p.sid = 1 := by
  have hparty := partyOf_of_mem hw.sids hp
  obtain ⟨info, hinfo, tag, htag, hsid⟩ := hw.listed p.sid (hw.known p hp).1 (by rwa [hparty])
  rw [hparty] at hinfo
  refine ⟨info, hinfo, List.count_eq_one_of_mem (hw.party _ _ hinfo).nodup ?_⟩
  exact List.mem_map.mpr ⟨tag, htag, hsid⟩

theorem partiesOk (hw : Consistent chars w) : PartiesOk w where
  own p hp := or_iff_not_imp_left.mpr (hw.listed_once hp)
  once id info id' info' hi hi' tag ht tag' ht' hsid := hw.tag_unique hi hi' ht ht' hsid
  size id info hi := by
    have hparty := hw.party id info hi
    obtain ⟨tag, ht, -⟩ := hparty.leader
    exact ⟨List.length_pos_of_mem ht, hparty.size⟩
  leader id info hi := by
    obtain ⟨tag, ht, -, hname⟩ := (hw.party id info hi).leader
    exact ⟨tag, ht, hname⟩

end Consistent

/-! ## What the operations change -/

theorem PartyOk.mono {id : Int} {info : PartyInfo N} (hi : PartyOk chars w id info)
    (hmax : w.m_nMaxPartyID ≤ w'.m_nMaxPartyID)
    (hptr : ∀ tag ∈ info.vMemberNameList, w'.pointer tag.sid = w.pointer tag.sid)
    (hparty : ∀ tag ∈ info.vMemberNameList, w'.partyOf tag.sid = w.partyOf tag.sid) :
    PartyOk chars w' id info where
  pos := hi.pos
  le := Int.le_trans hi.le (Int.ofNat_le.mpr hmax)
  tag tag ht := by
    obtain ⟨hsid, hname, hpPlayer, hbIsOnline⟩ := hi.tag tag ht
    exact ⟨hsid, hname, by rw [hpPlayer, hptr tag ht], by rw [hbIsOnline, hptr tag ht]⟩
  partyOf tag ht := by rw [hparty tag ht, hi.partyOf tag ht]
  nodup := hi.nodup
  size := hi.size
  leader := hi.leader

@[simp] theorem getPartyInfo_setPartyInfo (id : Int) (info : PartyInfo N) :
    (w.setPartyInfo id info).getPartyInfo id = some info := AList.lookup_insert _

theorem getPartyInfo_setPartyInfo_ne {id id' : Int} (hne : id' ≠ id) (info : PartyInfo N) :
    (w.setPartyInfo id info).getPartyInfo id' = w.getPartyInfo id' := AList.lookup_insert_ne hne

/-- The rows of the database stay right where a party is replaced by one of the same name and leader. -/
theorem Consistent.row_replaced (hw : Consistent chars w) {id : Int} {info info' : PartyInfo N}
    (hi : w.getPartyInfo id = some info) (hnew : w'.getPartyInfo id = some info')
    (hsame : info'.strPartyName = info.strPartyName ∧ info'.nLeaderSID = info.nLeaderSID)
    (hother : ∀ id', id' ≠ id → w'.getPartyInfo id' = w.getPartyInfo id') (id' : Int) :
    w.Party.lookup id' = (w'.getPartyInfo id').map fun info => ⟨info.strPartyName, info.nLeaderSID⟩ := by
  refine (hw.row id').trans ?_
  by_cases hne : id' = id
  · subst hne
    rw [hi, hnew, Option.map_some, Option.map_some, hsame.1, hsame.2]
  · rw [hother id' hne]

/-! ### Changes of the players -/

/-- A change that leaves a player the same player, of the same character. -/
structure SamePlayer (p q : Player N) : Prop where
  handle : q.handle = p.handle
  sid : q.sid = p.sid
  name : q.name = p.name

section

variable {g : Player N → Player N} (hg : ∀ p, SamePlayer p (g p))

include hg

theorem online_map (hw : w'.players = w.players.map g) (sid : Nat) :
    w'.online sid = (w.online sid).map g := by
  unfold online
  rw [hw]
  exact find?_key_map fun p => (hg p).sid

theorem pointer_map (hw : w'.players = w.players.map g) (sid : Nat) :
    w'.pointer sid = w.pointer sid := by
  unfold pointer
  rw [online_map hg hw, Option.map_map]
  congr 1
  funext p
  exact (hg p).handle

theorem PlayersOk.map {players : List (Player N)} (hw : PlayersOk chars players) :
    PlayersOk chars (players.map g) := by
  refine ⟨?_, ?_, fun q hq => ?_⟩
  · have hsame : (players.map g).map (·.handle) = players.map (·.handle) := by
      rw [List.map_map]
      exact List.map_congr_left fun p _ => (hg p).handle
    rw [hsame]
    exact hw.handles
  · have hsame : (players.map g).map (·.sid) = players.map (·.sid) := by
      rw [List.map_map]
      exact List.map_congr_left fun p _ => (hg p).sid
    rw [hsame]
    exact hw.sids
  · obtain ⟨p, hp, rfl⟩ := List.mem_map.mp hq
    rw [(hg p).sid, (hg p).name]
    exact hw.known p hp

end

theorem samePlayer_ite {c : Player N → Prop} [DecidablePred c] (v : Int) (p : Player N) :
    SamePlayer p (if c p then { p with partyID := v } else p) := by
  split_ifs <;> exact ⟨rfl, rfl, rfl⟩

theorem pointer_setPartyID (h : Nat) (v : Int) (sid : Nat) :
    (w.setPartyID h v).pointer sid = w.pointer sid :=
  pointer_map (samePlayer_ite v) rfl sid

/-- Setting the party of a player sets that of his character. -/
theorem partyOf_setPartyID (hh : (w.players.map (·.handle)).Nodup) (hs : (w.players.map (·.sid)).Nodup)
    {p : Player N} (hp : p ∈ w.players) (v : Int) (sid : Nat) :
    (w.setPartyID p.handle v).partyOf sid = if sid = p.sid then v else w.partyOf sid := by
  have honline : (w.setPartyID p.handle v).online sid = _ :=
    online_map (w := w) (samePlayer_ite v) rfl sid
  unfold partyOf
  rw [honline]
  by_cases hsid : sid = p.sid
  · subst hsid
    rw [online_of_mem hs hp, if_pos rfl]
    simp
  · rw [if_neg hsid]
    cases hon : w.online sid with
    | none => rfl
    | some q =>
      obtain ⟨hq, rfl⟩ := (online_eq_some_iff hs).mp hon
      have hne : q.handle ≠ p.handle := fun he => hsid (by
        rw [List.inj_on_of_nodup_map hh hq hp he])
      simp [hne]

end RZEmulator.Chihiro.GroupManager
