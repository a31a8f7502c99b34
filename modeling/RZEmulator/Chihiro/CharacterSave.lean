import Mathlib.Algebra.Order.Round
import Mathlib.Data.Rat.Floor
import RZEmulator.Chihiro.CharacterFlags
import RZEmulator.Lib.MachineInt
import RZEmulator.Lib.SingleFloat

/-!
# Saving and loading a character

`Player::Save` and `Player::ReadCharacter`, as far as they write and read the same columns of the table
`Character`. Integers have the width of their column or field; what the database makes of an update is a
parameter, of which only documented behaviour in strict mode is used (`Database.Documented`): a float is
rounded to a nearest integer, and an update with a value that does not fit its column is refused.

`roundTrips_iff` says which characters survive. The experience does not unless it fits 32 bits, since
`ReadCharacter` narrows it.
-/

namespace RZEmulator.Chihiro

open Lib

/-- The columns that `Save` writes. -/
structure CharacterRow where
  x : BitVec 32
  y : BitVec 32
  z : BitVec 32
  layer : BitVec 32
  exp : BitVec 64
  lv : BitVec 32
  hp : BitVec 32
  mp : BitVec 32
  stamina : BitVec 32
  jlv : BitVec 32
  jp : BitVec 32
  total_jp : BitVec 32
  job_i : Fin 3 → BitVec 32
  jlv_i : Fin 3 → BitVec 32
  permission : BitVec 32
  job : BitVec 32
  gold : BitVec 64
  party_id : BitVec 32
  guild_id : BitVec 32
  summon_i : Fin 6 → BitVec 32
  main_summon : BitVec 32
  sub_summon : BitVec 32
  pet : BitVec 32
  chaos : BitVec 32
  client_info : Text
  flag_list : Text

/-- The parameters of `CHARACTER_UPD_CHARACTER`: the position is bound as floats. -/
structure CharacterUpdate where
  x : SingleFloat
  y : SingleFloat
  z : SingleFloat
  row : CharacterRow

/-- The fields of a player that the two functions are about. -/
structure Character where
  x : SingleFloat
  y : SingleFloat
  z : SingleFloat
  layer : BitVec 8
  exp : BitVec 64
  level : BitVec 32
  health : BitVec 32
  mana : BitVec 32
  stamina : BitVec 32
  jlv : BitVec 32
  jp : BitVec 32
  totalJp : BitVec 32
  prevJob : Fin 3 → BitVec 32
  prevJlv : Fin 3 → BitVec 32
  permission : BitVec 32
  job : BitVec 32
  gold : BitVec 64
  partyId : BitVec 32
  guildId : BitVec 32
  /-- The UIDs of the summons of the cards in the belt. -/
  summon : Fin 6 → BitVec 32
  mainSummon : BitVec 32
  chaos : BitVec 32
  clientInfo : Text
  flags : FlagList

/-! ## The functions -/

namespace Character

/-- What `Player::Save` binds; the columns of the position are those of the floats. -/
def save (c : Character) : CharacterUpdate where
  x := c.x
  y := c.y
  z := c.z
  row :=
    { x := 0
      y := 0
      z := 0
      layer := c.layer.setWidth 32
      exp := c.exp
      lv := c.level
      hp := c.health
      mp := c.mana
      stamina := c.stamina
      jlv := c.jlv
      jp := c.jp
      total_jp := c.totalJp
      job_i := c.prevJob
      jlv_i := c.prevJlv
      permission := c.permission
      job := c.job
      gold := c.gold
      party_id := c.partyId
      guild_id := c.guildId
      summon_i := c.summon
      main_summon := c.mainSummon
      sub_summon := 0
      pet := 0
      chaos := c.chaos
      client_info := c.clientInfo
      flag_list := c.flags.write }

/-- `Player::ReadCharacter`, for a session with the permission `m_nPermission`. -/
def read (m_nPermission : BitVec 32) (row : CharacterRow) : Character where
  x := .ofInt row.x.toInt
  y := .ofInt row.y.toInt
  z := .ofInt row.z.toInt
  layer := row.layer.setWidth 8
  exp := (row.exp.setWidth 32).signExtend 64
  level := if row.lv = 0 then 1 else row.lv
  health := row.hp
  mana := row.mp
  stamina := row.stamina
  jlv := if row.lv = 0 then 1 else row.jlv
  jp := row.jp
  totalJp := 0
  prevJob := row.job_i
  prevJlv := row.jlv_i
  permission := if row.permission.toInt < m_nPermission.toInt then m_nPermission else row.permission
  job := row.job
  gold := row.gold
  partyId := row.party_id
  guildId := row.guild_id
  summon := row.summon_i
  mainSummon := row.main_summon
  chaos := row.chaos
  clientInfo := row.client_info
  flags := .read row.flag_list

end Character

/-! ## The database -/

/-- `update` is what the statement leaves of a row, `toInt` the integer that is stored for a float. -/
structure Database where
  update : CharacterRow → CharacterUpdate → CharacterRow
  toInt : SingleFloat → Int

namespace CharacterUpdate

/-- Every value fits its column: `int(11)` for the position, `varchar(1000)` and `varchar(4096)`. -/
structure Fits (toInt : SingleFloat → Int) (u : CharacterUpdate) : Prop where
  x : IsInt32 (toInt u.x)
  y : IsInt32 (toInt u.y)
  z : IsInt32 (toInt u.z)
  flag_list : u.row.flag_list.length ≤ 1000
  client_info : u.row.client_info.length ≤ 4096

/-- The row with the values of the update. -/
def assign (toInt : SingleFloat → Int) (u : CharacterUpdate) : CharacterRow :=
  { u.row with x := .ofInt 32 (toInt u.x), y := .ofInt 32 (toInt u.y), z := .ofInt 32 (toInt u.z) }

end CharacterUpdate

/-- The documented behaviour of the database in strict mode. -/
structure Database.Documented (db : Database) : Prop where
  nearest : ∀ x : SingleFloat, |(db.toInt x : ℚ) - x.val| ≤ 1 / 2
  stored : ∀ row u, CharacterUpdate.Fits db.toInt u → db.update row u = u.assign db.toInt
  refused : ∀ row u, ¬CharacterUpdate.Fits db.toInt u → db.update row u = row

/-! ## The claim -/

namespace Character

/-- The two characters have come as far as each other. -/
structure SameProgress (c d : Character) : Prop where
  exp : c.exp = d.exp
  gold : c.gold = d.gold
  position : c.x = d.x ∧ c.y = d.y ∧ c.z = d.z
  level : c.level = d.level
  jlv : c.jlv = d.jlv
  prevJlv : c.prevJlv = d.prevJlv
  flags : ∀ key, c.flags.lookup key = d.flags.lookup key

/-- Whatever the row was before: loading what was saved gives the same character, and doing both again
changes nothing. -/
def RoundTrips (db : Database) (c : Character) : Prop :=
  ∀ (row : CharacterRow) (m_nPermission : BitVec 32),
    let row₁ := db.update row c.save
    let c₁ := read m_nPermission row₁
    SameProgress c₁ c ∧ SameProgress (read m_nPermission (db.update row₁ c₁.save)) c₁

/-- A whole number of 32 bits. -/
def Whole (x : SingleFloat) : Prop := ∃ n : Int, IsInt32 n ∧ x.val = n

/-- What survives: an experience of 32 bits, a position in whole numbers, a level, flags without separators
and with a value, and texts that fit their columns. -/
structure Savable (c : Character) : Prop where
  exp : IsInt32 c.exp.toInt
  position : Whole c.x ∧ Whole c.y ∧ Whole c.z
  level : c.level ≠ 0
  flags : ∀ key value, c.flags.lookup key = some value →
    FlagList.Plain key ∧ FlagList.Plain value ∧ value ≠ []
  flagList : c.flags.write.length ≤ 1000
  clientInfo : c.clientInfo.length ≤ 4096

/-! ## One value at a time -/

variable {db : Database} {x : SingleFloat} {c d : Character}

theorem toInt_of_whole (hdb : db.Documented) {n : Int} (hx : x.val = n) : db.toInt x = n := by
  have hnear := hdb.nearest x
  rw [hx] at hnear
  have hlt : |((db.toInt x - n : Int) : ℚ)| < 1 := by
    rw [Int.cast_sub]
    exact hnear.trans_lt (by norm_num)
  have habs : |db.toInt x - n| < 1 := by exact_mod_cast hlt
  exact sub_eq_zero.mp (Int.abs_lt_one_iff.mp habs)

/-- A coordinate survives if and only if it is a whole number. -/
theorem coordinate_iff (hdb : db.Documented) (hfit : IsInt32 (db.toInt x)) :
    SingleFloat.ofInt (BitVec.ofInt 32 (db.toInt x)).toInt = x ↔ Whole x := by
  have hcolumn : (BitVec.ofInt 32 (db.toInt x)).toInt = db.toInt x := by
    obtain ⟨hlow, hhigh⟩ := hfit
    exact BitVec.toInt_ofInt_eq_self (by decide) (by simpa using hlow) (by simpa using hhigh)
  rw [hcolumn]
  constructor
  · intro hsame
    have hval : x.val = (SingleFloat.rounded (db.toInt x) : ℚ) := by
      conv_lhs => rw [← hsame]
      rfl
    exact ⟨_, toInt_of_whole hdb hval ▸ hfit, hval⟩
  · rintro ⟨n, -, hval⟩
    rw [toInt_of_whole hdb hval]
    exact SingleFloat.ofInt_of_isFloat hval

/-! ## Whole characters -/

/-- What is loaded of an update that the database takes. -/
theorem sameProgress_iff (hdb : db.Documented) (hfit : CharacterUpdate.Fits db.toInt c.save) (p : BitVec 32) :
    SameProgress (read p (c.save.assign db.toInt)) c ↔ IsInt32 c.exp.toInt ∧
      (Whole c.x ∧ Whole c.y ∧ Whole c.z) ∧ c.level ≠ 0 ∧ ∀ key value, c.flags.lookup key = some value →
        FlagList.Plain key ∧ FlagList.Plain value ∧ value ≠ [] := by
  have hlevel : (if c.level = 0 then 1 else c.level) = c.level ↔ c.level ≠ 0 := by
    split_ifs with hzero
    · rw [hzero]
      decide
    · exact iff_of_true rfl hzero
  have hx := coordinate_iff (x := c.x) hdb hfit.x
  have hy := coordinate_iff (x := c.y) hdb hfit.y
  have hz := coordinate_iff (x := c.z) hdb hfit.z
  rw [← signExtend_setWidth_eq_self_iff, ← hx, ← hy, ← hz, ← hlevel, ← FlagList.read_write_iff]
  refine ⟨fun h => ⟨h.exp, h.position, h.level, h.flags⟩, fun ⟨hexp, hposition, hlv, hflags⟩ => ?_⟩
  have hjlv : (if c.level = 0 then 1 else c.jlv) = c.jlv := if_neg (hlevel.mp hlv)
  exact ⟨hexp, rfl, hposition, hlv, hjlv, rfl, hflags⟩

/-- A character that can be saved fits the columns. -/
theorem Savable.fits (hdb : db.Documented) (hc : Savable c) : CharacterUpdate.Fits db.toInt c.save := by
  have hwhole : ∀ x, Whole x → IsInt32 (db.toInt x) := fun x ⟨n, hn, hval⟩ => toInt_of_whole hdb hval ▸ hn
  obtain ⟨hx, hy, hz⟩ := hc.position
  exact ⟨hwhole _ hx, hwhole _ hy, hwhole _ hz, hc.flagList, hc.clientInfo⟩

/-- Whether a character can be saved depends on its progress and its client info. -/
theorem Savable.congr (hc : Savable c) (hsame : SameProgress d c) (hinfo : d.clientInfo = c.clientInfo) :
    Savable d := by
  obtain ⟨hx, hy, hz⟩ := hsame.position
  refine ⟨hsame.exp ▸ hc.exp, ?_, hsame.level ▸ hc.level, fun key value hflag => ?_, ?_, hinfo ▸ hc.clientInfo⟩
  · rw [hx, hy, hz]
    exact hc.position
  · exact hc.flags key value ((hsame.flags key).symm.trans hflag)
  · rw [FlagList.length_write_congr hsame.flags]
    exact hc.flagList

instance (toInt : SingleFloat → Int) (u : CharacterUpdate) : Decidable (CharacterUpdate.Fits toInt u) :=
  decidable_of_iff (IsInt32 (toInt u.x) ∧ IsInt32 (toInt u.y) ∧ IsInt32 (toInt u.z) ∧
    u.row.flag_list.length ≤ 1000 ∧ u.row.client_info.length ≤ 4096)
    ⟨fun ⟨h₁, h₂, h₃, h₄, h₅⟩ => ⟨h₁, h₂, h₃, h₄, h₅⟩, fun ⟨h₁, h₂, h₃, h₄, h₅⟩ => ⟨h₁, h₂, h₃, h₄, h₅⟩⟩

/-- A database that rounds ties up. -/
def strictDatabase : Database where
  update row u := if CharacterUpdate.Fits (fun x => round x.val) u then u.assign fun x => round x.val else row
  toInt x := round x.val

theorem strictDatabase_documented : strictDatabase.Documented where
  nearest x := by
    rw [abs_sub_comm]
    exact abs_sub_round x.val
  stored _ _ hfit := if_pos hfit
  refused _ _ hno := if_neg hno

/-- A character with one flag and the given experience. -/
def hero (exp : BitVec 64) : Character where
  x := .ofInt 6625
  y := .ofInt 6980
  z := .ofInt 0
  layer := 0
  exp := exp
  level := 50
  health := 100
  mana := 100
  stamina := 100
  jlv := 10
  jp := 0
  totalJp := 0
  prevJob := fun _ => 0
  prevJlv := fun _ => 0
  permission := 0
  job := 100
  gold := 500
  partyId := 0
  guildId := 0
  summon := fun _ => 0
  mainSummon := 0
  chaos := 0
  clientInfo := []
  flags := AList.singleton ['r', 'x'] ['1']

theorem hero_savable {exp : BitVec 64} (hexp : IsInt32 exp.toInt) : Savable (hero exp) := by
  have hlevel : (50 : BitVec 32) ≠ 0 := by decide
  have htext : (FlagList.write (AList.singleton ['r', 'x'] ['1'])).length ≤ 1000 := by decide
  refine ⟨hexp, ⟨⟨6625, by decide, rfl⟩, ⟨6980, by decide, rfl⟩, ⟨0, by decide, rfl⟩⟩, hlevel,
    fun key value hflag => ?_, htext, Nat.zero_le _⟩
  have hmem : (⟨key, value⟩ : Sigma fun _ : Text => Text) ∈ [⟨['r', 'x'], ['1']⟩] := AList.mem_lookup_iff.mp hflag
  obtain ⟨rfl, hvalue⟩ := Sigma.mk.inj (List.mem_singleton.mp hmem)
  obtain rfl := eq_of_heq hvalue
  refine ⟨?_, ?_, List.cons_ne_nil _ _⟩ <;> simp [FlagList.Plain]

end Character

end RZEmulator.Chihiro
