import RZEmulator.Lib.MachineInt
import RZEmulator.Chihiro.StateHold

/-!
# Saving a state and reading it back

`State::DB_InsertState`, `Player::ReadStateList` and `State::SetState`. The first of the three levels is saved by what remains
of it, the other two by their times, and of these only the first is read back. `roundTrip_iff` says which states come back as
they were.
-/

namespace RZEmulator.Chihiro

open Lib

/-- A `State` with what its damage depends on. -/
structure DamagingState extends State where
  m_nBaseDamage : StateType → Int
  m_nLastProcessedTime : Nat

/-- The columns of a row of the table `State` that are read again. -/
structure StateRow where
  code : Int
  level : StateType → Nat
  duration : StateType → Int
  remain_time : StateType → Int
  base_damage : StateType → Int
  remain_fire_time : Int

namespace DamagingState

/-- The fields have their widths. -/
structure InRange (s : DamagingState) : Prop where
  start : ∀ i, s.m_nStartTime i < 2 ^ 32
  last : s.m_nLastProcessedTime < 2 ^ 32
  stop : ∀ i, s.m_nEndTime i < 2 ^ 32

variable (fire_interval : Int → Option Int)

/-- `State::DB_InsertState` at the time `ct`, where `fire_interval` is that of `ObjectMgr::GetStateInfo`. -/
def insertState (s : DamagingState) (ct : Nat) : Option StateRow :=
  if s.m_bAura = true then none
  else (fire_interval s.m_nCode).map fun interval =>
    { code := s.m_nCode
      level := s.m_nLevel
      duration := fun i =>
        if i = SG_NORMAL then if s.m_nEndTime i ≤ ct then 0 else narrow32 (s.m_nEndTime i - s.m_nStartTime i)
        else narrow32 (s.m_nStartTime i)
      remain_time := fun i =>
        if i = SG_NORMAL then if s.m_nEndTime i = UNLIMITED then -1 else max (narrow32 (s.m_nEndTime i - ct)) 0
        else narrow32 (s.m_nEndTime i)
      base_damage := s.m_nBaseDamage
      remain_fire_time := narrow32 (s.m_nLastProcessedTime + (100 * interval - ct)) }

/-- `State::SetState` at the time `t`. -/
def setState (t : Nat) (code : Int) (uid caster : Nat) (info : Option StateTemplate) (levels durations : StateType → Nat)
    (remain_times : StateType → Int) (last_fire_time : Nat) (base_damage : StateType → Int) : DamagingState where
  m_nCode := code
  m_nUID := uid
  m_nLevel := levels
  m_hCaster := fun _ => caster
  m_nStartTime := fun i =>
    if durations i = 0 then 0
    else if wrap32 (durations i - remain_times i) < t then (wrap32 (t - wrap32 (durations i - remain_times i))).toNat else 0
  m_nEndTime := fun i =>
    if durations i = 0 then 0
    else if remain_times i = -1 then UNLIMITED else (wrap32 (t + remain_times i)).toNat
  m_bAura := false
  m_pTemplate := info
  m_nBaseDamage := base_damage
  m_nLastProcessedTime := last_fire_time

/-- A column of three that is read into the first element of an array of zeros. -/
def firstOf {α : Type} [Zero α] (column : StateType → α) (i : StateType) : α := if i = SG_NORMAL then column i else 0

/-- A turn of the loop of `Player::ReadStateList` at the time `t`. -/
def readState (info : Int → Option StateTemplate) (uid caster : Nat) (row : StateRow) (t : Nat) : Option DamagingState :=
  (fire_interval row.code).map fun interval =>
    setState t row.code uid caster (info row.code) (firstOf row.level) (firstOf fun i => (wrap32 (row.duration i)).toNat)
      (firstOf row.remain_time) (wrap32 (t + row.remain_fire_time - 100 * interval)).toNat (firstOf row.base_damage)

/-! ## The round trip -/

/-- What remains at the time `now` of a level that ends at `stop`; `none` is unlimited. -/
def remaining (stop now : Nat) : Option Nat := if stop = UNLIMITED then none else some (stop - now)

/-- The state `s'` at the time `t` is as `s` was at the time `ct`. -/
structure SameAt (s : DamagingState) (ct : Nat) (s' : DamagingState) (t : Nat) : Prop where
  code : s'.m_nCode = s.m_nCode
  level : ∀ i, s'.m_nLevel i = s.m_nLevel i
  remaining : ∀ i, remaining (s'.m_nEndTime i) t = remaining (s.m_nEndTime i) ct
  base_damage : ∀ i, s'.m_nBaseDamage i = s.m_nBaseDamage i
  fired : wrap32 (t - s'.m_nLastProcessedTime) = wrap32 (ct - s.m_nLastProcessedTime)

/-- The state is written at the time `ct`, and it is read back at the time `t` as it was. -/
def RoundTrip (info : Int → Option StateTemplate) (uid caster : Nat) (s : DamagingState) (ct t : Nat) : Prop :=
  ∃ row s', s.insertState fire_interval ct = some row ∧ readState fire_interval info uid caster row t = some s' ∧ SameAt s ct s' t

/-- The first level has expired; or it has a duration and is unlimited, or what remains of it can be added to `t`. -/
def FirstKept (s : DamagingState) (ct t : Nat) : Prop :=
  if s.m_nEndTime SG_NORMAL ≤ ct then s.m_nEndTime SG_NORMAL ≠ UNLIMITED
  else s.m_nStartTime SG_NORMAL ≠ s.m_nEndTime SG_NORMAL ∧
    (s.m_nEndTime SG_NORMAL ≠ UNLIMITED →
      s.m_nEndTime SG_NORMAL - ct < 2 ^ 31 ∧ t + (s.m_nEndTime SG_NORMAL - ct) < UNLIMITED)

/-- The level is not in use. -/
structure Unused (s : DamagingState) (ct : Nat) (i : StateType) : Prop where
  level : s.m_nLevel i = 0
  base_damage : s.m_nBaseDamage i = 0
  expired : s.m_nEndTime i ≤ ct ∧ s.m_nEndTime i ≠ UNLIMITED

/-- A state of one level, which is no aura. -/
structure Saved (s : DamagingState) (ct t : Nat) : Prop where
  aura : s.m_bAura = false
  interval : (fire_interval s.m_nCode).isSome = true
  first : s.FirstKept ct t
  others : ∀ i, i ≠ SG_NORMAL → s.Unused ct i

section

variable {fire_interval} {s : DamagingState} {ct t stop : Nat}

theorem remaining_eq_zero_iff : remaining 0 t = remaining stop ct ↔ stop ≤ ct ∧ stop ≠ UNLIMITED := by
  unfold remaining UNLIMITED
  by_cases hstop : stop = 2 ^ 32 - 1
  · rw [if_pos hstop, if_neg (by decide)]
    exact iff_of_false nofun fun h => h.2 hstop
  · rw [if_neg hstop, if_neg (by decide), Option.some.injEq]
    omega

/-- The end time that is read back for the first level. -/
theorem remaining_first_iff (hs : s.InRange) (hct : ct < 2 ^ 32) (ht : t < 2 ^ 32) :
    remaining (if (wrap32 (if s.m_nEndTime SG_NORMAL ≤ ct then 0
        else narrow32 (s.m_nEndTime SG_NORMAL - s.m_nStartTime SG_NORMAL))).toNat = 0 then 0
      else if (if s.m_nEndTime SG_NORMAL = UNLIMITED then -1 else max (narrow32 (s.m_nEndTime SG_NORMAL - ct)) 0) = -1 then UNLIMITED
      else (wrap32 (t + if s.m_nEndTime SG_NORMAL = UNLIMITED then -1 else max (narrow32 (s.m_nEndTime SG_NORMAL - ct)) 0)).toNat) t =
      remaining (s.m_nEndTime SG_NORMAL) ct ↔ s.FirstKept ct t := by
  have hstart := hs.start SG_NORMAL
  have hstop := hs.stop SG_NORMAL
  unfold FirstKept
  generalize s.m_nEndTime SG_NORMAL = stop at hstop
  generalize s.m_nStartTime SG_NORMAL = start at hstart
  by_cases hle : stop ≤ ct
  · rw [if_pos hle, if_pos hle]
    exact remaining_eq_zero_iff.trans ⟨And.right, fun h => ⟨hle, h⟩⟩
  · rw [if_neg hle, if_neg hle]
    by_cases hduration : start = stop
    · -- a level without a duration is read as one that is over
      have hzero : (wrap32 (narrow32 ((stop : Int) - start))).toNat = 0 := by
        unfold wrap32 narrow32
        omega
      rw [if_pos hzero]
      exact iff_of_false (fun h => hle (remaining_eq_zero_iff.mp h).1) fun h => h.1 hduration
    · have hpos : (wrap32 (narrow32 ((stop : Int) - start))).toNat ≠ 0 := by
        unfold wrap32 narrow32
        omega
      rw [if_neg hpos]
      by_cases hun : stop = UNLIMITED
      · rw [if_pos hun, if_pos rfl, hun]
        exact iff_of_true rfl ⟨hun ▸ hduration, fun h => absurd rfl h⟩
      · have hremain : max (narrow32 ((stop : Int) - ct)) 0 ≠ -1 := by omega
        rw [if_neg hun, if_neg hremain]
        have hvalue : max (narrow32 ((stop : Int) - ct)) 0 = if stop - ct < 2 ^ 31 then ((stop - ct : Nat) : Int) else 0 := by
          unfold narrow32
          split_ifs <;> omega
        rw [hvalue]
        unfold remaining wrap32 UNLIMITED at *
        split_ifs <;> simp_all <;> omega

variable {info : Int → Option StateTemplate} {uid caster : Nat} {interval : Int}

/-- The state that is read from the row that is written. -/
def readBack (s : DamagingState) (ct t : Nat) (interval : Int) (info : Option StateTemplate) (uid caster : Nat) : DamagingState :=
  setState t s.m_nCode uid caster info (firstOf s.m_nLevel)
    (firstOf fun i => (wrap32 (if i = SG_NORMAL then
      if s.m_nEndTime i ≤ ct then 0 else narrow32 (s.m_nEndTime i - s.m_nStartTime i) else narrow32 (s.m_nStartTime i))).toNat)
    (firstOf fun i => if i = SG_NORMAL then
      if s.m_nEndTime i = UNLIMITED then -1 else max (narrow32 (s.m_nEndTime i - ct)) 0 else narrow32 (s.m_nEndTime i))
    (wrap32 (t + narrow32 (s.m_nLastProcessedTime + (100 * interval - ct)) - 100 * interval)).toNat (firstOf s.m_nBaseDamage)

theorem roundTrip_iff_readBack (haura : s.m_bAura = false) (hinterval : fire_interval s.m_nCode = some interval) :
    RoundTrip fire_interval info uid caster s ct t ↔ SameAt s ct (readBack s ct t interval (info s.m_nCode) uid caster) t := by
  unfold RoundTrip insertState readState
  rw [if_neg (by rw [haura]; exact Bool.false_ne_true), hinterval]
  constructor
  · rintro ⟨row, s', hrow, hs', hsame⟩
    obtain rfl := Option.some.inj hrow
    dsimp only at hs'
    rw [hinterval] at hs'
    obtain rfl := Option.some.inj hs'
    exact hsame
  · intro hsame
    refine ⟨_, _, rfl, ?_, hsame⟩
    dsimp only
    rw [hinterval]
    rfl

/-- The time since the last damage comes back in any case. -/
theorem readBack_fired (hs : s.InRange) :
    wrap32 (t - (wrap32 (t + narrow32 (s.m_nLastProcessedTime + (100 * interval - ct)) - 100 * interval)).toNat) =
      wrap32 (ct - s.m_nLastProcessedTime) := by
  have hlast := hs.last
  unfold wrap32 narrow32
  omega

theorem readBack_other_iff {i : StateType} (hi : i ≠ SG_NORMAL) :
    ((readBack s ct t interval (info s.m_nCode) uid caster).m_nLevel i = s.m_nLevel i ∧
      remaining ((readBack s ct t interval (info s.m_nCode) uid caster).m_nEndTime i) t = remaining (s.m_nEndTime i) ct ∧
      (readBack s ct t interval (info s.m_nCode) uid caster).m_nBaseDamage i = s.m_nBaseDamage i) ↔ s.Unused ct i := by
  have hlevel : (readBack s ct t interval (info s.m_nCode) uid caster).m_nLevel i = 0 := if_neg hi
  have hdamage : (readBack s ct t interval (info s.m_nCode) uid caster).m_nBaseDamage i = 0 := if_neg hi
  have hend : (readBack s ct t interval (info s.m_nCode) uid caster).m_nEndTime i = 0 := if_pos (if_neg hi)
  rw [hlevel, hdamage, hend, remaining_eq_zero_iff]
  exact ⟨fun h => ⟨h.1.symm, h.2.2.symm, h.2.1⟩, fun h => ⟨h.level.symm, h.expired, h.base_damage.symm⟩⟩

theorem readBack_first_iff (hs : s.InRange) (hct : ct < 2 ^ 32) (ht : t < 2 ^ 32) :
    remaining ((readBack s ct t interval (info s.m_nCode) uid caster).m_nEndTime SG_NORMAL) t =
      remaining (s.m_nEndTime SG_NORMAL) ct ↔ s.FirstKept ct t := by
  rw [← remaining_first_iff hs hct ht]
  unfold readBack setState firstOf
  dsimp only
  rw [if_pos rfl, if_pos rfl, if_pos rfl, if_pos rfl]

/-- A state comes back as it was if and only if it is no aura and has one level, which is kept. -/
theorem roundTrip_iff (hs : s.InRange) (hct : ct < 2 ^ 32) (ht : t < 2 ^ 32) :
    RoundTrip fire_interval info uid caster s ct t ↔ Saved fire_interval s ct t := by
  by_cases haura : s.m_bAura = true
  · refine iff_of_false ?_ fun h => Bool.false_ne_true (h.aura.symm.trans haura)
    rintro ⟨row, s', hrow, -⟩
    rw [insertState, if_pos haura] at hrow
    cases hrow
  have haura : s.m_bAura = false := Bool.eq_false_iff.mpr haura
  cases hinterval : fire_interval s.m_nCode with
  | none =>
    refine iff_of_false ?_ fun h => ?_
    · rintro ⟨row, s', hrow, -⟩
      rw [insertState, if_neg (by rw [haura]; exact Bool.false_ne_true), hinterval] at hrow
      cases hrow
    · have hsome := h.interval
      rw [hinterval] at hsome
      cases hsome
  | some interval =>
    rw [roundTrip_iff_readBack haura hinterval]
    constructor
    · intro hsame
      refine ⟨haura, by rw [hinterval]; rfl, (readBack_first_iff hs hct ht).mp (hsame.remaining SG_NORMAL), fun i hi => ?_⟩
      exact (readBack_other_iff hi).mp ⟨hsame.level i, hsame.remaining i, hsame.base_damage i⟩
    · intro hsaved
      have hothers : ∀ i, i ≠ SG_NORMAL →
          (readBack s ct t interval (info s.m_nCode) uid caster).m_nLevel i = s.m_nLevel i ∧
            remaining ((readBack s ct t interval (info s.m_nCode) uid caster).m_nEndTime i) t = remaining (s.m_nEndTime i) ct ∧
            (readBack s ct t interval (info s.m_nCode) uid caster).m_nBaseDamage i = s.m_nBaseDamage i :=
        fun i hi => (readBack_other_iff hi).mpr (hsaved.others i hi)
      refine ⟨rfl, fun i => ?_, fun i => ?_, fun i => ?_, readBack_fired hs⟩
      · by_cases hi : i = SG_NORMAL
        · exact if_pos hi
        · exact (hothers i hi).1
      · by_cases hi : i = SG_NORMAL
        · rw [hi]
          exact (readBack_first_iff hs hct ht).mpr hsaved.first
        · exact (hothers i hi).2.1
      · by_cases hi : i = SG_NORMAL
        · exact if_pos hi
        · exact (hothers i hi).2.2

end

/-- A state of the first level and one of the second, from 10 to 100, of the level 3 and with the damage 7. -/
def levelAt (type : StateType) : DamagingState where
  m_nCode := 1001
  m_nUID := 1
  m_nLevel i := if i = type then 3 else 0
  m_hCaster _ := 0
  m_nStartTime i := if i = type then 10 else 0
  m_nEndTime i := if i = type then 100 else 0
  m_bAura := false
  m_pTemplate := some {}
  m_nBaseDamage i := if i = type then 7 else 0
  m_nLastProcessedTime := 20

theorem levelAt_inRange (type : StateType) : (levelAt type).InRange := by
  have hlast : 20 < 2 ^ 32 := by decide
  refine ⟨fun i => ?_, hlast, fun i => ?_⟩
  · unfold levelAt
    dsimp only
    split_ifs <;> decide
  · unfold levelAt
    dsimp only
    split_ifs <;> decide

theorem roundTrip_levelAt : RoundTrip (fun _ => some 5) (fun _ => some {}) 2 9 (levelAt SG_NORMAL) 40 1000 ↔
    Saved (fun _ => some 5) (levelAt SG_NORMAL) 40 1000 :=
  roundTrip_iff (levelAt_inRange SG_NORMAL) (by decide) (by decide)

/-- The second level is lost: nothing of it is read. -/
theorem not_roundTrip_levelAt :
    ¬RoundTrip (fun _ => some 5) (fun _ => some {}) 2 9 (levelAt SG_DUPLICATE) 40 1000 := by
  rintro ⟨row, s', hrow, hs', hsame⟩
  obtain rfl := Option.some.inj hrow
  obtain rfl := Option.some.inj hs'
  exact absurd (hsame.level SG_DUPLICATE) (by decide)

end DamagingState

end RZEmulator.Chihiro
