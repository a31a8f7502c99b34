import Mathlib.Order.Bounds.Basic
import Mathlib.Algebra.Order.Ring.Int
import RZEmulator.Lib.MachineInt

/-!
# Level from experience

`Player::onExpChange` and `Summon::onExpChange` with `ObjectMgr::GetNeedExp` and `ObjectMgr::GetNeedSummonExp`. The tables
are maps that are read with `operator[]`, so a key that is not there is put in with the value 0 by being read. How often the
script `on_player_level_up` runs and what job points a summon gets are the rewards.
-/

namespace RZEmulator.Chihiro

/-- A map from levels to experience, and its `size()`. -/
structure LevelStore where
  rows : Int → Option Nat
  size : Nat

namespace LevelStore

/-- `operator[]`. -/
def at' (s : LevelStore) (l : Int) : Nat × LevelStore :=
  match s.rows l with
  | some need => (need, s)
  | none => (0, ⟨fun k => if k = l then some 0 else s.rows k, s.size + 1⟩)

/-- The level whose row `GetNeedExp` goes by, in a store of the given size. -/
def needLevel (size : Nat) (level : Int) : Int :=
  let l := if level < 1 then 1 else level
  let l := if l > 300 then 300 else l
  if (size : Int) < l then (size : Int) - 1 else l

/-- `ObjectMgr::GetNeedExp`. -/
def getNeedExp (s : LevelStore) (level : Int) : Nat × LevelStore := s.at' (needLevel s.size level - 1)

theorem needLevel_eq_self {size : Nat} {level : Int} (h1 : 1 ≤ level) (h300 : level ≤ 300) (hsize : level ≤ size) :
    needLevel size level = level := by
  unfold needLevel
  dsimp only
  split_ifs <;> omega

theorem needLevel_eq_300 {size : Nat} {level : Int} (h300 : 300 ≤ level) (hsize : 300 ≤ size) : needLevel size level = 300 := by
  unfold needLevel
  dsimp only
  split_ifs <;> omega

theorem needLevel_beyond {size : Nat} (hsize : size < 300) : needLevel size (size + 1) = size - 1 := by
  unfold needLevel
  dsimp only
  split_ifs <;> omega

/-- `ObjectMgr::GetNeedSummonExp`. -/
def getNeedSummonExp (s : LevelStore) (level : Int) : Nat × LevelStore :=
  if level ≤ 300 ∧ level > 0 then s.at' level else (0, s)

/-- The store of a table whose rows are for the levels 1, 2, .. -/
def ofTable (T : List Nat) : LevelStore := ⟨fun l => if 1 ≤ l then T[(l - 1).toNat]? else none, T.length⟩

/-- The loop of `Player::onExpChange`, for the number of levels that are left below 300. -/
def levelLoop (exp : Nat) : Nat → Int → LevelStore → Int × LevelStore
  | 0, level, s => (level, s)
  | n + 1, level, s =>
    let r := s.getNeedExp (level + 1)
    if r.1 ≤ exp then levelLoop exp n (level + 1) r.2 else (level + 1, r.2)

end LevelStore

/-- What `onExpChange` leaves: the level of the unit, the rewards and the table. -/
structure LevelChange where
  level : Int
  rewards : Nat
  store : LevelStore

open LevelStore

/-- The level that `Player::onExpChange` finds, and what it leaves of the table. -/
def expLevel (s : LevelStore) (exp : Nat) : Int × LevelStore :=
  let r := s.getNeedExp 1
  let r := if r.1 ≤ exp then levelLoop exp 299 1 r.2 else (1, r.2)
  (r.1 - 1, r.2)

/-- `Player::onExpChange` of a player of the level `oldLevel`. -/
def Player.onExpChange (s : LevelStore) (exp : Nat) (oldLevel : Int) : LevelChange :=
  let r := expLevel s exp
  if r.1 ≠ 0 ∧ r.1 ≠ oldLevel then ⟨r.1 % 256, if r.1 < oldLevel then 0 else 1, r.2⟩
  else ⟨oldLevel, 0, r.2⟩

/-- The forms of a summon, by the number `oblv` above which it does not rise. -/
def formLimit (form : Int) : Option Nat :=
  if form = 1 then some 60 else if form = 2 then some 115 else if form = 3 then some 170 else none

/-- The loop of `Summon::onExpChange`, for the number of levels that are left below `oblv`. -/
def summonLoop (exp : Nat) (oldLevel : Int) (oblv : Nat) : Nat → Int → Nat → LevelStore → (Int × Nat) × LevelStore
  | 0, level, jp, s => ((level, jp), s)
  | n + 1, level, jp, s =>
    let r := s.getNeedSummonExp level
    if r.1 = 0 ∨ r.1 > exp then ((level, jp), r.2)
    else
      summonLoop exp oldLevel oblv n (level + 1)
        (if oldLevel < level + 1 then if level + 1 > oblv then jp + 2 else jp + 1 else jp) r.2

/-- `Summon::onExpChange` of a summon of the level `oldLevel`; its rewards are the job points. -/
def Summon.onExpChange (s : LevelStore) (form : Int) (exp : Nat) (oldLevel : Int) : LevelChange :=
  match formLimit form with
  | none => ⟨oldLevel, 0, s⟩
  | some oblv =>
    let r := summonLoop exp oldLevel oblv (oblv - 1) 1 0 s
    if r.1.1 ≠ 0 ∧ r.1.1 ≠ oldLevel then ⟨r.1.1, if r.1.1 - oldLevel ≤ 0 then 0 else r.1.2, r.2⟩
    else ⟨oldLevel, 0, r.2⟩

/-! ## What the level should be -/

section

variable {T : List Nat} {s : LevelStore} {exp e oldLevel maxLevel L k n : Nat} {l : Int}

/-- The experience that a level requires: nothing for the first, and for another one what the row before it says. -/
def required (T : List Nat) (L : Nat) : Nat := if L ≤ 1 then 0 else T.getD (L - 2) 0

/-- The levels of the table, up to the configured maximum, whose required experience is reached. -/
def reachedLevels (T : List Nat) (maxLevel exp : Nat) : Set Int :=
  {l | ∃ L : Nat, l = L ∧ 1 ≤ L ∧ L ≤ T.length ∧ L ≤ maxLevel ∧ required T L ≤ exp}

/-- The store as it has been loaded, or when the level 0 has been put in. -/
def Reached (T : List Nat) (s : LevelStore) : Prop := s = ofTable T ∨ s = ((ofTable T).at' 0).2

/-- The levels, the rewards and the lookups are as they should be, for a player of the level `oldLevel` and every amount of
experience up to `exp`. -/
structure LevelsRight (T : List Nat) (maxLevel oldLevel exp : Nat) : Prop where
  level : ∀ s, Reached T s → ∀ e ≤ exp, IsGreatest (reachedLevels T maxLevel e) (Player.onExpChange s e oldLevel).level
  mono : ∀ s, Reached T s → ∀ e ≤ exp, ∀ e' ≤ e,
    (Player.onExpChange s e' oldLevel).level ≤ (Player.onExpChange s e oldLevel).level
  rewards : ∀ s, Reached T s →
    ((Player.onExpChange s exp oldLevel).rewards : Int) = max ((Player.onExpChange s exp oldLevel).level - oldLevel) 0
  summonRewards : ∀ (s : LevelStore) (form : Int) (exp : Nat) (old : Int), 1 ≤ old →
    ((Summon.onExpChange s form exp old).rewards : Int) = max ((Summon.onExpChange s form exp old).level - old) 0
  lookup : ∀ s, Reached T s → ∀ l : Int, T.length < l →
    (s.getNeedExp l).2 = s ∧ (s.getNeedExp (l - 1)).1 ≤ (s.getNeedExp l).1

/-- The table is as long as the levels that are looked up, and the experience is below what is required for the level after
the configured maximum, after 255 and after the next one of the player. -/
def Modest (T : List Nat) (maxLevel oldLevel exp : Nat) : Prop :=
  300 ≤ T.length ∧ exp < required T (min (min maxLevel 255) (oldLevel + 1) + 1)

/-! ## Lookups -/

theorem rows_ofTable (hL : 1 ≤ L) : (ofTable T).rows L = T[L - 1]? := by
  unfold ofTable
  dsimp only
  rw [if_pos (by omega)]
  congr 1
  omega

theorem rows_ofTable_of_lt (hl : l < 1) : (ofTable T).rows l = none := if_neg (not_le.mpr hl)

theorem at'_ofTable_zero : (ofTable T).at' 0 = (0, ((ofTable T).at' 0).2) := by
  unfold at'
  rw [rows_ofTable_of_lt (by omega)]

theorem rows_zeroed (hL : 1 ≤ L) : ((ofTable T).at' 0).2.rows L = T[L - 1]? := by
  unfold at'
  rw [rows_ofTable_of_lt (by omega)]
  dsimp only
  rw [if_neg (by omega), rows_ofTable hL]

theorem Reached.rows (hs : Reached T s) (hL : 1 ≤ L) : s.rows L = T[L - 1]? := by
  rcases hs with rfl | rfl
  · exact rows_ofTable hL
  · exact rows_zeroed hL

theorem Reached.length_le (hs : Reached T s) : T.length ≤ s.size := by
  rcases hs with rfl | rfl
  · exact le_rfl
  · unfold at'
    rw [rows_ofTable_of_lt (by omega)]
    exact Nat.le_succ _

/-- A level of the table is looked up in its own row. -/
theorem Reached.at'_eq (hs : Reached T s) (hL : 1 ≤ L) (hlen : L ≤ T.length) : s.at' L = (T.getD (L - 1) 0, s) := by
  have hlt : L - 1 < T.length := by omega
  unfold at'
  rw [hs.rows hL, List.getD_eq_getElem?_getD, List.getElem?_eq_getElem hlt]
  rfl

theorem Reached.at'_zero (hs : Reached T s) : s.at' 0 = (0, ((ofTable T).at' 0).2) := by
  rcases hs with rfl | rfl
  · exact at'_ofTable_zero
  · have hrow : ((ofTable T).at' 0).2.rows 0 = some 0 := by
      unfold at'
      rw [rows_ofTable_of_lt (by omega)]
      rfl
    unfold at' at hrow ⊢
    rw [hrow]

/-- What a level of a long table requires, and what its lookup leaves. -/
theorem Reached.getNeedExp (hs : Reached T s) (hT : 300 ≤ T.length) (hL : 1 ≤ L) (hle : L ≤ 300) :
    s.getNeedExp L = (required T L, if L = 1 then ((ofTable T).at' 0).2 else s) := by
  have hsize := hs.length_le
  unfold LevelStore.getNeedExp required
  rw [needLevel_eq_self (by omega) (by omega) (by omega)]
  by_cases hone : L = 1
  · subst hone
    exact hs.at'_zero
  · rw [if_neg (by omega), if_neg hone, show (L : Int) - 1 = ((L - 1 : Nat) : Int) by omega,
      hs.at'_eq (by omega) (by omega)]
    rfl

/-! ## What the levels require -/

theorem required_le (hinc : T.Pairwise (· < ·)) (hle : L ≤ k) (hlen : k ≤ T.length + 1) : required T L ≤ required T k := by
  unfold required
  by_cases hL : L ≤ 1
  · rw [if_pos hL]
    exact Nat.zero_le _
  · have hk : k - 2 < T.length := by omega
    rw [if_neg hL, if_neg (by omega), List.getD_eq_getElem?_getD, List.getD_eq_getElem?_getD,
      List.getElem?_eq_getElem hk, List.getElem?_eq_getElem (by omega)]
    rcases (show L - 2 ≤ k - 2 by omega).lt_or_eq with hlt | heq
    · exact (List.pairwise_iff_getElem.mp hinc (L - 2) (k - 2) (by omega) hk hlt).le
    · exact le_of_eq (by simp only [heq])

theorem required_lt (hinc : T.Pairwise (· < ·)) (hL : 2 ≤ L) (hlt : L < k) (hlen : k ≤ T.length + 1) :
    required T L < required T k := by
  have hk : k - 2 < T.length := by omega
  unfold required
  rw [if_neg (by omega), if_neg (by omega), List.getD_eq_getElem?_getD, List.getD_eq_getElem?_getD,
    List.getElem?_eq_getElem hk, List.getElem?_eq_getElem (by omega)]
  exact List.pairwise_iff_getElem.mp hinc (L - 2) (k - 2) (by omega) hk (by omega)

/-! ## The loop of the player -/

theorem levelLoop_spec (hs : Reached T s) (hT : 300 ≤ T.length) (n : Nat) (hL : 1 ≤ L) (hn : L + n = 300)
    (hreq : required T L ≤ e) : ∃ k : Nat, (levelLoop e n L s).1 = k ∧
      ((k = 300 ∧ required T 300 ≤ e) ∨ (L < k ∧ k ≤ 300 ∧ required T (k - 1) ≤ e ∧ e < required T k)) := by
  induction n generalizing L with
  | zero =>
    obtain rfl : L = 300 := by omega
    exact ⟨300, rfl, .inl ⟨rfl, hreq⟩⟩
  | succ n ih =>
    have hneed := hs.getNeedExp hT (L := L + 1) (by omega) (by omega)
    rw [if_neg (by omega), Nat.cast_succ] at hneed
    unfold levelLoop
    rw [hneed]
    dsimp only
    by_cases hle : required T (L + 1) ≤ e
    · rw [if_pos hle]
      obtain ⟨k, hk, h⟩ := ih (L := L + 1) (by omega) (by omega) hle
      refine ⟨k, by rw [← hk, Nat.cast_succ], h.imp_right fun h => ⟨by omega, h.2⟩⟩
    · rw [if_neg hle]
      exact ⟨L + 1, by rw [Nat.cast_succ], .inr ⟨by omega, by omega, hreq, not_le.mp hle⟩⟩

/-- **The level that is found** in a long table: the one whose requirement is reached and that of the next one not, or 299. -/
theorem expLevel_spec (hs : Reached T s) (hT : 300 ≤ T.length) (e : Nat) :
    ∃ k : Nat, (expLevel s e).1 = k ∧ 1 ≤ k ∧ k ≤ 299 ∧
      ((k = 299 ∧ required T 300 ≤ e) ∨ (required T k ≤ e ∧ e < required T (k + 1))) := by
  have hneed := hs.getNeedExp hT (L := 1) le_rfl (by omega)
  rw [if_pos rfl, Nat.cast_one] at hneed
  obtain ⟨k, hk, h⟩ := levelLoop_spec (s := ((ofTable T).at' 0).2) (.inr rfl) hT 299 (L := 1) le_rfl rfl
    (e := e) (Nat.zero_le _)
  have hlevel : (expLevel s e).1 = k - 1 := by
    unfold expLevel
    rw [hneed]
    dsimp only
    rw [if_pos (show required T 1 ≤ e from Nat.zero_le _), ← Nat.cast_one, hk]
  rcases h with ⟨rfl, h⟩ | ⟨hlt, hle, hreq, hnext⟩
  · exact ⟨299, hlevel, by omega, le_rfl, .inl ⟨rfl, h⟩⟩
  · refine ⟨k - 1, by rw [hlevel]; omega, by omega, by omega, .inr ⟨hreq, ?_⟩⟩
    rw [show k - 1 + 1 = k by omega]
    exact hnext

/-- What the player's level becomes. -/
theorem onExpChange_of_level (hk : (expLevel s e).1 = k) (hpos : 1 ≤ k) :
    (Player.onExpChange s e oldLevel).level = (if (k : Int) = oldLevel then k else k % 256 : Int) ∧
      (Player.onExpChange s e oldLevel).rewards = if oldLevel < k then 1 else 0 := by
  unfold Player.onExpChange
  dsimp only
  rw [hk]
  by_cases heq : (k : Int) = oldLevel
  · rw [if_neg (fun h => h.2 heq), if_pos heq, if_neg (by omega)]
    exact ⟨heq.symm, rfl⟩
  · rw [if_pos ⟨by omega, heq⟩, if_neg heq]
    refine ⟨rfl, ?_⟩
    dsimp only
    split_ifs <;> omega

/-! ## The summon -/

theorem summonLoop_spec (old : Int) (oblv n : Nat) (level : Int) (jp : Nat) (s : LevelStore) (hn : level + n ≤ oblv)
    (hjp : (jp : Int) = max (level - old) 0) :
    ((summonLoop e old oblv n level jp s).1.2 : Int) = max ((summonLoop e old oblv n level jp s).1.1 - old) 0 := by
  induction n generalizing level jp s with
  | zero => exact hjp
  | succ n ih =>
    unfold summonLoop
    dsimp only
    split_ifs with hneed hold hlimit
    · exact hjp
    · omega
    · exact ih _ _ _ (by omega) (by omega)
    · exact ih _ _ _ (by omega) (by omega)

/-- **The job points of a summon**: one for each level that it rises. -/
theorem summon_rewards (s : LevelStore) (form : Int) (exp : Nat) (old : Int) (hold : 1 ≤ old) :
    ((Summon.onExpChange s form exp old).rewards : Int) = max ((Summon.onExpChange s form exp old).level - old) 0 := by
  have hlimit : ∀ oblv, formLimit form = some oblv → 1 ≤ oblv := by
    intro oblv h
    unfold formLimit at h
    split_ifs at h
    all_goals
      have := Option.some.inj h
      omega
  unfold Summon.onExpChange
  cases hform : formLimit form with
  | none =>
    dsimp only
    omega
  | some oblv =>
    have := hlimit oblv hform
    have hjp := summonLoop_spec (e := exp) old oblv (oblv - 1) 1 0 s (by omega) (by omega)
    dsimp only
    split_ifs
    · dsimp only
      omega
    · exact hjp
    · dsimp only
      omega

/-! ## When the levels are right -/

/-- The largest level that is reached is the one whose requirement is reached and that of the next one not. -/
theorem isGreatest_reachedLevels (hinc : T.Pairwise (· < ·)) (hk : 1 ≤ k) (hlen : k ≤ T.length) (hmax : k ≤ maxLevel)
    (hreq : required T k ≤ e) (hnext : e < required T (k + 1)) : IsGreatest (reachedLevels T maxLevel e) k := by
  refine ⟨⟨k, rfl, hk, hlen, hmax, hreq⟩, ?_⟩
  rintro _ ⟨L, rfl, -, hL, -, hreqL⟩
  by_contra hnot
  have hle := required_le hinc (L := k + 1) (k := L) (by omega) (by omega)
  omega

/-- A lookup beyond a long table reads the row 299 and changes nothing. -/
theorem Reached.lookup_beyond (hs : Reached T s) (hT : 300 ≤ T.length) (hl : 300 ≤ l) :
    s.getNeedExp l = (required T 300, s) := by
  have h300 := hs.getNeedExp hT (L := 300) (by omega) le_rfl
  rw [if_neg (by omega)] at h300
  have hsize := hs.length_le
  rw [← h300]
  unfold LevelStore.getNeedExp
  rw [needLevel_eq_300 hl (by omega), needLevel_eq_300 (le_refl ((300 : Nat) : Int)) (by omega)]

/-- Up to modest experience the level that is found is the one that is set. -/
theorem Modest.level (hm : Modest T maxLevel oldLevel exp) (hinc : T.Pairwise (· < ·)) (hs : Reached T s) (he : e ≤ exp) :
    ∃ k : Nat, (Player.onExpChange s e oldLevel).level = k ∧
      (Player.onExpChange s e oldLevel).rewards = (if oldLevel < k then 1 else 0) ∧
      1 ≤ k ∧ k ≤ min (min maxLevel 255) (oldLevel + 1) ∧ required T k ≤ e ∧ e < required T (k + 1) := by
  obtain ⟨hT, hexp⟩ := hm
  obtain ⟨k, hlevel, hpos, hle, h⟩ := expLevel_spec hs hT e
  have hbound : min (min maxLevel 255) (oldLevel + 1) ≤ 255 := by omega
  have hreq : required T k ≤ e ∧ e < required T (k + 1) := by
    refine h.resolve_left fun h => ?_
    have := required_le hinc (L := min (min maxLevel 255) (oldLevel + 1) + 1) (k := 300) (by omega) (by omega)
    omega
  have hk : k ≤ min (min maxLevel 255) (oldLevel + 1) := by
    by_contra hnot
    have := required_le hinc (L := min (min maxLevel 255) (oldLevel + 1) + 1) (k := k) (by omega) (by omega)
    omega
  refine ⟨k, ?_, (onExpChange_of_level hlevel hpos).2, hpos, hk, hreq.1, hreq.2⟩
  rw [(onExpChange_of_level hlevel hpos).1]
  split_ifs <;> omega

theorem Modest.right (hm : Modest T maxLevel oldLevel exp) (hinc : T.Pairwise (· < ·)) :
    LevelsRight T maxLevel oldLevel exp := by
  have hT := hm.1
  refine ⟨fun s hs e he => ?_, fun s hs e he e' he' => ?_, fun s hs => ?_, summon_rewards, fun s hs l hl => ?_⟩
  · obtain ⟨k, hk, -, hpos, hle, hreq, hnext⟩ := hm.level hinc hs he
    rw [hk]
    exact isGreatest_reachedLevels hinc hpos (by omega) (by omega) hreq hnext
  · obtain ⟨k, hk, -, -, hle, -, hnext⟩ := hm.level hinc hs he
    obtain ⟨k', hk', -, -, hle', hreq', -⟩ := hm.level hinc hs (he'.trans he)
    rw [hk, hk']
    by_contra hnot
    have := required_le hinc (L := k + 1) (k := k') (by omega) (by omega)
    omega
  · obtain ⟨k, hk, hrewards, -, hle, -, -⟩ := hm.level hinc hs le_rfl
    rw [hk, hrewards]
    split_ifs <;> omega
  · rw [hs.lookup_beyond hT (by omega), hs.lookup_beyond hT (by omega)]
    exact ⟨rfl, le_rfl⟩

/-- A lookup beyond a short table puts a row in, or falls back to an earlier row. -/
theorem LevelsRight.long (hr : LevelsRight T maxLevel oldLevel exp) (hinc : T.Pairwise (· < ·)) : 300 ≤ T.length := by
  by_contra hnot
  obtain ⟨hstore, hle⟩ := hr.lookup (ofTable T) (.inl rfl) (T.length + 1) (by omega)
  have hbeyond : (ofTable T).getNeedExp (T.length + 1) = (ofTable T).at' (T.length - 2) := by
    unfold LevelStore.getNeedExp
    rw [show (ofTable T).size = T.length from rfl, needLevel_beyond (by omega), sub_sub]
    rfl
  by_cases hshort : T.length ≤ 2
  · rw [hbeyond] at hstore
    have hsize := congrArg LevelStore.size hstore
    unfold at' at hsize
    rw [rows_ofTable_of_lt (by omega)] at hsize
    exact Nat.succ_ne_self _ hsize
  · have hlast : (ofTable T).getNeedExp (T.length + 1 - 1) = (ofTable T).at' (T.length - 1) := by
      unfold LevelStore.getNeedExp
      rw [show (ofTable T).size = T.length from rfl, Int.add_sub_cancel,
        needLevel_eq_self (by omega) (by omega) (by omega)]
    have hreached : Reached T (ofTable T) := .inl rfl
    have hsecond : (ofTable T).at' (T.length - 2) = (T.getD (T.length - 2 - 1) 0, ofTable T) := by
      rw [← hreached.at'_eq (L := T.length - 2) (by omega) (by omega)]
      congr 1
      omega
    have hfirst : (ofTable T).at' (T.length - 1) = (T.getD (T.length - 1 - 1) 0, ofTable T) := by
      rw [← hreached.at'_eq (L := T.length - 1) (by omega) (by omega)]
      congr 1
      omega
    rw [hbeyond, hlast, hsecond, hfirst] at hle
    have hlt := required_lt hinc (L := T.length - 1) (k := T.length) (by omega) (by omega) (by omega)
    unfold required at hlt
    rw [if_neg (by omega), if_neg (by omega), show T.length - 1 - 2 = T.length - 2 - 1 by omega] at hlt
    exact absurd hle (not_le.mpr hlt)

/-- A level above what is configured, or above 255, is not reached. -/
theorem LevelsRight.below_cap (hr : LevelsRight T maxLevel oldLevel exp) (hinc : T.Pairwise (· < ·)) (hold : oldLevel < 256)
    (hcap : min maxLevel 255 ≤ oldLevel + 1) : exp < required T (min maxLevel 255 + 1) := by
  have hT := hr.long hinc
  have hs : Reached T (ofTable T) := .inl rfl
  by_contra hnot
  rw [not_lt] at hnot
  -- the first amount of experience for which the level is too high
  have hgreatest := hr.level _ hs _ hnot
  obtain ⟨L, hL, hpos, -, hmax, -⟩ := hgreatest.1
  obtain ⟨k, hlevel, hk, hle, h⟩ := expLevel_spec hs hT (required T (min maxLevel 255 + 1))
  have hreq : required T k ≤ required T (min maxLevel 255 + 1) ∧
      required T (min maxLevel 255 + 1) < required T (k + 1) := by
    refine h.resolve_left fun h => ?_
    have := required_lt hinc (L := min maxLevel 255 + 1) (k := 300) (by omega) (by omega) (by omega)
    omega
  have hkeq : k = min maxLevel 255 + 1 := by
    rcases lt_trichotomy k (min maxLevel 255 + 1) with hlt | heq | hgt
    · have := required_le hinc (L := k + 1) (k := min maxLevel 255 + 1) (by omega) (by omega)
      omega
    · exact heq
    · have := required_lt hinc (L := min maxLevel 255 + 1) (k := k) (by omega) hgt (by omega)
      omega
  rw [(onExpChange_of_level hlevel hk).1] at hL
  split_ifs at hL <;> omega

/-- The level after the next one is not reached, since only one reward is given. -/
theorem LevelsRight.below_next (hr : LevelsRight T maxLevel oldLevel exp) (hinc : T.Pairwise (· < ·))
    (hcap : oldLevel + 1 < min maxLevel 255) : exp < required T (oldLevel + 1 + 1) := by
  have hT := hr.long hinc
  have hs : Reached T (ofTable T) := .inl rfl
  by_contra hnot
  rw [not_lt] at hnot
  obtain ⟨k, hlevel, hk, hle, h⟩ := expLevel_spec hs hT exp
  have hgt : oldLevel + 2 ≤ k := by
    rcases h with ⟨rfl, -⟩ | ⟨-, hnext⟩
    · omega
    · by_contra hlt
      have := required_le hinc (L := k + 1) (k := oldLevel + 1 + 1) (by omega) (by omega)
      omega
  have hmem : ((oldLevel + 2 : Nat) : Int) ∈ reachedLevels T maxLevel exp :=
    ⟨oldLevel + 2, rfl, by omega, by omega, by omega, hnot⟩
  have hge := (hr.level _ hs exp le_rfl).2 hmem
  have hrewards := hr.rewards _ hs
  rw [(onExpChange_of_level hlevel hk).2, if_pos (by omega)] at hrewards
  omega

/-- **The levels are right** exactly where the table is long and the experience modest. -/
theorem levelsRight_iff (hinc : T.Pairwise (· < ·)) (hold : oldLevel < 256) :
    LevelsRight T maxLevel oldLevel exp ↔ Modest T maxLevel oldLevel exp := by
  refine ⟨fun hr => ⟨hr.long hinc, ?_⟩, fun hm => hm.right hinc⟩
  by_cases hcap : min maxLevel 255 ≤ oldLevel + 1
  · rw [min_eq_left hcap]
    exact hr.below_cap hinc hold hcap
  · rw [min_eq_right (by omega)]
    exact hr.below_next hinc (by omega)

/-- A table of 300 levels, each of which requires 100 more than the one before. -/
def evenTable : List Nat := (List.range 300).map fun i => 100 * (i + 1)

theorem evenTable_increasing : evenTable.Pairwise (· < ·) := by
  unfold evenTable
  rw [List.pairwise_map]
  refine List.pairwise_lt_range.imp fun h => ?_
  omega

/-- A player of the level 4 with the experience 450 rises to the level 5. -/
theorem levelsRight_even : LevelsRight evenTable 150 4 450 := by
  refine (levelsRight_iff evenTable_increasing (by decide)).mpr ⟨?_, ?_⟩
  · unfold evenTable
    rw [List.length_map, List.length_range]
  · decide +kernel

/-- **Failing input**: a table of the two levels that require 100 and 300. -/
theorem not_levelsRight : ¬∀ (T : List Nat) (maxLevel oldLevel exp : Nat), T.Pairwise (· < ·) → oldLevel < 256 →
    LevelsRight T maxLevel oldLevel exp := by
  intro hall
  have hinc : [100, 300].Pairwise (· < ·) := by decide
  exact absurd ((hall [100, 300] 150 1 350 hinc (by decide)).long hinc) (by decide)

end

end RZEmulator.Chihiro
