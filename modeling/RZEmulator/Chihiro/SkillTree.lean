import Mathlib.Data.List.FinRange
import Mathlib.Logic.Function.Basic
import RZEmulator.Chihiro.Experience

/-!
# Skill trees

`WorldSession::onLearnSkill` with `GameContent::IsLearnableSkill`, `ObjectMgr::getSkillTree`,
`ObjectMgr::GetNeedJpForSkillLevelUp` and `Unit::RegisterSkill`. The numbers of a unit are kept by the numbers of their
fields. What floats do with a ratio is a parameter (`RatioArith`), and so is the script `on_player_level_up`. A lookup of a
skill that has no row ends the process and is `none`.
-/

namespace RZEmulator.Chihiro

/-- Of the ratios: which is -1, which is 1, and `(int32_t)((float)n * ratio)`. -/
structure RatioArith (R : Type) where
  isMinusOne : R → Bool
  one : R
  times : Int → R → Int

structure SkillTreeBase (R : Type) where
  job_id : Int
  skill_id : Int
  min_skill_lv : Int
  max_skill_lv : Int
  lv : Int
  job_lv : Int
  jp_ratio : R
  need_skill_id : Fin 3 → Int
  need_skill_lv : Fin 3 → Int

structure SkillTreeGroup (R : Type) where
  job_id : Int
  skill_id : Int
  skillTrees : List (SkillTreeBase R)

/-- What is read of a row of the skills; `m_need_jp` is for the indices below 50. -/
structure SkillBase where
  id : Int
  m_need_jp : Nat → Int

def SkillBase.getNeedJobPoint (sb : SkillBase) (skill_lv : Nat) : Int :=
  if skill_lv ≤ 50 then sb.m_need_jp (skill_lv - 1) else sb.m_need_jp 49

/-- `Skill`, as far as learning goes. -/
structure LearnedSkill where
  m_nSkillID : Int
  m_nSkillLevel : Nat

/-- A player, or a summon of a form. -/
inductive LearnerKind
  | player
  | summon (form : Int)

def UNIT_FIELD_LEVEL : Nat := 0x0002
def UNIT_FIELD_JOBPOINT : Nat := 0x0005
def UNIT_FIELD_PREV_JOB : Nat := 0x000D
def UNIT_FIELD_PREV_JLV : Nat := 0x0010
def UNIT_FIELD_HAVOC : Nat := 0x0013
def UNIT_FIELD_JOB : Nat := 0x001B
def UNIT_FIELD_JLV : Nat := 0x001C

/-- A `Unit`, as far as learning goes. -/
structure Learner where
  kind : LearnerKind
  exp : Nat
  fields : Nat → Int
  m_vSkillList : List LearnedSkill

/-- The tables that are read, and the script. -/
structure SkillTables (R : Type) where
  arith : RatioArith R
  rows : List (SkillTreeBase R)
  skillBase : Int → Option SkillBase
  levels : LevelStore
  summonLevels : LevelStore
  on_player_level_up : Learner → Learner

inductive TS_RESULT
  | SUCCESS
  | ACCESS_DENIED
  | NOT_ENOUGH_LEVEL
  | NOT_ENOUGH_SKILL
  | NOT_ENOUGH_JP
  | NOT_ENOUGH_JOB_LEVEL
  | LIMIT_MAX
  deriving DecidableEq

namespace Learner

def getInt32Value (u : Learner) (i : Nat) : Int := u.fields i

def setInt32Value (u : Learner) (i : Nat) (v : Int) : Learner := { u with fields := Function.update u.fields i v }

def getLevel (u : Learner) : Int := u.getInt32Value UNIT_FIELD_LEVEL

def getJP (u : Learner) : Int := u.getInt32Value UNIT_FIELD_JOBPOINT

def getCurrentJob (u : Learner) : Int := u.getInt32Value UNIT_FIELD_JOB

def getCurrentJLv (u : Learner) : Int := u.getInt32Value UNIT_FIELD_JLV

def getPrevJobId (u : Learner) (nDepth : Nat) : Int :=
  if nDepth > 3 then 0 else u.getInt32Value (UNIT_FIELD_PREV_JOB + nDepth)

def getPrevJobLv (u : Learner) (nDepth : Nat) : Int :=
  if nDepth > 3 then 0 else u.getInt32Value (UNIT_FIELD_PREV_JLV + nDepth)

def getSkill (u : Learner) (skill_id : Int) : Option LearnedSkill :=
  u.m_vSkillList.find? fun s => s.m_nSkillID = skill_id

/-- `GetBaseSkillLevel`, which is also `GetCurrentSkillLevel`. -/
def getBaseSkillLevel (u : Learner) (skill_id : Int) : Nat :=
  match u.getSkill skill_id with
  | some s => s.m_nSkillLevel
  | none => 0

end Learner

/-! ## The trees -/

section

variable {R : Type}

/-- `ObjectMgr::RegisterSkillTree`. -/
def registerSkillTree (base : SkillTreeBase R) : List (SkillTreeGroup R) → List (SkillTreeGroup R)
  | [] => [⟨base.job_id, base.skill_id, [base]⟩]
  | stg :: store =>
    if stg.skill_id = base.skill_id ∧ stg.job_id = base.job_id then
      { stg with skillTrees := stg.skillTrees ++ [base] } :: store
    else stg :: registerSkillTree base store

namespace SkillTables

variable (t : SkillTables R) (u : Learner)

/-- `_skillTreeResourceStore`. -/
def skillTreeResourceStore : List (SkillTreeGroup R) := t.rows.foldl (fun store base => registerSkillTree base store) []

def getSkillTree (job_id : Int) : List (SkillTreeBase R) :=
  (t.skillTreeResourceStore.filter fun stg => stg.job_id = job_id).flatMap (·.skillTrees)

def getNeedJpForSkillLevelUp (skill_id : Int) (skill_level : Nat) (nJobID : Int) : Option Int :=
  match t.skillBase skill_id with
  | none => none
  | some sb =>
    let trees := t.getSkillTree nJobID
    if sb.id ≠ 0 ∧ skill_level ≤ 50 ∧ trees.isEmpty = false then
      -- the ratio of the last row wins; without one it stays at -1
      let jp_ratio := trees.foldl (fun r st => if st.skill_id = skill_id ∧ (skill_level : Int) ≤ st.max_skill_lv then
        some st.jp_ratio else r) none
      let jp_ratio := match jp_ratio with
        | none => t.arith.one
        | some r => if t.arith.isMinusOne r then t.arith.one else r
      some (t.arith.times (sb.getNeedJobPoint skill_level) jp_ratio)
    else some (-1)

/-! ## The permission -/

/-- The loop over `need_skill_id` finds a skill that is too low. -/
def lacksSkill (stree : SkillTreeBase R) : Bool :=
  ((List.finRange 3).takeWhile fun nsi => stree.need_skill_id nsi ≠ 0).any fun nsi =>
    (u.getBaseSkillLevel (stree.need_skill_id nsi) : Int) < stree.need_skill_lv nsi

/-- The checks of a row whose job level is reached. -/
def checkRow (skill_id : Int) (skill_level : Nat) (stree : SkillTreeBase R) : Option TS_RESULT :=
  if lacksSkill u stree then some .NOT_ENOUGH_SKILL
  else
    match t.skillBase skill_id with
    | none => none
    | some sb =>
      if sb.id = 0 then some .ACCESS_DENIED
      else if u.getJP < t.arith.times (sb.getNeedJobPoint skill_level) stree.jp_ratio then some .NOT_ENOUGH_JP
      else some .SUCCESS

/-- The loop of `GameContent::isLearnableSkill`. -/
def searchRows (skill_id : Int) (skill_level : Nat) (unit_job_level : Int) :
    Bool → Bool → List (SkillTreeBase R) → Option TS_RESULT
  | bMaxLimit, bFound, [] =>
    some (if bFound then .NOT_ENOUGH_JOB_LEVEL else if bMaxLimit then .LIMIT_MAX else .ACCESS_DENIED)
  | bMaxLimit, bFound, stree :: st =>
    if stree.skill_id = skill_id then
      if (skill_level : Int) ≤ stree.max_skill_lv then
        if u.getLevel < stree.lv then some .NOT_ENOUGH_LEVEL
        else if stree.job_lv ≤ unit_job_level then t.checkRow u skill_id skill_level stree
        else searchRows skill_id skill_level unit_job_level bMaxLimit true st
      else searchRows skill_id skill_level unit_job_level true bFound st
    else searchRows skill_id skill_level unit_job_level bMaxLimit bFound st

/-- `GameContent::isLearnableSkill`. -/
def isLearnableSkill (skill_id : Int) (skill_level : Nat) (nJobID unit_job_level : Int) : Option TS_RESULT :=
  if (t.getSkillTree nJobID).isEmpty then some .ACCESS_DENIED
  else t.searchRows u skill_id skill_level unit_job_level false false (t.getSkillTree nJobID)

end SkillTables

/-- The results after which another job is tried. -/
def TS_RESULT.triesOn (r : TS_RESULT) : Bool := r = .ACCESS_DENIED ∨ r = .LIMIT_MAX ∨ r = .NOT_ENOUGH_JOB_LEVEL

/-- What a search over the jobs answers, with the depths of the previous jobs that it has read. -/
structure JobSearch where
  result : TS_RESULT
  job_id : Int
  read : List Nat

def JobSearch.reading (i : Nat) (s : JobSearch) : JobSearch := { s with read := i :: s.read }

namespace SkillTables

variable (t : SkillTables R) (u : Learner)

/-- The loop of `GameContent::IsLearnableSkill`, for the depths that are left. -/
def searchPrevJobs (skill_id : Int) (skill_level : Nat) : TS_RESULT → List Nat → Option JobSearch
  | ilsResult, [] => some ⟨ilsResult, 0, []⟩
  | ilsResult, i :: is =>
    if u.getPrevJobLv i ≠ 0 then
      match t.isLearnableSkill u skill_id skill_level (u.getPrevJobId i) (u.getPrevJobLv i) with
      | none => none
      | some r =>
        if r = .SUCCESS then some ⟨r, u.getPrevJobId i, [i]⟩
        else if r.triesOn then (searchPrevJobs skill_id skill_level r is).map (.reading i)
        else some ⟨r, 0, [i]⟩
    else (searchPrevJobs skill_id skill_level ilsResult is).map (.reading i)

/-- `GameContent::IsLearnableSkill`. -/
def IsLearnableSkill (skill_id : Int) (skill_level : Nat) : Option JobSearch :=
  match t.searchPrevJobs u skill_id skill_level .ACCESS_DENIED (List.range 4) with
  | none => none
  | some s =>
    if s.result.triesOn then
      match t.isLearnableSkill u skill_id skill_level u.getCurrentJob u.getCurrentJLv with
      | none => none
      | some r => some ⟨r, if r = .SUCCESS then u.getCurrentJob else s.job_id, s.read⟩
    else some s

/-! ## The learning -/

/-- `onExpChange` of a player or a summon, as far as it changes the unit. -/
def onExpChange : Learner :=
  match u.kind with
  | .player =>
    let r := Player.onExpChange t.levels u.exp u.getLevel
    let u' := u.setInt32Value UNIT_FIELD_LEVEL r.level
    if r.rewards = 0 then u' else t.on_player_level_up u'
  | .summon form =>
    let r := Summon.onExpChange t.summonLevels form u.exp u.getLevel
    if r.level = u.getLevel then u
    else
      let u' := (u.setInt32Value UNIT_FIELD_JLV r.level).setInt32Value UNIT_FIELD_LEVEL r.level
      if r.level < u.getLevel then u' else u'.setInt32Value UNIT_FIELD_JOBPOINT (max (u'.getJP + r.rewards) 0)

/-- `Unit::SetJP` of a unit that is logged in. -/
def setJP (jp : Int) : Learner := t.onExpChange (u.setInt32Value UNIT_FIELD_JOBPOINT (if jp < 0 then 0 else jp))

/-- `Unit::SetSkill`, where the skill has a row. -/
def setSkill (skill_id : Int) (skill_level : Nat) : List LearnedSkill → List LearnedSkill
  | [] => [⟨skill_id, skill_level⟩]
  | s :: skills => if s.m_nSkillID = skill_id then { s with m_nSkillLevel := skill_level } :: skills
    else s :: setSkill skill_id skill_level skills

/-- The unit when it has paid: `SetJP` once or twice, and `onExpChange`. -/
def pay (nNeedJP : Int) : Learner :=
  let u' := t.setJP u (u.getJP - nNeedJP)
  t.onExpChange (if u'.getJP < 0 then t.setJP u' 0 else u')

/-- `Unit::RegisterSkill`. -/
def registerSkill (skill_id : Int) (skill_level : Nat) (nJobID : Int) : Option Learner :=
  let nJobID := if nJobID = 0 then u.getCurrentJob else nJobID
  match t.getNeedJpForSkillLevelUp skill_id skill_level nJobID with
  | none => none
  | some nNeedJP =>
    if nNeedJP > u.getJP then some u
    else
      let u' := t.pay u nNeedJP
      match t.skillBase skill_id with
      | none => some u'
      | some _ => some { u' with m_vSkillList := setSkill skill_id skill_level u'.m_vSkillList }

end SkillTables

/-- A `Summon` that is in the world. -/
structure SummonInWorld where
  master : Option Nat
  unit : Learner

/-- The player of a session and the summons in the world, by their handles. -/
structure LearnWorld where
  handle : Nat
  player : Learner
  summons : Nat → Option SummonInWorld

/-- What a request leaves. -/
structure LearnAnswer where
  result : TS_RESULT
  read : List Nat
  world : LearnWorld

namespace LearnWorld

/-- The unit that a request may name by a handle. -/
def unitOf (w : LearnWorld) (target : Nat) : Option Learner :=
  if w.handle = target then some w.player
  else
    match w.summons target with
    | none => none
    | some s => if s.master = some w.handle then some s.unit else none

def setUnit (w : LearnWorld) (target : Nat) (u : Learner) : LearnWorld :=
  if w.handle = target then { w with player := u }
  else { w with summons := Function.update w.summons target (some ⟨some w.handle, u⟩) }

/-- `WorldSession::onLearnSkill`. -/
def onLearnSkill (t : SkillTables R) (w : LearnWorld) (target : Nat) (skill_id : Int) : Option LearnAnswer :=
  match w.unitOf target with
  | none => some ⟨.ACCESS_DENIED, [], w⟩
  | some u =>
    let currentLevel := u.getBaseSkillLevel skill_id + 1
    match t.IsLearnableSkill u skill_id currentLevel with
    | none => none
    | some s =>
      if s.result = .SUCCESS then
        (t.registerSkill u skill_id currentLevel s.job_id).map fun u' => ⟨s.result, s.read, w.setUnit target u'⟩
      else some ⟨s.result, s.read, w⟩

end LearnWorld

end

end RZEmulator.Chihiro
