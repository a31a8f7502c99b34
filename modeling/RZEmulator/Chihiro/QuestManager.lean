import RZEmulator.Chihiro.InventoryPiles
import RZEmulator.Chihiro.QuestKill
import RZEmulator.Lib.SingleFloat

/-!
# Starting and ending quests

The quest log of a player, with the player's inventory, gold and experience, and the functions that start a quest,
hear of events and end it. The scripts of a quest, the level that experience leads to and what is sent to the client
are left out.

A run without a result is undefined in the source: an index outside its array, a signed overflow, a conversion
of a float that does not fit, or the template of an item that does not exist.
-/

namespace RZEmulator.Chihiro

open Lib World

structure Reward where
  nItemCode : Int
  nLevel : Int
  nQuantity : Int

/-- The template with what the quest pays. -/
structure QuestTemplate extends QuestBase where
  nCode : Int
  nEXP : Int
  nJP : Int
  nGold : Int
  DefaultReward : Reward
  OptionalReward : Fin 3 → Reward

/-- A `Quest` of the log. -/
structure ActiveQuest where
  m_QuestBase : QuestTemplate
  m_Instance : QuestInstance
  m_bIsNeedUpdateToDB : Bool
  nID : Int
  nStartID : Int
  Code : Int

/-- A row of the table `Quest`. -/
structure QuestRow where
  nID : Int
  Code : Int
  nStartID : Int
  nStatus : Fin 3 → Int
  nProgress : QuestProgress

inductive EndResult where
  | fail
  | tooMuchMoney
  | success
deriving DecidableEq

/-- A player with a quest log. The last fields are what other parts of the game answer. -/
structure Adventurer where
  world : World
  me : Handle
  nEXP : Int
  /-- The job points, as `GetJP` reads them. -/
  nJP : Int
  m_vActiveQuest : List ActiveQuest
  m_hsFinishedQuest : List Int
  m_QuestIndex : Int
  /-- What `DB_Insert` has written. -/
  rows : List QuestRow
  questBase : Int → Option QuestTemplate
  needExp : Int → Int
  isStartableQuest : Int → Bool
  baseSkillLevel : Int → Int
  jobDepth : Int
  currentJLv : Int

namespace ActiveQuest

/-- What the functions on the progress of a quest work on. -/
def quest (q : ActiveQuest) : Quest := ⟨q.m_QuestBase.toQuestBase, q.m_Instance, q.m_bIsNeedUpdateToDB⟩

def withQuest (q : ActiveQuest) (r : Quest) : ActiveQuest :=
  { q with m_Instance := r.m_Instance, m_bIsNeedUpdateToDB := r.m_bIsNeedUpdateToDB }

def setProgress (q : ActiveQuest) (progress : QuestProgress) : ActiveQuest :=
  { q with m_Instance := { q.m_Instance with nProgress := progress } }

def row (q : ActiveQuest) : QuestRow :=
  ⟨q.nID, q.Code, q.nStartID, q.m_Instance.nStatus, q.m_Instance.nProgress⟩

/-- `Quest::AllocQuest`, with statuses and random values all zero. -/
def alloc (base : QuestTemplate) (nID code nStartID : Int) : ActiveQuest where
  m_QuestBase := base
  m_Instance :=
    { nProgress := .inProgress, nStatus := fun _ => 0, nRandomKey := fun _ => 0, nRandomValue := fun _ => 0 }
  m_bIsNeedUpdateToDB := false
  nID := nID
  nStartID := nStartID
  Code := code

/-- The factor of the payment. That of a random quest is made of four random values, but the array has three. -/
def fMod (q : ActiveQuest) : Option ℚ :=
  if q.quest.isRandomQuest then
    (List.range 4).foldlM (fun sum i =>
      (q.quest.getRandomValue i).map fun v => sum + (v * q.quest.getValue (4 * i + 3) : ℚ) / 100) 0
  else some 1

/-- The items that are taken at the end: a code and a count for each. -/
def objectives (q : ActiveQuest) : List (Int × Int) :=
  if QuestManager.Paired q.quest then
    (List.range (if q.m_QuestBase.nType = .collect then 6 else 3)).map fun i =>
      (q.quest.getValue (2 * i), q.quest.getValue (2 * i + 1))
  else []

end ActiveQuest

/-- An amount in single precision times the factor, without its fraction. -/
def scaled (n : Int) (fMod : ℚ) : Int := ((SingleFloat.rounded n : ℚ) * fMod).num.tdiv ((SingleFloat.rounded n : ℚ) * fMod).den

namespace Adventurer

variable (s : Adventurer)

def gold : Int := (s.world.players s.me).nGold

def findQuest (code : Int) : Option ActiveQuest := s.m_vActiveQuest.find? fun q => q.m_QuestBase.nCode == code

/-- `CheckFinishableQuestAndGetQuestStruct`. -/
def checkFinishable (code : Int) (bForce : Bool) : Option ActiveQuest :=
  (s.findQuest code).filter fun q => q.quest.isFinishable || bForce

/-! ## Events -/

/-- The quests after a change of their statuses. -/
def withQuests (qs : List Quest) : Adventurer :=
  { s with m_vActiveQuest := s.m_vActiveQuest.zipWith ActiveQuest.withQuest qs }

def update (e : QuestEvent) : Option Adventurer :=
  (QuestManager.update e (s.m_vActiveQuest.map ActiveQuest.quest)).map s.withQuests

def monsterKill (nMonsterID : Int) : Option Adventurer :=
  (QuestManager.updateQuestStatusByMonsterKill nMonsterID (s.m_vActiveQuest.map ActiveQuest.quest)).map s.withQuests

/-- The level of what is worn at a position. -/
def wornLevel (id : Int) : Option Int :=
  if 0 ≤ id ∧ id < 24 then
    ((s.world.players s.me).anWear id.toNat).map fun p => (s.world.items p).inst.nLevel
  else none

/-- One of the three objectives of an upgrade quest. -/
def upgradeObjective (worn : Int → Option Int) (q : Quest) (i : Nat) : Option Quest :=
  let level := q.getValue (2 * i + 1)
  let id := q.getValue (2 * i)
  if level > 0 ∧ id < 24 then
    match worn id with
    | some qv => q.updateStatus i (if level > qv then qv else level)
    | none => q.updateStatus i 0
  else some q

def upgradeStep (worn : Int → Option Int) (q : Quest) : Option Quest :=
  if QuestManager.related 64 q then (List.range 3).foldlM (upgradeObjective worn) q else some q

def updateQuestStatusByItemUpgrade : Option Adventurer :=
  ((s.m_vActiveQuest.map ActiveQuest.quest).mapM (upgradeStep s.wornLevel)).map s.withQuests

/-- The status of an item objective at the start. -/
def updateByItem (nItemCode : Int) : Option Adventurer :=
  if nItemCode ≠ 0 then
    match s.world.findByCode (bag s.me) nItemCode with
    | some item => s.update (.itemCount nItemCode (s.world.items item).inst.nCount)
    | none => some s
  else some s

def updateByItems (q : ActiveQuest) : Option Adventurer :=
  if QuestManager.Paired q.quest then
    (List.range (if q.m_QuestBase.nType = .collect then 2 else 3)).foldlM
      (fun s i => s.updateByItem (q.quest.getValue (2 * i))) s
  else some s

def updateBySkills (q : ActiveQuest) : Option Adventurer :=
  if q.m_QuestBase.nType = .learnSkill then
    [0, 2, 4].foldlM (fun s i =>
      s.update (.skillLevel (q.quest.getValue i) (s.baseSkillLevel (q.quest.getValue i)))) s
  else some s

def updateByJob (q : ActiveQuest) : Option Adventurer :=
  if q.m_QuestBase.nType = .jobLevel then s.update (.jobLevel s.jobDepth s.currentJLv) else some s

def updateByParameter (q : ActiveQuest) : Option Adventurer :=
  if q.m_QuestBase.nType = .parameter then s.update (.parameter 99 (s.world.players s.me).nChaos) else some s

/-- `Player::updateQuestStatus`. -/
def updateQuestStatus (q : ActiveQuest) : Option Adventurer :=
  (s.updateByItems q).bind fun s => (s.updateBySkills q).bind fun s => (s.updateByJob q).bind fun s =>
    (s.updateByParameter q).bind fun s => s.updateQuestStatusByItemUpgrade

/-! ## Starting -/

/-- `Quest::DB_Insert`. -/
def insertRow (code : Int) : Adventurer :=
  match s.findQuest code with
  | some q => { s with rows := s.rows ++ [q.row] }
  | none => s

/-- `QuestManager::StartQuest`, for a code that has a template. -/
def managerStartQuest (base : QuestTemplate) (code nStartID : Int) : Bool × Adventurer :=
  if code = 0 ∨ (s.findQuest code).isSome then (false, s)
  else
    (true,
      { s with
        m_QuestIndex := s.m_QuestIndex + 1
        m_vActiveQuest := s.m_vActiveQuest ++ [.alloc base (s.m_QuestIndex + 1) code nStartID] })

/-- `Player::StartQuest`. -/
def startQuest (code nStartID : Int) (bForce : Bool) : Option Adventurer :=
  match s.questBase code with
  | none => some s
  | some base =>
    if s.m_vActiveQuest.length ≥ 20 then some s
    else if !bForce && !s.isStartableQuest code then some s
    else
      match s.managerStartQuest base code nStartID with
      | (false, s) => some s
      | (true, s) =>
        match s.findQuest code with
        | none => some s
        | some q => (s.updateQuestStatus q).map fun s => s.insertRow code

/-! ## Ending -/

/-- A change of the quest that `FindQuest` finds. -/
def updFound (code : Int) (f : ActiveQuest → ActiveQuest) : List ActiveQuest → List ActiveQuest
  | [] => []
  | q :: qs => if q.m_QuestBase.nCode = code then f q :: qs else q :: updFound code f qs

/-- `QuestManager::EndQuest`. -/
def managerEndQuest (code : Int) (q : ActiveQuest) : Adventurer :=
  { s with
    m_vActiveQuest := updFound code (·.setProgress .finishable) s.m_vActiveQuest
    m_hsFinishedQuest :=
      if q.Code ∈ s.m_hsFinishedQuest then s.m_hsFinishedQuest else s.m_hsFinishedQuest ++ [q.Code] }

/-- `GameRule::GetMaxLevel`. -/
def getMaxLevel : Int := 150

/-- The experience of the quest, up to that of the highest level. -/
def rewardEXP (q : ActiveQuest) : Int :=
  if q.m_QuestBase.nEXP + s.nEXP ≥ s.needExp (getMaxLevel - 1) then
    if s.nEXP < s.needExp (getMaxLevel - 1) then s.needExp (getMaxLevel - 1) - s.nEXP else 0
  else q.m_QuestBase.nEXP

/-- The conversion of a float to 64 bits. -/
def toInt64 (n : Int) : Option Int := if IsInt64 n then some n else none

/-- The conversion of a float to an unsigned integer, which a negative one does not fit. -/
def toUInt (n : Int) : Option Int := if 0 ≤ n then some n else none

/-- `Unit::AddEXP` with the experience and the job points of the quest. -/
def addEXP (q : ActiveQuest) (fMod : ℚ) : Option Adventurer := do
  let _ ← add64 q.m_QuestBase.nEXP s.nEXP
  let jp ← toUInt (scaled q.m_QuestBase.nJP fMod)
  let exp ← toInt64 (scaled (s.rewardEXP q) fMod)
  let nEXP ← add64 s.nEXP exp
  return { s with
    nEXP := nEXP
    nJP := narrow32 (s.nJP + jp) }

/-- The loop over the objectives. Only the first item of a code is looked for. -/
def eraseItems (h : Handle) : List (Int × Int) → World → Option World
  | [], w => some w
  | (nItemCode, count) :: rest, w =>
    if nItemCode ≠ 0 then
      match w.findByCode (bag h) nItemCode with
      | some pItem => (w.erase (bag h) pItem count).bind (eraseItems h rest)
      | none => eraseItems h rest w
    else eraseItems h rest w

/-- A reward is created and pushed, which the quest log hears of. -/
def giveReward (reward : Reward) (fMod : ℚ) : Option Adventurer :=
  if reward.nItemCode ≠ 0 then
    (toUInt (scaled reward.nQuantity fMod)).bind fun count =>
      (s.world.rewardItem s.me reward.nItemCode (if reward.nLevel < 1 then 1 else reward.nLevel) count).bind fun r =>
        match r.1 with
        | some ni => { s with world := r.2 }.update (.itemCount (r.2.items ni).inst.Code (r.2.items ni).inst.nCount)
        | none => some { s with world := r.2 }
  else some s

/-- The reward that the client has chosen. -/
def optionalReward (q : ActiveQuest) (nRewardID : Int) : Option Reward :=
  if h : 0 ≤ nRewardID ∧ nRewardID < 3 then some (q.m_QuestBase.OptionalReward ⟨nRewardID.toNat, by omega⟩) else none

def giveOptionalReward (q : ActiveQuest) (nRewardID : Int) (fMod : ℚ) : Option Adventurer :=
  match optionalReward q nRewardID with
  | some reward => s.giveReward reward fMod
  | none => some s

/-- `QuestManager::PopFromActiveQuest`. -/
def popFromActiveQuest (code : Int) : Adventurer :=
  { s with m_vActiveQuest := s.m_vActiveQuest.eraseP fun q => q.m_QuestBase.nCode == code }

/-- The part of `Player::EndQuest` after the gold has been paid. -/
def payQuest (q : ActiveQuest) (code nRewardID : Int) (fMod : ℚ) : Option Adventurer := do
  let s ← (s.managerEndQuest code q).addEXP q fMod
  let w ← eraseItems s.me q.objectives s.world
  let s ← { s with world := w }.giveReward q.m_QuestBase.DefaultReward fMod
  let s ← s.giveOptionalReward q nRewardID fMod
  return (s.insertRow code).popFromActiveQuest code

/-- `Player::EndQuest`. -/
def endQuest (code nRewardID : Int) (bForce : Bool) : Option (EndResult × Adventurer) :=
  match s.checkFinishable code bForce with
  | none => some (.fail, s)
  | some q => do
    let fMod ← q.fMod
    let nGold ← (toInt64 (scaled q.m_QuestBase.nGold fMod)).bind fun n => add64 n s.gold
    match s.world.changeGold s.me nGold with
    | (.success, w) => ({ s with world := w }.payQuest q code nRewardID fMod).map fun s => (.success, s)
    | (_, w) => some (.tooMuchMoney, { s with world := w })

end Adventurer

end RZEmulator.Chihiro
