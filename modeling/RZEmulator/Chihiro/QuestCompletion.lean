import RZEmulator.Chihiro.QuestReward

/-!
# Ending a quest

When a call on the quest log does what it should (`completes_iff`). Starting a quest and hearing of an event are
always in bounds. Ending a quest that can be finished either is refused over the gold, with nothing changed, or does
all that the quest asks for when the quest is `Payable`: the demands find their stacks, and the amounts are those
that single precision keeps.
-/

namespace RZEmulator.Chihiro

open Lib World SingleFloat

namespace Adventurer

variable {s s' : Adventurer} {q : ActiveQuest} {code nRewardID : Int} {bForce : Bool}

/-! ## The active list -/

/-- What `FindQuest` looks for. -/
def hasCode (code : Int) (q : ActiveQuest) : Bool := q.m_QuestBase.nCode == code

theorem hasCode_of_base {q q' : ActiveQuest} (h : q'.m_QuestBase = q.m_QuestBase) (hq : hasCode code q = true) :
    hasCode code q' = true := by
  unfold hasCode
  rw [h]
  exact hq

theorem find_updFound {f : ActiveQuest → ActiveQuest} (hf : ∀ q, (f q).m_QuestBase = q.m_QuestBase)
    (l : List ActiveQuest) : (updFound code f l).find? (hasCode code) = (l.find? (hasCode code)).map f := by
  induction l with
  | nil => rfl
  | cons q l ih =>
    unfold updFound
    split_ifs with hcode
    · have hq : hasCode code q = true := beq_iff_eq.mpr hcode
      rw [List.find?_cons_of_pos (hasCode_of_base (hf q) hq), List.find?_cons_of_pos hq, Option.map_some]
    · have hq : ¬hasCode code q = true := fun h => hcode (beq_iff_eq.mp h)
      rw [List.find?_cons_of_neg hq, List.find?_cons_of_neg hq, ih]

theorem eraseP_updFound {f : ActiveQuest → ActiveQuest} (hf : ∀ q, (f q).m_QuestBase = q.m_QuestBase)
    (l : List ActiveQuest) : (updFound code f l).eraseP (hasCode code) = l.eraseP (hasCode code) := by
  induction l with
  | nil => rfl
  | cons q l ih =>
    unfold updFound
    split_ifs with hcode
    · have hq : hasCode code q = true := beq_iff_eq.mpr hcode
      rw [List.eraseP_cons_of_pos (hasCode_of_base (hf q) hq), List.eraseP_cons_of_pos hq]
    · have hq : ¬hasCode code q = true := fun h => hcode (beq_iff_eq.mp h)
      rw [List.eraseP_cons_of_neg hq, List.eraseP_cons_of_neg hq, ih]

theorem mem_updFound {f : ActiveQuest → ActiveQuest} {l : List ActiveQuest} {a : ActiveQuest}
    (ha : a ∈ updFound code f l) : a ∈ l ∨ ∃ b ∈ l, a = f b := by
  induction l with
  | nil => cases ha
  | cons q l ih =>
    unfold updFound at ha
    split_ifs at ha with hcode
    · rcases List.mem_cons.mp ha with rfl | ha
      · exact .inr ⟨q, List.mem_cons_self, rfl⟩
      · exact .inl (List.mem_cons_of_mem q ha)
    · rcases List.mem_cons.mp ha with rfl | ha
      · exact .inl List.mem_cons_self
      · rcases ih ha with ha | ⟨b, hb, heq⟩
        · exact .inl (List.mem_cons_of_mem q ha)
        · exact .inr ⟨b, List.mem_cons_of_mem q hb, heq⟩

theorem hasCode_task (code : Int) : hasCode code ∘ ActiveQuest.task = hasCode code := rfl

theorem find_of_task (code : Int) {l l' : List ActiveQuest} (h : l'.map ActiveQuest.task = l.map ActiveQuest.task) :
    (l'.find? (hasCode code)).map ActiveQuest.task = (l.find? (hasCode code)).map ActiveQuest.task := by
  have hfind := congrArg (List.find? (hasCode code)) h
  rw [List.find?_map, List.find?_map, hasCode_task] at hfind
  exact hfind

theorem eraseP_of_task {l l' : List ActiveQuest} (h : l'.map ActiveQuest.task = l.map ActiveQuest.task) :
    (l'.eraseP (hasCode code)).map ActiveQuest.task = (l.eraseP (hasCode code)).map ActiveQuest.task := by
  have herase := congrArg (List.eraseP (hasCode code)) h
  rw [List.eraseP_map, List.eraseP_map, hasCode_task] at herase
  exact herase

/-! ## What is asked for -/

/-- The items that the quest demands. -/
def demands (q : ActiveQuest) : List (Int × Int) := q.objectives.filter fun d => d.1 ≠ 0

/-- A successful end does all that the quest asks for, once. The experience is that up to the highest level. -/
structure Completed (s s' : Adventurer) (q : ActiveQuest) (code nRewardID : Int) : Prop where
  gold : s'.gold = s.gold + q.m_QuestBase.nGold
  nEXP : s'.nEXP = s.nEXP + s.rewardEXP q
  nJP : s'.nJP = s.nJP + q.m_QuestBase.nJP
  /-- Exactly the demands are erased, and exactly the rewards are added to what is left. -/
  items : ∃ w, eraseItems s.me q.objectives (s.world.setGold s.me s'.gold) = some w ∧ ∀ k,
    units k w (bag s.me) = units k s.world (bag s.me) - Stacks.due k (demands q) ∧
      units k s'.world (bag s.me) = units k w (bag s.me) + owed k (rewards q nRewardID)
  active : s'.m_vActiveQuest.map ActiveQuest.task = (s.m_vActiveQuest.eraseP (hasCode code)).map ActiveQuest.task
  finished : q.Code ∈ s'.m_hsFinishedQuest
  recorded : ∃ r, s'.rows = s.rows ++ [r] ∧ r.nID = q.nID ∧ r.Code = q.Code ∧ r.nStartID = q.nStartID ∧
    r.nProgress = .finishable

/-- The calls on the quest log. An item that is heard of has a code. -/
inductive QuestCall where
  | start (code nStartID : Int) (bForce : Bool)
  | hear (e : QuestEvent) (coded : ∀ code count, e = .itemCount code count → code ≠ 0)
  | kill (nMonsterID : Int)
  | finish (code nRewardID : Int) (bForce : Bool)

def exec (s : Adventurer) : QuestCall → Option Adventurer
  | .start code nStartID bForce => s.startQuest code nStartID bForce
  | .hear e _ => s.update e
  | .kill nMonsterID => s.monsterKill nMonsterID
  | .finish code nRewardID bForce => (s.endQuest code nRewardID bForce).map (·.2)

/-- What ending a quest should do. -/
structure Finishes (s : Adventurer) (code nRewardID : Int) (bForce : Bool) : Prop where
  inside : ∀ q, s.checkFinishable code bForce = some q → q.fMod.isSome
  refused : ∀ r s', s.endQuest code nRewardID bForce = some (r, s') → r ≠ .success → s' = s
  completed : ∀ q, s.checkFinishable code bForce = some q → q.quest.isFinishable = true →
    ∃ r s', s.endQuest code nRewardID bForce = some (r, s') ∧ (r = .success → Completed s s' q code nRewardID)

/-- Every index is inside its array, and an end does what it should. -/
def Completes (s : Adventurer) : QuestCall → Prop
  | .finish code nRewardID bForce => Finishes s code nRewardID bForce
  | c => (s.exec c).isSome

/-! ## The condition -/

/-- The gold that the source comes to fits 64 bits, but not the purse. -/
def Refused (s : Adventurer) (q : ActiveQuest) : Prop :=
  IsInt64 (rounded q.m_QuestBase.nGold) ∧ IsInt64 (rounded q.m_QuestBase.nGold + s.gold) ∧
    ¬(0 ≤ rounded q.m_QuestBase.nGold + s.gold ∧ rounded q.m_QuestBase.nGold + s.gold ≤ MAX_GOLD_FOR_INVENTORY)

/-- The amounts are floats and do not overflow, every demand finds its first stack large enough, the rewards have
room, and their quantities add up. -/
structure Payable (s : Adventurer) (q : ActiveQuest) (nRewardID : Int) : Prop where
  gold : IsFloat (q.m_QuestBase.nGold : ℚ) ∧ 0 ≤ q.m_QuestBase.nGold + s.gold ∧
    q.m_QuestBase.nGold + s.gold ≤ MAX_GOLD_FOR_INVENTORY
  nEXP : IsInt64 (q.m_QuestBase.nEXP + s.nEXP) ∧ IsFloat (s.rewardEXP q : ℚ) ∧ IsInt64 (s.rewardEXP q) ∧
    IsInt64 (s.nEXP + s.rewardEXP q)
  nJP : IsFloat (q.m_QuestBase.nJP : ℚ) ∧ 0 ≤ q.m_QuestBase.nJP ∧ IsInt32 (s.nJP + q.m_QuestBase.nJP)
  served : Stacks.Served (demands q) (s.world.piles (bag s.me))
  room : HasRoom s.world (rewards q nRewardID) (Stacks.takeAll (demands q) (s.world.piles (bag s.me)))
  exact : ∀ k, paid k (rewards q nRewardID) = owed k (rewards q nRewardID)

/-- No random quest is ended, and one that can be finished is refused or payable. -/
def Careful (s : Adventurer) : QuestCall → Prop
  | .finish code nRewardID bForce => ∀ q, s.checkFinishable code bForce = some q →
    q.quest.isRandomQuest = false ∧ (q.quest.isFinishable = true → Refused s q ∨ Payable s q nRewardID)
  | _ => True

/-! ## The payment -/

/-- The experience and the job points can be added. -/
def Earns (s : Adventurer) (q : ActiveQuest) : Prop :=
  IsInt64 (q.m_QuestBase.nEXP + s.nEXP) ∧ 0 ≤ rounded q.m_QuestBase.nJP ∧ IsInt64 (rounded (s.rewardEXP q)) ∧
    IsInt64 (s.nEXP + rounded (s.rewardEXP q))

def earned (s : Adventurer) (q : ActiveQuest) (code : Int) : Adventurer :=
  { s.managerEndQuest code q with
    nEXP := s.nEXP + rounded (s.rewardEXP q)
    nJP := narrow32 (s.nJP + rounded q.m_QuestBase.nJP) }

theorem addEXP_eq_some : (s.managerEndQuest code q).addEXP q 1 = some s' ↔ Earns s q ∧ s' = s.earned q code := by
  unfold addEXP
  rw [scaled_one, scaled_one]
  have hexp : (s.managerEndQuest code q).rewardEXP q = s.rewardEXP q := rfl
  have hold : (s.managerEndQuest code q).nEXP = s.nEXP := rfl
  rw [hexp, hold]
  simp only [Option.bind_eq_bind, Option.bind_eq_some_iff, Option.pure_def, Option.some.injEq, add64_eq_some, toUInt,
    toInt64, Option.ite_none_right_eq_some]
  constructor
  · rintro ⟨_, ⟨hsum, rfl⟩, _, ⟨hjp, rfl⟩, _, ⟨hfit, rfl⟩, _, ⟨hnew, rfl⟩, rfl⟩
    exact ⟨⟨hsum, hjp, hfit, hnew⟩, rfl⟩
  · rintro ⟨⟨hsum, hjp, hfit, hnew⟩, rfl⟩
    exact ⟨_, ⟨hsum, rfl⟩, _, ⟨hjp, rfl⟩, _, ⟨hfit, rfl⟩, _, ⟨hnew, rfl⟩, rfl⟩

theorem payQuest_eq_some : s.payQuest q code nRewardID 1 = some s' ↔ Earns s q ∧
    ∃ w, eraseItems s.me q.objectives s.world = some w ∧
      ∃ s₂, { s.earned q code with world := w }.giveRewards (rewards q nRewardID) = some s₂ ∧
        s' = (s₂.insertRow code).popFromActiveQuest code := by
  unfold payQuest
  simp only [Option.bind_eq_bind, Option.pure_def]
  constructor
  · intro hrun
    obtain ⟨s₁, hexp, hrun⟩ := Option.bind_eq_some_iff.mp hrun
    obtain ⟨hearns, rfl⟩ := addEXP_eq_some.mp hexp
    obtain ⟨w, herase, hrun⟩ := Option.bind_eq_some_iff.mp hrun
    rw [← Option.bind_assoc, giveReward_bind_optional] at hrun
    obtain ⟨s₂, hgive, hrun⟩ := Option.bind_eq_some_iff.mp hrun
    exact ⟨hearns, w, herase, s₂, hgive, (Option.some.inj hrun).symm⟩
  · rintro ⟨hearns, w, herase, s₂, hgive, rfl⟩
    rw [addEXP_eq_some.mpr ⟨hearns, rfl⟩, Option.bind_some]
    refine Option.bind_eq_some_iff.mpr ⟨w, herase, ?_⟩
    rw [← Option.bind_assoc, giveReward_bind_optional, hgive, Option.bind_some]

/-- The quest that is ended keeps its template and its keys. -/
theorem Ok.earned (hok : Ok s) (q : ActiveQuest) (code : Int) : Ok (s.earned q code) := by
  refine ⟨hok.goods, hok.online, fun a ha => ?_, fun a ha => ?_, hok.resource⟩
  · rcases mem_updFound ha with ha | ⟨b, hb, rfl⟩
    · exact hok.keys a ha
    · exact hok.keys b hb
  · rcases mem_updFound ha with ha | ⟨b, hb, rfl⟩
    · exact hok.active a ha
    · exact hok.active b hb

theorem Ok.popFromActiveQuest (hok : Ok s) (code : Int) : Ok (s.popFromActiveQuest code) :=
  ⟨hok.goods, hok.online, fun a ha => hok.keys a (List.mem_of_mem_eraseP ha),
    fun a ha => hok.active a (List.mem_of_mem_eraseP ha), hok.resource⟩

/-- Nothing but the rows is different. -/
theorem insertRow_eq (s : Adventurer) (code : Int) : s.insertRow code = { s with rows := (s.insertRow code).rows } := by
  unfold insertRow
  cases s.findQuest code with
  | none => rfl
  | some q => rfl

/-- **What the payment does**, judged or not. -/
structure Paid (s s' : Adventurer) (q : ActiveQuest) (code nRewardID : Int) : Prop where
  ok : Ok s'
  earns : Earns s q
  gold : s'.gold = s.gold
  nEXP : s'.nEXP = s.nEXP + rounded (s.rewardEXP q)
  nJP : s'.nJP = narrow32 (s.nJP + rounded q.m_QuestBase.nJP)
  items : ∃ w, eraseItems s.me q.objectives s.world = some w ∧
    w.piles (bag s.me) = Stacks.takeAll (demands q) (s.world.piles (bag s.me)) ∧
    ∀ k, (s'.world.piles (bag s.me)).units k = (w.piles (bag s.me)).units k + paid k (rewards q nRewardID)
  active : s'.m_vActiveQuest.map ActiveQuest.task = (s.m_vActiveQuest.eraseP (hasCode code)).map ActiveQuest.task
  finished : q.Code ∈ s'.m_hsFinishedQuest
  recorded : ∃ r, s'.rows = s.rows ++ [r] ∧ r.nID = q.nID ∧ r.Code = q.Code ∧ r.nStartID = q.nStartID ∧
    r.nProgress = .finishable

theorem payQuest_paid (hok : Ok s) (hfind : s.findQuest code = some q) (hrun : s.payQuest q code nRewardID 1 = some s') :
    Paid s s' q code nRewardID := by
  obtain ⟨hearns, w, herase, s₂, hgive, rfl⟩ := payQuest_eq_some.mp hrun
  have hq : q.m_QuestBase.Legal := hok.active q (List.mem_of_find?_eq_some hfind)
  obtain ⟨hgoods, hlater, hpiles⟩ := eraseItems_spec hok.goods hok.online herase
  obtain ⟨hok₂, hwent, hunits⟩ := giveRewards_spec ((hok.earned q code).withWorld hgoods hlater)
    (payment_rewards hq) hgive
  have hsame : s₂ = { s.earned q code with world := s₂.world, m_vActiveQuest := s₂.m_vActiveQuest } := hwent.same.eq
  have htask : s₂.m_vActiveQuest.map ActiveQuest.task =
      (updFound code (·.setProgress .finishable) s.m_vActiveQuest).map ActiveQuest.task := hwent.same.task
  have hworld : ((s₂.insertRow code).popFromActiveQuest code).world = s₂.world := by
    rw [insertRow_eq]
    rfl
  have hfinished : s₂.m_hsFinishedQuest = (s.managerEndQuest code q).m_hsFinishedQuest :=
    (congrArg Adventurer.m_hsFinishedQuest hsame).trans rfl
  refine ⟨(hok₂.insertRow code).popFromActiveQuest code, hearns, ?_, ?_, ?_, ⟨w, herase, hpiles, fun k => ?_⟩, ?_, ?_, ?_⟩
  · have hme : ((s₂.insertRow code).popFromActiveQuest code).me = s.me := by
      rw [insertRow_eq, hsame]
      rfl
    unfold gold
    rw [hworld, hme]
    exact (hlater.trans hwent.later).nGold s.me
  · rw [insertRow_eq, hsame]
    rfl
  · rw [insertRow_eq, hsame]
    rfl
  · rw [hworld]
    exact hunits k
  · have hlist : ((s₂.insertRow code).popFromActiveQuest code).m_vActiveQuest =
        s₂.m_vActiveQuest.eraseP (hasCode code) := by
      rw [insertRow_eq]
      rfl
    rw [hlist, eraseP_of_task htask, eraseP_updFound (f := (·.setProgress .finishable)) fun _ => rfl]
  · have hlist : ((s₂.insertRow code).popFromActiveQuest code).m_hsFinishedQuest = s₂.m_hsFinishedQuest := by
      rw [insertRow_eq]
      rfl
    rw [hlist, hfinished]
    unfold managerEndQuest
    dsimp only
    split_ifs with hmem
    · exact hmem
    · exact List.mem_append_right _ List.mem_cons_self
  · -- The row is that of the quest as it stands after the rewards.
    have hnew := find_of_task code htask
    rw [find_updFound (f := (·.setProgress .finishable)) fun _ => rfl, show s.m_vActiveQuest.find? (hasCode code) = some q from hfind] at hnew
    obtain ⟨q₂, hq₂, htask₂⟩ := Option.map_eq_some_iff.mp hnew
    have hrows : s₂.rows = s.rows := (congrArg Adventurer.rows hsame).trans rfl
    refine ⟨q₂.row, ?_, ?_, ?_, ?_, ?_⟩
    · have hinsert : s₂.insertRow code = { s₂ with rows := s₂.rows ++ [q₂.row] } := by
        unfold insertRow
        rw [show s₂.findQuest code = some q₂ from hq₂]
      rw [hinsert, ← hrows]
      rfl
    · exact (congrArg ActiveQuest.nID htask₂ :)
    · exact (congrArg ActiveQuest.Code htask₂ :)
    · exact (congrArg ActiveQuest.nStartID htask₂ :)
    · exact (congrArg (fun a : ActiveQuest => a.m_Instance.nProgress) htask₂ :)

/-- When there is a payment. -/
theorem payQuest_isSome_iff (hok : Ok s) (hq : q.m_QuestBase.Legal) : (s.payQuest q code nRewardID 1).isSome ↔
    Earns s q ∧ (eraseItems s.me q.objectives s.world).isSome ∧
      HasRoom s.world (rewards q nRewardID) (Stacks.takeAll (demands q) (s.world.piles (bag s.me))) := by
  have hroom : ∀ w, eraseItems s.me q.objectives s.world = some w →
      (({ s.earned q code with world := w }.giveRewards (rewards q nRewardID)).isSome ↔
        HasRoom s.world (rewards q nRewardID) (Stacks.takeAll (demands q) (s.world.piles (bag s.me)))) := by
    intro w herase
    obtain ⟨hgoods, hlater, hpiles⟩ := eraseItems_spec hok.goods hok.online herase
    rw [giveRewards_isSome_iff ((hok.earned q code).withWorld hgoods hlater) (payment_rewards hq),
      hasRoom_congr hlater.itemBase]
    exact iff_of_eq (congrArg _ hpiles)
  constructor
  · intro hsome
    obtain ⟨s', hrun⟩ := Option.isSome_iff_exists.mp hsome
    obtain ⟨hearns, w, herase, s₂, hgive, -⟩ := payQuest_eq_some.mp hrun
    exact ⟨hearns, Option.isSome_iff_exists.mpr ⟨w, herase⟩,
      (hroom w herase).mp (Option.isSome_iff_exists.mpr ⟨s₂, hgive⟩)⟩
  · rintro ⟨hearns, herases, hfits⟩
    obtain ⟨w, herase⟩ := Option.isSome_iff_exists.mp herases
    obtain ⟨s₂, hgive⟩ := Option.isSome_iff_exists.mp ((hroom w herase).mpr hfits)
    exact Option.isSome_iff_exists.mpr ⟨_, payQuest_eq_some.mpr ⟨hearns, w, herase, s₂, hgive, rfl⟩⟩

/-! ## Ending -/

/-- The fourth random value is outside the array. -/
theorem fMod_isSome_iff : q.fMod.isSome ↔ q.quest.isRandomQuest = false := by
  unfold ActiveQuest.fMod
  split_ifs with hrandom
  · have hfourth : q.quest.getRandomValue 3 = none := rfl
    simp [List.range_succ, List.foldlM_cons, hfourth, hrandom]
  · exact iff_of_true rfl (Bool.eq_false_of_not_eq_true hrandom)

theorem fMod_eq_one (hrandom : q.quest.isRandomQuest = false) : q.fMod = some 1 :=
  if_neg (Bool.not_eq_true _ ▸ hrandom)

theorem findQuest_of_checkFinishable (hcheck : s.checkFinishable code bForce = some q) : s.findQuest code = some q :=
  (Option.filter_eq_some_iff.mp hcheck).1

/-- The gold that the purse is to hold. -/
def purse (s : Adventurer) (q : ActiveQuest) : Int := rounded q.m_QuestBase.nGold + s.gold

/-- The player when the gold has been paid. -/
def withGold (s : Adventurer) (n : Int) : Adventurer := { s with world := s.world.setGold s.me n }

theorem legalGold (hok : Ok s) : LegalGold s.world s.me := hok.goods.gold s.me hok.online

theorem setStorageGold_self (w : World) (h : Handle) : w.setStorageGold h (w.players h).nStorageGold = w := by
  have hplayers : (w.setStorageGold h (w.players h).nStorageGold).players = w.players := by
    funext k
    unfold setStorageGold
    rw [updPlayer_players]
    split_ifs with hk
    · rw [hk]
    · rfl
  show { w with players := (w.setStorageGold h (w.players h).nStorageGold).players } = w
  rw [hplayers]

theorem setGold_inv (w : World) (h : Handle) (n : Int) (r : InvRef) : (w.setGold h n).inv r = w.inv r := by
  unfold setGold inv
  rw [updPlayer_players]
  split_ifs with hr
  · rw [hr]
    cases r.kind <;> rfl
  · rfl

theorem Ok.withGold {n : Int} (hok : Ok s) (hlow : 0 ≤ n) (hhigh : n ≤ MAX_GOLD_FOR_INVENTORY) : Ok (s.withGold n) := by
  have hgoods := hok.goods.setGolds s.me ⟨hlow, hhigh⟩ (hok.goods.storageGold s.me hok.online)
  have hstore : (s.world.players s.me).nStorageGold = ((s.world.setGold s.me n).players s.me).nStorageGold := by
    rw [setGold_nStorageGold]
  rw [hstore, setStorageGold_self] at hgoods
  exact ⟨hgoods, hok.online, hok.keys, hok.active, hok.resource⟩

theorem piles_withGold (s : Adventurer) (n : Int) :
    (s.withGold n).world.piles (bag s.me) = s.world.piles (bag s.me) :=
  piles_congr (congrArg Inventory.vList (setGold_inv s.world s.me n _)) fun _ _ => rfl

theorem withGold_gold (s : Adventurer) (n : Int) : (s.withGold n).gold = n := by
  unfold gold withGold
  rw [setGold_nGold, if_pos rfl]

/-- **What ending a quest can come to.** -/
theorem endQuest_eq (hok : Ok s) (hcheck : s.checkFinishable code bForce = some q)
    (hrandom : q.quest.isRandomQuest = false) : s.endQuest code nRewardID bForce =
      if IsInt64 (rounded q.m_QuestBase.nGold) ∧ IsInt64 (s.purse q) then
        if 0 ≤ s.purse q ∧ s.purse q ≤ MAX_GOLD_FOR_INVENTORY then
          ((s.withGold (s.purse q)).payQuest q code nRewardID 1).map fun s => (.success, s)
        else some (.tooMuchMoney, s)
      else none := by
  unfold endQuest
  rw [hcheck]
  dsimp only
  rw [fMod_eq_one hrandom, Option.bind_eq_bind, Option.bind_some, scaled_one, Option.bind_eq_bind]
  unfold toInt64
  by_cases hfit : IsInt64 (rounded q.m_QuestBase.nGold)
  · by_cases hsum : IsInt64 (s.purse q)
    · rw [if_pos hfit, if_pos ⟨hfit, hsum⟩, Option.bind_some, add64_of_isInt64 hsum, Option.bind_some,
        changeGold_cases _ _ _ (legalGold hok)]
      unfold purse
      split_ifs with hmax hneg hrange hrange hrange
      all_goals first | rfl | omega
    · have hadd : add64 (rounded q.m_QuestBase.nGold) s.gold = none := if_neg hsum
      rw [if_pos hfit, if_neg fun h => hsum h.2, Option.bind_some, hadd]
      rfl
  · rw [if_neg hfit, if_neg fun h => hfit h.1]
    rfl

/-- A random quest is not ended at all. -/
theorem endQuest_random (hcheck : s.checkFinishable code bForce = some q) (hrandom : q.quest.isRandomQuest = true) :
    s.endQuest code nRewardID bForce = none := by
  have hnone : q.fMod = none := by
    rw [← Option.not_isSome_iff_eq_none, fMod_isSome_iff, hrandom]
    exact Bool.noConfusion
  unfold endQuest
  rw [hcheck]
  dsimp only
  rw [hnone]
  rfl

/-- The three outcomes. -/
theorem endQuest_cases {r : EndResult} (hok : Ok s) (hrun : s.endQuest code nRewardID bForce = some (r, s')) :
    (r ≠ .success ∧ s' = s) ∨ ∃ q, s.checkFinishable code bForce = some q ∧ r = .success ∧
      (0 ≤ s.purse q ∧ s.purse q ≤ MAX_GOLD_FOR_INVENTORY) ∧
      (s.withGold (s.purse q)).payQuest q code nRewardID 1 = some s' := by
  cases hcheck : s.checkFinishable code bForce with
  | none =>
    unfold endQuest at hrun
    rw [hcheck] at hrun
    obtain ⟨rfl, rfl⟩ := Prod.mk.inj (Option.some.inj hrun)
    exact .inl ⟨nofun, rfl⟩
  | some q =>
    cases hrandom : q.quest.isRandomQuest with
    | true =>
      rw [endQuest_random hcheck hrandom] at hrun
      cases hrun
    | false =>
      rw [endQuest_eq hok hcheck hrandom] at hrun
      split_ifs at hrun with hfit hrange
      · obtain ⟨s₁, hpay, heq⟩ := Option.map_eq_some_iff.mp hrun
        obtain ⟨rfl, rfl⟩ := Prod.mk.inj heq
        exact .inr ⟨q, rfl, rfl, hrange, hpay⟩
      · obtain ⟨rfl, rfl⟩ := Prod.mk.inj (Option.some.inj hrun)
        exact .inl ⟨nofun, rfl⟩

theorem paid_of_endQuest (hok : Ok s) (hcheck : s.checkFinishable code bForce = some q)
    (hrange : 0 ≤ s.purse q ∧ s.purse q ≤ MAX_GOLD_FOR_INVENTORY)
    (hpay : (s.withGold (s.purse q)).payQuest q code nRewardID 1 = some s') :
    Paid (s.withGold (s.purse q)) s' q code nRewardID :=
  payQuest_paid (hok.withGold hrange.1 hrange.2) (findQuest_of_checkFinishable hcheck) hpay

theorem Ok.exec (hok : Ok s) {c : QuestCall} (hrun : s.exec c = some s') : Ok s' := by
  cases c with
  | start code nStartID bForce =>
    obtain ⟨s₁, hs₁, hok₁⟩ := hok.startQuest code nStartID bForce
    obtain rfl := Option.some.inj (hs₁.symm.trans hrun)
    exact hok₁
  | hear e coded =>
    obtain ⟨s₁, hs₁, hsame⟩ := update_sameTasks hok.keys coded
    obtain rfl := Option.some.inj (hs₁.symm.trans hrun)
    exact hok.sameTasks hsame
  | kill nMonsterID =>
    obtain ⟨s₁, hs₁, hsame⟩ := monsterKill_sameTasks s nMonsterID
    obtain rfl := Option.some.inj (hs₁.symm.trans hrun)
    exact hok.sameTasks hsame
  | finish code nRewardID bForce =>
    obtain ⟨⟨r, s₁⟩, hend, rfl⟩ := Option.map_eq_some_iff.mp hrun
    rcases endQuest_cases hok hend with ⟨-, rfl⟩ | ⟨q, hcheck, -, hrange, hpay⟩
    · exact hok
    · exact (paid_of_endQuest hok hcheck hrange hpay).ok

/-- Every run of calls keeps the log well formed. -/
theorem Ok.run (hok : Ok s) {cs : List QuestCall} (hrun : cs.foldlM Adventurer.exec s = some s') : Ok s' := by
  induction cs generalizing s with
  | nil =>
    obtain rfl := Option.some.inj hrun
    exact hok
  | cons c cs ih =>
    rw [List.foldlM_cons] at hrun
    obtain ⟨s₁, hs₁, hrest⟩ := Option.bind_eq_some_iff.mp hrun
    exact ih (hok.exec hs₁) hrest

/-! ## When an end is complete -/

/-- The job points are exact when they are a float and the sum does not wrap around. -/
theorem narrow32_rounded_iff {m n : Int} (hn : IsInt32 n) :
    narrow32 (m + rounded n) = m + n ↔ rounded n = n ∧ IsInt32 (m + n) := by
  have hnear := rounded_near_of_isInt32 hn
  unfold narrow32 IsInt32
  omega

theorem completed_iff_of_paid (hq : q.m_QuestBase.Legal) (hpaid : Paid (s.withGold (s.purse q)) s' q code nRewardID) :
    Completed s s' q code nRewardID ↔ IsFloat (q.m_QuestBase.nGold : ℚ) ∧ IsFloat (s.rewardEXP q : ℚ) ∧
      (IsFloat (q.m_QuestBase.nJP : ℚ) ∧ IsInt32 (s.nJP + q.m_QuestBase.nJP)) ∧
      Stacks.Served (demands q) (s.world.piles (bag s.me)) ∧
      ∀ k, paid k (rewards q nRewardID) = owed k (rewards q nRewardID) := by
  have hgold : s'.gold = s.purse q := hpaid.gold.trans (withGold_gold s _)
  have hexp : s'.nEXP = s.nEXP + rounded (s.rewardEXP q) := hpaid.nEXP
  have hjp : s'.nJP = narrow32 (s.nJP + rounded q.m_QuestBase.nJP) := hpaid.nJP
  obtain ⟨w, herase, hw, hunits⟩ := hpaid.items
  rw [show (s.withGold (s.purse q)).me = s.me from rfl, piles_withGold] at hw
  rw [← rounded_eq_iff, ← rounded_eq_iff, ← rounded_eq_iff, Stacks.served_iff, ← hw]
  constructor
  · intro h
    obtain ⟨w', herase', hexact⟩ := h.items
    rw [hgold] at herase'
    obtain rfl := Option.some.inj (herase.symm.trans herase')
    refine ⟨?_, ?_, ?_, fun k => ?_, fun k => ?_⟩
    · have := h.gold
      unfold purse at hgold
      omega
    · have := h.nEXP
      omega
    · exact (narrow32_rounded_iff hq.nJP).mp (hjp.symm.trans h.nJP)
    · rw [units_piles, units_piles]
      exact (hexact k).1
    · have hnew := (hexact k).2
      have hold := hunits k
      rw [units_piles, units_piles] at hold
      have : units k s'.world (bag s.me) = units k w (bag s.me) + paid k (rewards q nRewardID) := hold
      omega
  · rintro ⟨hg, he, hj, hserved, hexact⟩
    refine ⟨?_, ?_, ?_, ⟨w, ?_, fun k => ⟨?_, ?_⟩⟩, hpaid.active, hpaid.finished, hpaid.recorded⟩
    · rw [hgold, purse, hg, add_comm]
    · rw [hexp, he]
    · exact hjp.trans ((narrow32_rounded_iff hq.nJP).mpr hj)
    · rw [hgold]
      exact herase
    · rw [← units_piles, ← units_piles]
      exact hserved k
    · rw [← hexact, ← units_piles, ← units_piles]
      exact hunits k

/-- When the payment after the gold goes through. -/
theorem payQuest_withGold_isSome_iff (hok : Ok s) (hq : q.m_QuestBase.Legal)
    (hrange : 0 ≤ s.purse q ∧ s.purse q ≤ MAX_GOLD_FOR_INVENTORY) :
    ((s.withGold (s.purse q)).payQuest q code nRewardID 1).isSome ↔
      Earns s q ∧ (eraseItems s.me q.objectives (s.withGold (s.purse q)).world).isSome ∧
        HasRoom s.world (rewards q nRewardID) (Stacks.takeAll (demands q) (s.world.piles (bag s.me))) := by
  rw [payQuest_isSome_iff (hok.withGold hrange.1 hrange.2) hq, ← piles_withGold s (s.purse q),
    hasRoom_congr (show (s.withGold (s.purse q)).world.itemBase = s.world.itemBase from rfl)]
  exact Iff.rfl

/-- A successful end is complete only if the quest is payable. -/
theorem payable_of_completed (hok : Ok s) (hcheck : s.checkFinishable code bForce = some q)
    (hrange : 0 ≤ s.purse q ∧ s.purse q ≤ MAX_GOLD_FOR_INVENTORY)
    (hpay : (s.withGold (s.purse q)).payQuest q code nRewardID 1 = some s')
    (hdone : Completed s s' q code nRewardID) : Payable s q nRewardID := by
  have hq := hok.active q (List.mem_of_find?_eq_some (findQuest_of_checkFinishable hcheck))
  have hpaid := paid_of_endQuest hok hcheck hrange hpay
  obtain ⟨hgold, hexp, ⟨hjp, hsum⟩, hserved, hexact⟩ := (completed_iff_of_paid hq hpaid).mp hdone
  have hsome : ((s.withGold (s.purse q)).payQuest q code nRewardID 1).isSome := Option.isSome_iff_exists.mpr ⟨s', hpay⟩
  obtain ⟨⟨hfirst, hpos, hfit, hnew⟩, -, hroom⟩ := (payQuest_withGold_isSome_iff hok hq hrange).mp hsome
  unfold purse at hrange
  rw [rounded_of_isFloat hgold] at hrange
  rw [rounded_of_isFloat hexp] at hfit hnew
  rw [rounded_of_isFloat hjp] at hpos
  exact ⟨⟨hgold, hrange⟩, ⟨hfirst, hexp, hfit, hnew⟩, ⟨hjp, hpos, hsum⟩, hserved, hroom, hexact⟩

/-- A payable quest is ended completely. -/
theorem completed_of_payable (hok : Ok s) (hcheck : s.checkFinishable code bForce = some q)
    (hrandom : q.quest.isRandomQuest = false) (hp : Payable s q nRewardID) :
    ∃ s', s.endQuest code nRewardID bForce = some (.success, s') ∧ Completed s s' q code nRewardID := by
  have hq := hok.active q (List.mem_of_find?_eq_some (findQuest_of_checkFinishable hcheck))
  obtain ⟨⟨hgold, hlow, hhigh⟩, ⟨hfirst, hexp, hfit, hnew⟩, ⟨hjp, hpos, hsum⟩, hserved, hroom, hexact⟩ := hp
  have hpurse : s.purse q = q.m_QuestBase.nGold + s.gold := by rw [purse, rounded_of_isFloat hgold]
  have hrange : 0 ≤ s.purse q ∧ s.purse q ≤ MAX_GOLD_FOR_INVENTORY := hpurse ▸ ⟨hlow, hhigh⟩
  have hlegal := legalGold hok
  have hwide : IsInt64 (rounded q.m_QuestBase.nGold) ∧ IsInt64 (s.purse q) := by
    rw [hpurse, rounded_of_isFloat hgold]
    have hown : 0 ≤ s.gold ∧ s.gold ≤ MAX_GOLD_FOR_INVENTORY := hlegal
    unfold MAX_GOLD_FOR_INVENTORY at hhigh hown
    unfold IsInt64
    omega
  have hearns : Earns s q := by
    unfold Earns
    rw [rounded_of_isFloat hexp, rounded_of_isFloat hjp]
    exact ⟨hfirst, hpos, hfit, hnew⟩
  have herases : (eraseItems s.me q.objectives (s.withGold (s.purse q)).world).isSome := by
    have hok₁ := hok.withGold hrange.1 hrange.2
    refine eraseItems_isSome hok₁.goods hok₁.online ?_
    rw [piles_withGold]
    exact hserved
  have hsome : ((s.withGold (s.purse q)).payQuest q code nRewardID 1).isSome :=
    (payQuest_withGold_isSome_iff hok hq hrange).mpr ⟨hearns, herases, hroom⟩
  obtain ⟨s', hpay⟩ := Option.isSome_iff_exists.mp hsome
  refine ⟨s', ?_, ?_⟩
  · rw [endQuest_eq hok hcheck hrandom, if_pos hwide, if_pos hrange, hpay]
    rfl
  · exact (completed_iff_of_paid hq (paid_of_endQuest hok hcheck hrange hpay)).mpr
      ⟨hgold, hexp, ⟨hjp, hsum⟩, hserved, hexact⟩

/-- **When ending a quest does what it should.** -/
theorem finishes_iff (hok : Ok s) : Finishes s code nRewardID bForce ↔
    Careful s (.finish code nRewardID bForce) := by
  constructor
  · intro h q hcheck
    have hrandom := fMod_isSome_iff.mp (h.inside q hcheck)
    refine ⟨hrandom, fun hfinishable => ?_⟩
    obtain ⟨r, s', hrun, hdone⟩ := h.completed q hcheck hfinishable
    rw [endQuest_eq hok hcheck hrandom] at hrun
    split_ifs at hrun with hwide hrange
    · obtain ⟨s₁, hpay, heq⟩ := Option.map_eq_some_iff.mp hrun
      obtain ⟨rfl, rfl⟩ := Prod.mk.inj heq
      exact .inr (payable_of_completed hok hcheck hrange hpay (hdone rfl))
    · exact .inl ⟨hwide.1, hwide.2, hrange⟩
  · intro h
    refine ⟨fun q hcheck => fMod_isSome_iff.mpr (h q hcheck).1, fun r s' hrun hr => ?_, fun q hcheck hfinishable => ?_⟩
    · rcases endQuest_cases hok hrun with ⟨-, hs⟩ | ⟨q, -, hsuccess, -⟩
      · exact hs
      · exact absurd hsuccess hr
    · obtain ⟨hrandom, hpays⟩ := h q hcheck
      rcases hpays hfinishable with ⟨hfit, hsum, hrange⟩ | hp
      · refine ⟨.tooMuchMoney, s, ?_, nofun⟩
        rw [endQuest_eq hok hcheck hrandom, if_pos ⟨hfit, hsum⟩]
        exact if_neg hrange
      · obtain ⟨s', hrun, hdone⟩ := completed_of_payable hok hcheck hrandom hp
        exact ⟨.success, s', hrun, fun _ => hdone⟩

theorem completes_of_ok (hok : Ok s) (c : QuestCall) : Completes s c ↔ Careful s c := by
  cases c with
  | start code nStartID bForce =>
    obtain ⟨s', hs', -⟩ := hok.startQuest code nStartID bForce
    exact iff_of_true (Option.isSome_iff_exists.mpr ⟨s', hs'⟩) trivial
  | hear e coded =>
    obtain ⟨s', hs', -⟩ := update_sameTasks hok.keys coded
    exact iff_of_true (Option.isSome_iff_exists.mpr ⟨s', hs'⟩) trivial
  | kill nMonsterID =>
    obtain ⟨s', hs', -⟩ := monsterKill_sameTasks s nMonsterID
    exact iff_of_true (Option.isSome_iff_exists.mpr ⟨s', hs'⟩) trivial
  | finish code nRewardID bForce => exact finishes_iff hok

/-- **When a call on the quest log does what it should**: after every run of calls. -/
theorem completes_iff (hok : Ok s) {cs : List QuestCall} (hrun : cs.foldlM exec s = some s') (c : QuestCall) :
    Completes s' c ↔ Careful s' c :=
  completes_of_ok (hok.run hrun) c

/-! ## Two quests -/

/-- A quest for items of two codes, the second in the fourth pair of values. -/
def collectQuest (code count : Int) : ActiveQuest where
  m_QuestBase :=
    { nType := .collect, nValue := ![7, 3, 0, 0, 0, 0, code, count, 0, 0, 0, 0], nEndType := 0, nCode := 1, nEXP := 100
      nJP := 10, nGold := 50, DefaultReward := ⟨0, 0, 0⟩, OptionalReward := fun _ => ⟨0, 0, 0⟩ }
  m_Instance :=
    { nProgress := .inProgress, nStatus := ![3, 0, 0], nRandomKey := fun _ => 0, nRandomValue := fun _ => 0 }
  m_bIsNeedUpdateToDB := false
  nID := 1
  nStartID := 0
  Code := 1

/-- The owner of five items of code 7, with such a quest. -/
def collector (code count : Int) : Adventurer where
  world := vault
  me := 1
  nEXP := 0
  nJP := 0
  m_vActiveQuest := [collectQuest code count]
  m_hsFinishedQuest := []
  m_QuestIndex := 1
  rows := []
  questBase _ := none
  needExp _ := 1000
  isStartableQuest _ := true
  baseSkillLevel _ := 0
  jobDepth := 0
  currentJLv := 1

theorem collector_ok (code count : Int) : Ok (collector code count) where
  goods := vault_ok
  online := rfl
  keys q hq := by
    rw [List.mem_singleton.mp hq]
    rfl
  active q hq := by
    rw [List.mem_singleton.mp hq]
    exact ⟨show IsInt32 10 by decide, show IsInt32 0 by decide, fun _ => show IsInt32 0 by decide⟩
  resource _ _ h := by cases h

theorem collector_check (code count : Int) :
    (collector code count).checkFinishable 1 false = some (collectQuest code count) := rfl

theorem isFloat_int {n : Int} (hn : n.natAbs < 2 ^ 24) : IsFloat (n : ℚ) := ⟨n, 0, hn, .inl (by rw [pow_zero, mul_one])⟩

/-- The fourth pair asks for the two items that the first one leaves, and the quest is ended completely. -/
theorem collector_completes : Completes (collector 7 2) (.finish 1 0 false) := by
  refine (completes_iff (collector_ok 7 2) (show [].foldlM exec (collector 7 2) = some (collector 7 2) from rfl) _).mpr fun q hcheck => ?_
  obtain rfl := Option.some.inj ((collector_check 7 2).symm.trans hcheck)
  refine ⟨rfl, fun _ => .inr ⟨⟨isFloat_int (by decide), by decide, by decide⟩,
    ⟨by decide, isFloat_int (by decide), by decide, by decide⟩, ⟨isFloat_int (by decide), by decide, by decide⟩,
    by decide +kernel, trivial, fun k => rfl⟩⟩

/-- The fourth pair is not looked at, and the quest is ended without the four items of code 9. -/
theorem not_completes : ¬∀ s, Ok s → ∀ c, Completes s c := by
  intro h
  have hdone := (finishes_iff (collector_ok 9 4)).mp (h (collector 9 4) (collector_ok 9 4) (.finish 1 0 false))
  rcases (hdone _ (collector_check 9 4)).2 rfl with hrefused | hp
  · exact absurd hrefused.2.2 (by decide +kernel)
  · exact absurd hp.served (by decide +kernel)

end Adventurer

end RZEmulator.Chihiro
