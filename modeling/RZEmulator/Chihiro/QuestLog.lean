import RZEmulator.Chihiro.QuestManager

/-!
# What the quest log keeps

Every event leaves the quests of the log as they are up to their statuses, and in bounds as long as no quest has
random keys (`QuestManager.Kept`). No function of the source sets those keys, and `Adventurer.Ok` says so, next to what
it says of the player's goods; starting, updating and ending quests keep it.
-/

namespace RZEmulator.Chihiro

open Lib World

namespace QuestManager

variable {q : Quest} {qs : List Quest} {code count : Int}

/-- There is a result, in which the quests are the same up to their statuses. -/
def Kept (f : List Quest → Option (List Quest)) (qs : List Quest) : Prop :=
  ∃ qs', f qs = some qs' ∧ qs'.map Quest.task = qs.map Quest.task

/-- The same for one quest. -/
def KeptQuest (f : Quest → Option Quest) (q : Quest) : Prop := ∃ q', f q = some q' ∧ q'.task = q.task

theorem keptQuest_self (q : Quest) : KeptQuest some q := ⟨q, rfl, rfl⟩

theorem keptQuest_updateStatus {i : Nat} (hi : i < 3) (v : Int) (q : Quest) :
    KeptQuest (fun q => q.updateStatus i v) q :=
  ⟨_, Quest.updateStatus_val (i := ⟨i, hi⟩), rfl⟩

theorem KeptQuest.bind {f g : Quest → Option Quest} (hf : KeptQuest f q) (hg : ∀ q, KeptQuest g q) :
    KeptQuest (fun q => (f q).bind g) q := by
  obtain ⟨q₁, hq₁, htask₁⟩ := hf
  obtain ⟨q₂, hq₂, htask₂⟩ := hg q₁
  refine ⟨q₂, ?_, htask₂.trans htask₁⟩
  dsimp only
  rw [hq₁, Option.bind_some, hq₂]

theorem kept_mapM {f : Quest → Option Quest} (hf : ∀ q, KeptQuest f q) (qs : List Quest) : Kept (List.mapM f) qs := by
  induction qs with
  | nil => exact ⟨[], rfl, rfl⟩
  | cons q qs ih =>
    obtain ⟨q', hq', htask⟩ := hf q
    obtain ⟨qs', hqs', htasks⟩ := ih
    refine ⟨q' :: qs', ?_, ?_⟩
    · rw [List.mapM_cons, hq', hqs']
      rfl
    · rw [List.map_cons, List.map_cons, htask, htasks]

theorem kept_cons {f : List Quest → Option (List Quest)} {q' : Quest} (htask : q'.task = q.task) (h : Kept f qs) :
    ∃ qs', (f qs).map (q' :: ·) = some qs' ∧ qs'.map Quest.task = (q :: qs).map Quest.task := by
  obtain ⟨qs', hqs', htasks⟩ := h
  refine ⟨q' :: qs', ?_, ?_⟩
  · rw [hqs']
    rfl
  · rw [List.map_cons, List.map_cons, htask, htasks]

/-- With no random keys, an item has no code that a random quest looks for. -/
theorem kept_itemCount (hcode : code ≠ 0) (hkeys : ∀ q ∈ qs, q.m_Instance.nRandomKey = fun _ => 0) :
    Kept (updateQuestStatusByItemCount code count) qs := by
  induction qs with
  | nil => exact ⟨[], rfl, rfl⟩
  | cons q qs ih =>
    have hrest := ih fun a ha => hkeys a (List.mem_cons_of_mem q ha)
    rcases itemCount_cons q qs with ⟨i, o, -, -, heq⟩ | ⟨⟨i, hi⟩, htype, -⟩ | ⟨-, heq⟩
    · exact ⟨_, heq, rfl⟩
    · obtain ⟨-, ⟨hpaired, -⟩ | ⟨-, hkey⟩⟩ := isSome_objective_itemCount.mp hi
      · exact absurd htype (not_random_of_paired hpaired).1
      · rw [hkeys q List.mem_cons_self] at hkey
        exact absurd hkey.symm hcode
    · obtain ⟨qs', hqs', htasks⟩ := kept_cons (rfl : q.task = q.task) hrest
      exact ⟨qs', heq.trans hqs', htasks⟩

theorem kept_skillLevel (nSkillID nSkillLevel : Int) (qs : List Quest) :
    Kept (updateQuestStatusBySkillLevel nSkillID nSkillLevel) qs := by
  induction qs generalizing nSkillID with
  | nil => exact ⟨[], rfl, rfl⟩
  | cons q qs ih =>
    have hstep : ∃ id q', skillStep nSkillLevel nSkillID q = some (id, q') ∧ q'.task = q.task := by
      unfold skillStep
      split_ifs
      · cases pairOf q nSkillID with
        | none => exact ⟨_, _, rfl, rfl⟩
        | some i =>
          dsimp only
          rw [Quest.updateStatus_val]
          exact ⟨_, _, rfl, rfl⟩
      · exact ⟨_, _, rfl, rfl⟩
    obtain ⟨id, q', hq', htask⟩ := hstep
    obtain ⟨qs', hqs', htasks⟩ := kept_cons htask (ih id)
    refine ⟨qs', ?_, htasks⟩
    rw [updateQuestStatusBySkillLevel, hq', Option.bind_some]
    exact hqs'

theorem kept_jobLevel (nJobDepth nJobLevel : Int) (qs : List Quest) :
    Kept (updateQuestStatusByJobLevel nJobDepth nJobLevel) qs := by
  induction qs generalizing nJobDepth nJobLevel with
  | nil => exact ⟨[], rfl, rfl⟩
  | cons q qs ih =>
    unfold Kept
    rw [updateQuestStatusByJobLevel]
    split_ifs
    · obtain ⟨q₁, hq₁, htask₁⟩ := keptQuest_updateStatus (i := 0) (by decide) (clip nJobDepth (q.getValue 0)) q
      obtain ⟨q₂, hq₂, htask₂⟩ := keptQuest_updateStatus (i := 1) (by decide) (clip nJobLevel (q₁.getValue 1)) q₁
      dsimp only at hq₁ hq₂ ⊢
      rw [hq₁, Option.bind_some, hq₂, Option.bind_some]
      exact kept_cons (htask₂.trans htask₁) (ih _ _)
    · exact kept_cons rfl (ih _ _)

theorem keptQuest_ite {c : Quest → Prop} [DecidablePred c] {f g : Quest → Option Quest} (hf : KeptQuest f q)
    (hg : KeptQuest g q) : KeptQuest (fun q => if c q then f q else g q) q := by
  by_cases hc : c q
  · obtain ⟨q', hq', htask⟩ := hf
    exact ⟨q', (if_pos hc).trans hq', htask⟩
  · obtain ⟨q', hq', htask⟩ := hg
    exact ⟨q', (if_neg hc).trans hq', htask⟩

theorem kept_parameter (parameter_id value : Int) (qs : List Quest) :
    Kept (updateQuestStatusByParameter parameter_id value) qs := by
  have htest : ∀ i < 3, ∀ (idx : Nat) (q : Quest),
      KeptQuest (fun q => if q.getValue idx = parameter_id then q.updateStatus i value else some q) q :=
    fun i hi idx q => keptQuest_ite (keptQuest_updateStatus hi value q) (keptQuest_self q)
  refine kept_mapM (fun q => keptQuest_ite ?_ (keptQuest_self q)) qs
  exact (htest 0 (by decide) 0 q).bind fun q => (htest 1 (by decide) 3 q).bind fun q => htest 2 (by decide) 6 q

theorem kept_update {e : QuestEvent} (hkeys : ∀ q ∈ qs, q.m_Instance.nRandomKey = fun _ => 0)
    (he : ∀ code count, e = .itemCount code count → code ≠ 0) : Kept (update e) qs := by
  cases e with
  | itemCount code count => exact kept_itemCount (he code count rfl) hkeys
  | skillLevel nSkillID nSkillLevel => exact kept_skillLevel nSkillID nSkillLevel qs
  | jobLevel nJobDepth nJobLevel => exact kept_jobLevel nJobDepth nJobLevel qs
  | parameter parameter_id value => exact kept_parameter parameter_id value qs

/-- Every branch of a kill ends in one slot, or in none. -/
theorem kept_monsterKill (nMonsterID : Int) (qs : List Quest) : Kept (updateQuestStatusByMonsterKill nMonsterID) qs := by
  refine kept_mapM (fun q => ?_) qs
  have hup : ∀ i : Fin 3, (up q i).task = q.task := fun _ => rfl
  by_cases hlook : related 1030 q ∧ q.Running ∧ q.isFinishable = false
  · unfold KeptQuest
    rcases checkQuestTypeFlag_kill.mp (of_decide_eq_true hlook.1).2 with htype | htype | htype
    · rw [killStep_killTotal htype hlook]
      split_ifs
      · exact ⟨_, rfl, hup 0⟩
      · exact ⟨_, rfl, rfl⟩
    · rw [killStep_killIndividual htype hlook]
      split_ifs
      · exact ⟨_, rfl, hup 0⟩
      · exact ⟨_, rfl, hup 1⟩
      · exact ⟨_, rfl, hup 2⟩
      · exact ⟨_, rfl, rfl⟩
    · rw [killStep_randomKillIndividual htype hlook]
      split_ifs
      · exact ⟨_, rfl, hup 0⟩
      · exact ⟨_, rfl, hup 0⟩
      · exact ⟨_, rfl, hup 0⟩
      · exact ⟨_, rfl, rfl⟩
  · exact ⟨q, killStep_of_not_looked hlook, rfl⟩

theorem kept_upgrade (worn : Int → Option Int) (qs : List Quest) :
    Kept (List.mapM (Adventurer.upgradeStep worn)) qs := by
  have hobjective : ∀ i < 3, ∀ q : Quest, KeptQuest (fun q => Adventurer.upgradeObjective worn q i) q := by
    intro i hi q
    refine keptQuest_ite ?_ (keptQuest_self q)
    unfold KeptQuest
    dsimp only
    cases worn (q.getValue (2 * i)) with
    | none => exact keptQuest_updateStatus hi 0 q
    | some qv =>
      dsimp only
      rw [show q.updateStatus i _ = _ from Quest.updateStatus_val (i := ⟨i, hi⟩)]
      exact ⟨_, rfl, rfl⟩
  refine kept_mapM (fun q => keptQuest_ite ?_ (keptQuest_self q)) qs
  have hloop : (fun q => (List.range 3).foldlM (Adventurer.upgradeObjective worn) q) =
      fun q => (Adventurer.upgradeObjective worn q 0).bind fun q =>
        (Adventurer.upgradeObjective worn q 1).bind fun q => Adventurer.upgradeObjective worn q 2 := by
    funext q
    simp [List.range_succ, List.foldlM_cons]
  rw [hloop]
  exact (hobjective 0 (by decide) q).bind fun q => (hobjective 1 (by decide) q).bind fun q =>
    hobjective 2 (by decide) q

end QuestManager

/-! ## The log -/

namespace ActiveQuest

/-- The quest without its statuses. -/
def task (q : ActiveQuest) : ActiveQuest := q.withQuest q.quest.task

theorem task_withQuest {q : ActiveQuest} {r : Quest} (h : r.task = q.quest.task) : (q.withQuest r).task = q.task := by
  have hinst : ({ r.m_Instance with nStatus := fun _ => 0 } : QuestInstance) =
      { q.m_Instance with nStatus := fun _ => 0 } := congrArg Quest.m_Instance h
  unfold task withQuest quest Quest.task
  simp only [hinst]

end ActiveQuest

namespace Adventurer

variable {s s' : Adventurer} {e : QuestEvent} {code nStartID nMonsterID : Int} {bForce : Bool}

/-- Nothing but the statuses of the quests is different. -/
structure SameTasks (s s' : Adventurer) : Prop where
  eq : s' = { s with m_vActiveQuest := s'.m_vActiveQuest }
  task : s'.m_vActiveQuest.map ActiveQuest.task = s.m_vActiveQuest.map ActiveQuest.task

theorem SameTasks.refl (s : Adventurer) : SameTasks s s := ⟨rfl, rfl⟩

theorem SameTasks.trans {s₂ : Adventurer} (h : SameTasks s s') (h' : SameTasks s' s₂) : SameTasks s s₂ := by
  refine ⟨?_, h'.task.trans h.task⟩
  rw [h'.eq, h.eq]

theorem map_task_zipWith {l : List ActiveQuest} {qs : List Quest}
    (h : qs.map Quest.task = (l.map ActiveQuest.quest).map Quest.task) :
    (l.zipWith ActiveQuest.withQuest qs).map ActiveQuest.task = l.map ActiveQuest.task := by
  induction l generalizing qs with
  | nil => rfl
  | cons q l ih =>
    cases qs with
    | nil => cases h
    | cons r qs =>
      obtain ⟨hhead, htail⟩ := List.cons.inj h
      rw [List.zipWith_cons_cons, List.map_cons, List.map_cons, ActiveQuest.task_withQuest hhead, ih htail]

theorem sameTasks_of_kept {f : List Quest → Option (List Quest)}
    (h : QuestManager.Kept f (s.m_vActiveQuest.map ActiveQuest.quest)) :
    ∃ s', (f (s.m_vActiveQuest.map ActiveQuest.quest)).map s.withQuests = some s' ∧ SameTasks s s' := by
  obtain ⟨qs, hqs, htasks⟩ := h
  refine ⟨s.withQuests qs, ?_, rfl, map_task_zipWith htasks⟩
  rw [hqs]
  rfl

/-- No active quest has random keys. -/
def KeysZero (s : Adventurer) : Prop := ∀ q ∈ s.m_vActiveQuest, q.m_Instance.nRandomKey = fun _ => 0

theorem KeysZero.sameTasks (h : KeysZero s) (hs : SameTasks s s') : KeysZero s' := by
  intro q hq
  have hmem : q.task ∈ s.m_vActiveQuest.map ActiveQuest.task := hs.task ▸ List.mem_map_of_mem hq
  obtain ⟨a, ha, htask⟩ := List.mem_map.mp hmem
  exact (congrArg (·.m_Instance.nRandomKey) htask).symm.trans (h a ha)

/-- **Every event is in bounds**, and leaves the quests as they are up to their statuses. -/
theorem update_sameTasks (hkeys : KeysZero s) (he : ∀ code count, e = .itemCount code count → code ≠ 0) :
    ∃ s', s.update e = some s' ∧ SameTasks s s' := by
  refine sameTasks_of_kept (QuestManager.kept_update (fun q hq => ?_) he)
  obtain ⟨a, ha, rfl⟩ := List.mem_map.mp hq
  exact hkeys a ha

theorem monsterKill_sameTasks (s : Adventurer) (nMonsterID : Int) :
    ∃ s', s.monsterKill nMonsterID = some s' ∧ SameTasks s s' :=
  sameTasks_of_kept (QuestManager.kept_monsterKill nMonsterID _)

/-! ## Starting -/

theorem foldlM_sameTasks {α : Type} {f : Adventurer → α → Option Adventurer}
    (hf : ∀ s, KeysZero s → ∀ a, ∃ s', f s a = some s' ∧ SameTasks s s') (l : List α) (hkeys : KeysZero s) :
    ∃ s', l.foldlM f s = some s' ∧ SameTasks s s' := by
  induction l generalizing s with
  | nil => exact ⟨s, rfl, .refl s⟩
  | cons a l ih =>
    obtain ⟨s₁, hs₁, hsame₁⟩ := hf s hkeys a
    obtain ⟨s₂, hs₂, hsame₂⟩ := ih (hkeys.sameTasks hsame₁)
    refine ⟨s₂, ?_, hsame₁.trans hsame₂⟩
    rw [List.foldlM_cons, hs₁]
    exact hs₂

theorem updateByItem_sameTasks (hkeys : KeysZero s) (nItemCode : Int) :
    ∃ s', s.updateByItem nItemCode = some s' ∧ SameTasks s s' := by
  unfold updateByItem
  split_ifs with hcode
  · cases s.world.findByCode (bag s.me) nItemCode with
    | none => exact ⟨s, rfl, .refl s⟩
    | some item =>
      refine update_sameTasks hkeys fun code count he => ?_
      obtain ⟨rfl, -⟩ := QuestEvent.itemCount.inj he
      exact hcode
  · exact ⟨s, rfl, .refl s⟩

theorem updateByItems_sameTasks (hkeys : KeysZero s) (q : ActiveQuest) :
    ∃ s', s.updateByItems q = some s' ∧ SameTasks s s' := by
  unfold updateByItems
  split_ifs
  · exact foldlM_sameTasks (fun s hkeys i => updateByItem_sameTasks hkeys _) _ hkeys
  · exact foldlM_sameTasks (fun s hkeys i => updateByItem_sameTasks hkeys _) _ hkeys
  · exact ⟨s, rfl, .refl s⟩

theorem updateBySkills_sameTasks (hkeys : KeysZero s) (q : ActiveQuest) :
    ∃ s', s.updateBySkills q = some s' ∧ SameTasks s s' := by
  unfold updateBySkills
  split_ifs
  · refine foldlM_sameTasks (fun s hkeys i => update_sameTasks hkeys fun code count he => ?_) _ hkeys
    exact QuestEvent.noConfusion he
  · exact ⟨s, rfl, .refl s⟩

theorem updateByJob_sameTasks (hkeys : KeysZero s) (q : ActiveQuest) :
    ∃ s', s.updateByJob q = some s' ∧ SameTasks s s' := by
  unfold updateByJob
  split_ifs
  · exact update_sameTasks hkeys fun code count he => QuestEvent.noConfusion he
  · exact ⟨s, rfl, .refl s⟩

theorem updateByParameter_sameTasks (hkeys : KeysZero s) (q : ActiveQuest) :
    ∃ s', s.updateByParameter q = some s' ∧ SameTasks s s' := by
  unfold updateByParameter
  split_ifs
  · exact update_sameTasks hkeys fun code count he => QuestEvent.noConfusion he
  · exact ⟨s, rfl, .refl s⟩

/-- The statuses of a new quest are found out in bounds. -/
theorem updateQuestStatus_sameTasks (hkeys : KeysZero s) (q : ActiveQuest) :
    ∃ s', s.updateQuestStatus q = some s' ∧ SameTasks s s' := by
  obtain ⟨s₁, hs₁, hsame₁⟩ := updateByItems_sameTasks hkeys q
  have hkeys₁ := hkeys.sameTasks hsame₁
  obtain ⟨s₂, hs₂, hsame₂⟩ := updateBySkills_sameTasks hkeys₁ q
  have hkeys₂ := hkeys₁.sameTasks hsame₂
  obtain ⟨s₃, hs₃, hsame₃⟩ := updateByJob_sameTasks hkeys₂ q
  obtain ⟨s₄, hs₄, hsame₄⟩ := updateByParameter_sameTasks (hkeys₂.sameTasks hsame₃) q
  obtain ⟨s₅, hs₅, hsame₅⟩ := sameTasks_of_kept (s := s₄) (QuestManager.kept_upgrade s₄.wornLevel _)
  refine ⟨s₅, ?_, (((hsame₁.trans hsame₂).trans hsame₃).trans hsame₄).trans hsame₅⟩
  unfold updateQuestStatus
  rw [hs₁, Option.bind_some, hs₂, Option.bind_some, hs₃, Option.bind_some, hs₄, Option.bind_some]
  exact hs₅

end Adventurer

/-! ## What is kept -/

/-- The numbers of the template are those of 32 bits that the resource table has. -/
structure QuestTemplate.Legal (base : QuestTemplate) : Prop where
  nJP : IsInt32 base.nJP
  default : IsInt32 base.DefaultReward.nQuantity
  optional : ∀ i, IsInt32 (base.OptionalReward i).nQuantity

namespace Adventurer

/-- What starting, updating and ending quests keep. -/
structure Ok (s : Adventurer) : Prop where
  goods : GoodsOk s.world
  online : s.world.playerPool s.me = true
  keys : KeysZero s
  active : ∀ q ∈ s.m_vActiveQuest, q.m_QuestBase.Legal
  resource : ∀ code base, s.questBase code = some base → base.Legal

variable {s s' : Adventurer} {code nStartID : Int} {bForce : Bool}

theorem Ok.sameTasks (h : Ok s) (hs : SameTasks s s') : Ok s' := by
  have hworld : s'.world = s.world := (congrArg Adventurer.world hs.eq).trans rfl
  have hme : s'.me = s.me := (congrArg Adventurer.me hs.eq).trans rfl
  have hbase : s'.questBase = s.questBase := (congrArg Adventurer.questBase hs.eq).trans rfl
  refine ⟨hworld ▸ h.goods, ?_, h.keys.sameTasks hs, fun q hq => ?_, hbase ▸ h.resource⟩
  · rw [hworld, hme]
    exact h.online
  · have hmem : q.task ∈ s.m_vActiveQuest.map ActiveQuest.task := hs.task ▸ List.mem_map_of_mem hq
    obtain ⟨a, ha, htask⟩ := List.mem_map.mp hmem
    have hsame : a.task.m_QuestBase = q.task.m_QuestBase := congrArg ActiveQuest.m_QuestBase htask
    exact (show a.m_QuestBase = q.m_QuestBase from hsame) ▸ h.active a ha

theorem Ok.insertRow (h : Ok s) (code : Int) : Ok (s.insertRow code) := by
  unfold Adventurer.insertRow
  cases s.findQuest code with
  | none => exact h
  | some q => exact ⟨h.goods, h.online, h.keys, h.active, h.resource⟩

/-- **A quest is started in bounds.** -/
theorem Ok.startQuest (h : Ok s) (code nStartID : Int) (bForce : Bool) :
    ∃ s', s.startQuest code nStartID bForce = some s' ∧ Ok s' := by
  unfold Adventurer.startQuest
  cases hbase : s.questBase code with
  | none => exact ⟨s, rfl, h⟩
  | some base =>
    dsimp only
    split_ifs with hfull hstart
    · exact ⟨s, rfl, h⟩
    · exact ⟨s, rfl, h⟩
    unfold managerStartQuest
    split_ifs with hrefuse
    · exact ⟨s, rfl, h⟩
    dsimp only
    have hnew : Ok { s with
        m_QuestIndex := s.m_QuestIndex + 1
        m_vActiveQuest := s.m_vActiveQuest ++ [.alloc base (s.m_QuestIndex + 1) code nStartID] } := by
      refine ⟨h.goods, h.online, fun q hq => ?_, fun q hq => ?_, h.resource⟩
      · rcases List.mem_append.mp hq with hq | hq
        · exact h.keys q hq
        · obtain rfl := List.mem_singleton.mp hq
          rfl
      · rcases List.mem_append.mp hq with hq | hq
        · exact h.active q hq
        · obtain rfl := List.mem_singleton.mp hq
          exact h.resource code base hbase
    split
    · exact ⟨_, rfl, hnew⟩
    · rename_i q _
      obtain ⟨s₁, hs₁, hsame⟩ := updateQuestStatus_sameTasks hnew.keys q
      rw [hs₁]
      exact ⟨_, rfl, (hnew.sameTasks hsame).insertRow code⟩

end Adventurer

end RZEmulator.Chihiro
