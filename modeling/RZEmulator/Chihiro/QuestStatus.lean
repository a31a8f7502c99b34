import Mathlib.Data.List.Forall2
import Mathlib.Data.List.Perm.Basic
import RZEmulator.Chihiro.Quest
import RZEmulator.Lib.MachineInt

/-!
# Quest statuses from an event

The four updates of `QuestManager` by an event of the player: an item count, a skill level, a job level and
a parameter. Each goes through the active quests and gives the matching objectives a new status.

`broadcast_iff` says for which event and which tasks every matching objective gets the smaller of the event's value
and its own requirement, whatever the statuses are and in whatever order the quests are listed. The updates differ in
what goes wrong: the first stops after one quest, the next two clip a variable that the following quests still read,
the last does not clip.
-/

namespace RZEmulator.Chihiro

open Lib

inductive QuestEvent where
  | itemCount (code count : Int)
  | skillLevel (nSkillID nSkillLevel : Int)
  | jobLevel (nJobDepth nJobLevel : Int)
  | parameter (parameter_id value : Int)

namespace QuestManager

/-! ## The updates -/

/-- An item the quest is about, where its type is one about items. -/
def namesItem (code : Int) (q : Quest) : Bool :=
  match q.m_QuestBase.nType with
  | .huntItem => q.getValue 0 = code ∨ q.getValue 2 = code ∨ q.getValue 4 = code
  | .huntItemFromAnyMonsters => q.getValue 0 = code ∨ q.getValue 2 = code ∨ q.getValue 4 = code
  | .collect => q.getValue 0 = code ∨ q.getValue 2 = code ∨ q.getValue 4 = code ∨ q.getValue 6 = code ∨
      q.getValue 8 = code ∨ q.getValue 10 = code
  | .randomCollect =>
    q.getRandomKey 0 = some code ∨ q.getRandomKey 1 = some code ∨ q.getRandomKey 2 = some code
  | _ => false

/-- The condition of `GetRelatedQuestByItem` on a quest. -/
def relatedByItem (code : Int) (flag : Nat) (q : Quest) : Bool :=
  q.Running ∧ checkQuestTypeFlag q.m_QuestBase.nType flag ∧ namesItem code q

/-- The condition of `GetRelatedQuest` on a quest. -/
def related (flag : Nat) (q : Quest) : Bool := q.Running ∧ checkQuestTypeFlag q.m_QuestBase.nType flag

/-- The statement `if (x > v) x = v`. -/
def clip (x v : Int) : Int := if x > v then v else x

/-- The first of the three pairs of values whose even one is `code`. -/
def pairOf (q : Quest) (code : Int) : Option (Fin 3) :=
  if q.getValue 0 = code then some Quest.first else if q.getValue 2 = code then some Quest.second
  else if q.getValue 4 = code then some Quest.third else none

/-- The loop over the related quests, which returns at the first that is updated. -/
def updateQuestStatusByItemCount (code count : Int) : List Quest → Option (List Quest)
  | [] => some []
  | q :: qs =>
    if relatedByItem code 6168 q then
      if q.isRandomQuest then
        -- the key is read at six, not at the loop's index
        (q.getRandomKey 6).bind fun key =>
          if key = code then
            (q.getRandomValue 0).bind fun qv =>
              (q.updateStatus 0 (narrow32 (clip count qv))).map (· :: qs)
          else (updateQuestStatusByItemCount code count qs).map (q :: ·)
      else
        match pairOf q code with
        | some i => (q.updateStatus i (narrow32 (clip count (q.getValue (2 * i + 1))))).map (· :: qs)
        | none => (updateQuestStatusByItemCount code count qs).map (q :: ·)
    else (updateQuestStatusByItemCount code count qs).map (q :: ·)

/-- The body of the loop of `UpdateQuestStatusBySkillLevel`: what is clipped is the skill, not its level. -/
def skillStep (nSkillLevel nSkillID : Int) (q : Quest) : Option (Int × Quest) :=
  if q.Running ∧ q.m_QuestBase.nType = .learnSkill then
    match pairOf q nSkillID with
    | some i => (q.updateStatus i nSkillLevel).map fun q' => (clip nSkillID (q.getValue (2 * i + 1)), q')
    | none => some (nSkillID, q)
  else some (nSkillID, q)

def updateQuestStatusBySkillLevel (nSkillID nSkillLevel : Int) : List Quest → Option (List Quest)
  | [] => some []
  | q :: qs => (skillStep nSkillLevel nSkillID q).bind fun r =>
      (updateQuestStatusBySkillLevel r.1 nSkillLevel qs).map (r.2 :: ·)

def updateQuestStatusByJobLevel (nJobDepth nJobLevel : Int) : List Quest → Option (List Quest)
  | [] => some []
  | q :: qs =>
    if related 256 q ∧ q.Running ∧ q.m_QuestBase.nType = .jobLevel then
      let nJobDepth := clip nJobDepth (q.getValue 0)
      (q.updateStatus 0 nJobDepth).bind fun q =>
        let nJobLevel := clip nJobLevel (q.getValue 1)
        (q.updateStatus 1 nJobLevel).bind fun q =>
          (updateQuestStatusByJobLevel nJobDepth nJobLevel qs).map (q :: ·)
    else (updateQuestStatusByJobLevel nJobDepth nJobLevel qs).map (q :: ·)

/-- The three tests of the parameter quest; the value is stored as it is. -/
def parameterStep (parameter_id value : Int) (q : Quest) : Option Quest :=
  if related 512 q ∧ q.Running ∧ q.m_QuestBase.nType = .parameter then
    (if q.getValue 0 = parameter_id then q.updateStatus 0 value else some q).bind fun q =>
      (if q.getValue 3 = parameter_id then q.updateStatus 1 value else some q).bind fun q =>
        if q.getValue 6 = parameter_id then q.updateStatus 2 value else some q
  else some q

def updateQuestStatusByParameter (parameter_id value : Int) (qs : List Quest) : Option (List Quest) :=
  qs.mapM (parameterStep parameter_id value)

def update : QuestEvent → List Quest → Option (List Quest)
  | .itemCount code count => updateQuestStatusByItemCount code count
  | .skillLevel nSkillID nSkillLevel => updateQuestStatusBySkillLevel nSkillID nSkillLevel
  | .jobLevel nJobDepth nJobLevel => updateQuestStatusByJobLevel nJobDepth nJobLevel
  | .parameter parameter_id value => updateQuestStatusByParameter parameter_id value

/-! ## The claim -/

/-- The types whose objectives are pairs of an item and its count. -/
abbrev Paired (q : Quest) : Prop :=
  q.m_QuestBase.nType = .huntItem ∨ q.m_QuestBase.nType = .huntItemFromAnyMonsters ∨
    q.m_QuestBase.nType = .collect

/-- The status slot `i` of the quest belongs to an objective that the event is about: the event's value and
the required one. The last three items of a collect quest have no slot. -/
def objective : QuestEvent → Quest → Fin 3 → Option (Int × Int)
  | .itemCount code count, q, i =>
    if q.Running ∧ Paired q ∧ q.getValue (2 * i) = code then some (count, q.getValue (2 * i + 1))
    else if q.Running ∧ q.m_QuestBase.nType = .randomCollect ∧ q.m_Instance.nRandomKey i = code then
      some (count, q.m_Instance.nRandomValue i)
    else none
  | .skillLevel nSkillID nSkillLevel, q, i =>
    if q.Running ∧ q.m_QuestBase.nType = .learnSkill ∧ q.getValue (2 * i) = nSkillID then
      some (nSkillLevel, q.getValue (2 * i + 1))
    else none
  | .jobLevel nJobDepth nJobLevel, q, i =>
    if q.Running ∧ q.m_QuestBase.nType = .jobLevel then
      if i = Quest.first then some (nJobDepth, q.getValue 0)
      else if i = Quest.second then some (nJobLevel, q.getValue 1)
      else none
    else none
  | .parameter parameter_id value, q, i =>
    if q.Running ∧ q.m_QuestBase.nType = .parameter ∧ q.getValue (3 * i) = parameter_id then
      some (value, q.getValue (3 * i + 2))
    else none

/-- The statuses the event should leave. -/
def expected (e : QuestEvent) (q : Quest) (i : Fin 3) : Int :=
  match objective e q i with
  | some (value, required) => min value required
  | none => q.m_Instance.nStatus i

/-- The same quest with the statuses the event should leave. -/
def Updated (e : QuestEvent) (q q' : Quest) : Prop := q'.task = q.task ∧ q'.m_Instance.nStatus = expected e q

def Broadcast (e : QuestEvent) (qs : List Quest) : Prop :=
  ∃ qs', update e qs = some qs' ∧ List.Forall₂ (Updated e) qs qs'

/-- The same tasks in another order and at another stage. -/
def Relisted (qs l : List Quest) : Prop := (l.map Quest.task).Perm (qs.map Quest.task)

def Matches (e : QuestEvent) (q : Quest) : Prop := ∃ i, (objective e q i).isSome

/-- The event is about one objective of the quest at most. -/
def Single (e : QuestEvent) (q : Quest) : Prop :=
  ∀ i j, (objective e q i).isSome → (objective e q j).isSome → i = j

/-- A requirement of the first quest below the number of the skill hides neither the skill nor itself in the other
quest: that number is what the following quests are searched for. -/
def Apart (nSkillID nSkillLevel : Int) (q q' : Quest) : Prop :=
  ∀ i o, objective (.skillLevel nSkillID nSkillLevel) q i = some o → o.2 < nSkillID →
    ¬Matches (.skillLevel nSkillID nSkillLevel) q' ∧ ¬Matches (.skillLevel o.2 nSkillLevel) q'

/-- The tasks for which nothing goes wrong. -/
def Careful : QuestEvent → List Quest → Prop
  | .itemCount code count, qs =>
    (∀ q ∈ qs, Matches (.itemCount code count) q → q.m_QuestBase.nType ≠ .randomCollect) ∧
      (∀ q ∈ qs, Single (.itemCount code count) q) ∧
      (∀ q ∈ qs, ∀ i o, objective (.itemCount code count) q i = some o → IsInt32 (min o.1 o.2)) ∧
      qs.Pairwise fun q q' => ¬(Matches (.itemCount code count) q ∧ Matches (.itemCount code count) q')
  | .skillLevel nSkillID nSkillLevel, qs =>
    (∀ q ∈ qs, Single (.skillLevel nSkillID nSkillLevel) q) ∧
      (∀ q ∈ qs, ∀ i o, objective (.skillLevel nSkillID nSkillLevel) q i = some o → o.1 ≤ o.2) ∧
      qs.Pairwise fun q q' => Apart nSkillID nSkillLevel q q' ∧ Apart nSkillID nSkillLevel q' q
  | .jobLevel nJobDepth nJobLevel, qs =>
    qs.Pairwise fun q q' => ∀ i o o', objective (.jobLevel nJobDepth nJobLevel) q i = some o →
      objective (.jobLevel nJobDepth nJobLevel) q' i = some o' → min o.1 o.2 = min o'.1 o'.2
  | .parameter parameter_id value, qs =>
    ∀ q ∈ qs, ∀ i o, objective (.parameter parameter_id value) q i = some o → o.1 ≤ o.2

variable {e : QuestEvent} {q q' : Quest} {qs l : List Quest} {i : Fin 3} {o : Int × Int} {v x : Int}

/-! ## Tasks -/

theorem careful_map_task : Careful e (qs.map Quest.task) ↔ Careful e qs := by
  cases e <;> simp only [Careful, List.pairwise_map, List.forall_mem_map] <;> rfl

theorem Careful.perm (h : Careful e qs) (hp : l.Perm qs) : Careful e l := by
  cases e with
  | itemCount code count =>
    obtain ⟨htype, hsingle, hfit, hpair⟩ := h
    refine ⟨fun q hq => htype q (hp.mem_iff.mp hq), fun q hq => hsingle q (hp.mem_iff.mp hq),
      fun q hq => hfit q (hp.mem_iff.mp hq), ?_⟩
    exact (hp.pairwise_iff fun h hc => h hc.symm).mpr hpair
  | skillLevel nSkillID nSkillLevel =>
    obtain ⟨hsingle, hle, hpair⟩ := h
    refine ⟨fun q hq => hsingle q (hp.mem_iff.mp hq), fun q hq => hle q (hp.mem_iff.mp hq), ?_⟩
    exact (hp.pairwise_iff fun h => h.symm).mpr hpair
  | jobLevel nJobDepth nJobLevel =>
    exact (hp.pairwise_iff fun h i o o' ho ho' => (h i o' o ho' ho).symm).mpr h
  | parameter parameter_id value => exact fun q hq => h q (hp.mem_iff.mp hq)

theorem Careful.relisted (h : Careful e qs) (hl : Relisted qs l) : Careful e l :=
  careful_map_task.mp ((careful_map_task.mpr h).perm hl)

/-- The quest at a stage in which no matching objective has the expected status. -/
def stale (e : QuestEvent) (x : Int) (q : Quest) : Quest :=
  { q with
    m_Instance := { q.m_Instance with
      nStatus := fun i =>
        match objective e q i with
        | some o => min o.1 o.2 + 1
        | none => x } }

theorem objective_stale {e' : QuestEvent} : objective e' (stale e x q) = objective e' q := by
  cases e' <;> rfl

theorem stale_nStatus (ho : objective e q i = some o) :
    (stale e x q).m_Instance.nStatus i = min o.1 o.2 + 1 := by
  unfold stale
  simp only [ho]

theorem relisted_stale (hp : l.Perm qs) : Relisted qs (l.map (stale e x)) := by
  unfold Relisted
  rw [List.map_map]
  exact hp.map Quest.task

/-! ## Single quests -/

theorem updated_self (h : ¬Matches e q) : Updated e q q := by
  refine ⟨rfl, funext fun i => ?_⟩
  have hnone : objective e q i = none := by
    by_contra hsome
    exact h ⟨i, Option.isSome_iff_ne_none.mpr hsome⟩
  unfold expected
  rw [hnone]

theorem updated_setStatus (ho : objective e q i = some o) (hsingle : Single e q) (hv : v = min o.1 o.2) :
    Updated e q (q.setStatus i v) := by
  refine ⟨rfl, funext fun j => ?_⟩
  unfold expected
  rw [Quest.setStatus_nStatus]
  by_cases hj : j = i
  · subst hj
    rw [Function.update_self, ho]
    exact hv
  · rw [Function.update_of_ne hj]
    cases hnone : objective e q j with
    | none => rfl
    | some o' => exact absurd (hsingle j i (by simp [hnone]) (by simp [ho])) hj

theorem not_updated_stale (h : Matches e q) : ¬Updated e (stale e x q) (stale e x q) := by
  rintro ⟨-, hstatus⟩
  obtain ⟨i, hi⟩ := h
  obtain ⟨o, ho⟩ := Option.isSome_iff_exists.mp hi
  have := congrFun hstatus i
  unfold expected at this
  rw [objective_stale, ho, stale_nStatus ho] at this
  dsimp only at this
  omega

/-- What the update of one slot says when no other slot can have been right before. -/
theorem of_updated_stale (h : Updated e (stale e x q) ((stale e x q).setStatus i v)) {j : Fin 3}
    (ho : objective e q j = some o) : j = i ∧ v = min o.1 o.2 := by
  have hj := congrFun h.2 j
  unfold expected at hj
  rw [objective_stale, ho, Quest.setStatus_nStatus] at hj
  by_cases hji : j = i
  · subst hji
    rw [Function.update_self] at hj
    exact ⟨rfl, hj⟩
  · rw [Function.update_of_ne hji, stale_nStatus ho] at hj
    dsimp only at hj
    omega

theorem clip_eq_min (a b : Int) : clip a b = min a b := by
  unfold clip
  split_ifs <;> omega

theorem getValue_of_pairOf {code : Int} (h : pairOf q code = some i) : q.getValue (2 * i) = code := by
  unfold pairOf at h
  split_ifs at h with h0 h1 h2 <;> obtain rfl := Option.some.inj h <;> assumption

theorem ne_of_pairOf_eq_none {code : Int} (h : pairOf q code = none) (i : Fin 3) : q.getValue (2 * i) ≠ code := by
  unfold pairOf at h
  split_ifs at h with h0 h1 h2
  match i with
  | 0 => exact h0
  | 1 => exact h1
  | 2 => exact h2

theorem exists_perm_cons (hq : q ∈ qs) : ∃ rest, qs.Perm (q :: rest) :=
  (List.singleton_sublist.mpr hq).exists_perm_append

theorem pairwise_of_perm {R : Quest → Quest → Prop} (h : ∀ a b rest, qs.Perm (a :: b :: rest) → R a b) :
    qs.Pairwise R := by
  refine List.pairwise_iff_forall_sublist.mpr fun {a b} hab => ?_
  obtain ⟨rest, hp⟩ := hab.exists_perm_append
  exact h a b rest hp

/-! ## Item counts -/

section

variable {code count : Int}

theorem isSome_objective_itemCount : (objective (.itemCount code count) q i).isSome ↔ q.Running ∧
    ((Paired q ∧ q.getValue (2 * i) = code) ∨
      (q.m_QuestBase.nType = .randomCollect ∧ q.m_Instance.nRandomKey i = code)) := by
  unfold objective
  dsimp only
  split_ifs with hpair hrandom
  · exact iff_of_true rfl ⟨hpair.1, .inl hpair.2⟩
  · exact iff_of_true rfl ⟨hrandom.1, .inr hrandom.2⟩
  · apply iff_of_false Bool.false_ne_true
    exact fun h => h.2.elim (fun hc => hpair ⟨h.1, hc⟩) fun hc => hrandom ⟨h.1, hc⟩

theorem not_random_of_paired (h : Paired q) : q.m_QuestBase.nType ≠ .randomCollect ∧ q.isRandomQuest = false := by
  unfold Quest.isRandomQuest
  rcases h with htype | htype | htype <;> rw [htype] <;> decide

theorem checkQuestTypeFlag_item : checkQuestTypeFlag q.m_QuestBase.nType 6168 = true ↔
    Paired q ∨ q.m_QuestBase.nType = .randomCollect := by
  unfold Paired
  cases q.m_QuestBase.nType <;> decide

/-- A quest with a matching objective is found by the search. -/
theorem relatedByItem_of_matches (h : Matches (.itemCount code count) q) : relatedByItem code 6168 q = true := by
  obtain ⟨i, hi⟩ := h
  obtain ⟨hrun, hi⟩ := isSome_objective_itemCount.mp hi
  have hflag : checkQuestTypeFlag q.m_QuestBase.nType 6168 = true :=
    checkQuestTypeFlag_item.mpr (hi.imp And.left And.left)
  refine decide_eq_true ⟨hrun, hflag, ?_⟩
  unfold namesItem
  rcases hi with ⟨htype, hi⟩ | ⟨htype, hi⟩
  · have hpair : q.getValue 0 = code ∨ q.getValue 2 = code ∨ q.getValue 4 = code := by
      match i with
      | 0 => exact .inl hi
      | 1 => exact .inr (.inl hi)
      | 2 => exact .inr (.inr hi)
    rcases htype with htype | htype | htype <;> rw [htype] <;> apply decide_eq_true
    · exact hpair
    · exact hpair
    · exact hpair.imp_right fun h => h.imp_right .inl
  · have hkey : q.getRandomKey i.val = some code := hi ▸ Quest.getRandomKey_val
    rw [htype]
    apply decide_eq_true
    match i with
    | 0 => exact .inl hkey
    | 1 => exact .inr (.inl hkey)
    | 2 => exact .inr (.inr hkey)

/-- What the loop does at a quest. -/
theorem itemCount_cons (q : Quest) (qs : List Quest) : (∃ i o, objective (.itemCount code count) q i = some o ∧
      q.m_QuestBase.nType ≠ .randomCollect ∧ updateQuestStatusByItemCount code count (q :: qs) =
        some (q.setStatus i (narrow32 (min o.1 o.2)) :: qs)) ∨
    (Matches (.itemCount code count) q ∧ q.m_QuestBase.nType = .randomCollect ∧
      updateQuestStatusByItemCount code count (q :: qs) = none) ∨
    (¬Matches (.itemCount code count) q ∧ updateQuestStatusByItemCount code count (q :: qs) =
      (updateQuestStatusByItemCount code count qs).map (q :: ·)) := by
  rw [updateQuestStatusByItemCount]
  by_cases hrel : relatedByItem code 6168 q = true
  swap
  · rw [if_neg hrel]
    exact .inr (.inr ⟨fun h => hrel (relatedByItem_of_matches h), rfl⟩)
  · rw [if_pos hrel]
    obtain ⟨hrun, hflag, hnames⟩ := of_decide_eq_true hrel
    rcases checkQuestTypeFlag_item.mp hflag with hpaired | hrandom
    · rw [if_neg (by rw [(not_random_of_paired hpaired).2]; exact Bool.false_ne_true)]
      cases hpair : pairOf q code with
      | none =>
        refine .inr (.inr ⟨?_, rfl⟩)
        rintro ⟨i, hi⟩
        rcases (isSome_objective_itemCount.mp hi).2 with ⟨-, hc⟩ | ⟨hc, -⟩
        · exact ne_of_pairOf_eq_none hpair i hc
        · exact (not_random_of_paired hpaired).1 hc
      | some i =>
        have hi := getValue_of_pairOf hpair
        refine .inl ⟨i, (count, q.getValue (2 * i + 1)), if_pos ⟨hrun, hpaired, hi⟩,
          (not_random_of_paired hpaired).1, ?_⟩
        dsimp only
        rw [Quest.updateStatus_val, clip_eq_min]
        rfl
    · rw [if_pos (show q.isRandomQuest = true from decide_eq_true (.inl hrandom))]
      refine .inr (.inl ⟨?_, hrandom, rfl⟩)
      unfold namesItem at hnames
      rw [hrandom] at hnames
      rcases of_decide_eq_true hnames with h | h | h
      · exact ⟨0, isSome_objective_itemCount.mpr ⟨hrun, .inr ⟨hrandom, Option.some.inj h⟩⟩⟩
      · exact ⟨1, isSome_objective_itemCount.mpr ⟨hrun, .inr ⟨hrandom, Option.some.inj h⟩⟩⟩
      · exact ⟨2, isSome_objective_itemCount.mpr ⟨hrun, .inr ⟨hrandom, Option.some.inj h⟩⟩⟩

theorem broadcast_itemCount (h : Careful (.itemCount code count) qs) : Broadcast (.itemCount code count) qs := by
  induction qs with
  | nil => exact ⟨[], rfl, .nil⟩
  | cons q qs ih =>
    obtain ⟨htype, hsingle, hfit, hpair⟩ := h
    obtain ⟨hq, hqs⟩ := List.pairwise_cons.mp hpair
    rcases itemCount_cons q qs with ⟨i, o, ho, -, heq⟩ | ⟨hmatch, hrandom, -⟩ | ⟨hnot, heq⟩
    · have hmatch : Matches (.itemCount code count) q := ⟨i, by rw [ho]; rfl⟩
      refine ⟨_, heq, .cons ?_ ?_⟩
      · apply updated_setStatus ho (hsingle q List.mem_cons_self)
        exact narrow32_eq_self (hfit q List.mem_cons_self i o ho)
      · exact List.forall₂_same.mpr fun q' hq' => updated_self fun hc => hq q' hq' ⟨hmatch, hc⟩
    · exact absurd hrandom (htype q List.mem_cons_self hmatch)
    · obtain ⟨qs', hqs', hall⟩ := ih ⟨fun q hq => htype q (List.mem_cons_of_mem _ hq),
        fun q hq => hsingle q (List.mem_cons_of_mem _ hq), fun q hq => hfit q (List.mem_cons_of_mem _ hq), hqs⟩
      refine ⟨q :: qs', ?_, .cons (updated_self hnot) hall⟩
      exact heq.trans (congrArg (Option.map (q :: ·)) hqs')

/-- The first quest of a list that is treated right, when no status was right before. -/
theorem head_of_broadcast_itemCount
    (h : Broadcast (.itemCount code count) ((q :: qs).map (stale (.itemCount code count) x)))
    (hq : Matches (.itemCount code count) q) : q.m_QuestBase.nType ≠ .randomCollect ∧
      Single (.itemCount code count) q ∧
      (∀ i o, objective (.itemCount code count) q i = some o → IsInt32 (min o.1 o.2)) ∧
      ∀ q' ∈ qs, ¬Matches (.itemCount code count) q' := by
  obtain ⟨l, hl, hall⟩ := h
  rcases itemCount_cons (stale (.itemCount code count) x q) (qs.map (stale (.itemCount code count) x)) with
    ⟨i, o, -, htype, heq⟩ | ⟨-, -, heq⟩ | ⟨hnot, -⟩
  · obtain rfl := Option.some.inj (heq.symm.trans hl)
    obtain ⟨hhead, htail⟩ := List.forall₂_cons.mp hall
    refine ⟨htype, ?_, ?_, ?_⟩
    · intro j k hj hk
      obtain ⟨oj, hoj⟩ := Option.isSome_iff_exists.mp hj
      obtain ⟨ok, hok⟩ := Option.isSome_iff_exists.mp hk
      exact (of_updated_stale hhead hoj).1.trans (of_updated_stale hhead hok).1.symm
    · intro j oj hoj
      exact (of_updated_stale hhead hoj).2 ▸ narrow32_isInt32 _
    · intro q' hq' hmatch
      exact not_updated_stale hmatch (List.forall₂_same.mp htail _ (List.mem_map_of_mem hq'))
  · exact absurd (heq.symm.trans hl) nofun
  · exact absurd hq hnot

theorem careful_of_broadcast_itemCount (h : ∀ l, Relisted qs l → Broadcast (.itemCount code count) l) :
    Careful (.itemCount code count) qs := by
  have hhead : ∀ {q rest}, qs.Perm (q :: rest) → Matches (.itemCount code count) q → _ := fun hp hq =>
    head_of_broadcast_itemCount (x := 0) (h _ (relisted_stale hp.symm)) hq
  refine ⟨?_, ?_, ?_, ?_⟩
  · intro q hq hmatch
    obtain ⟨rest, hp⟩ := exists_perm_cons hq
    exact (hhead hp hmatch).1
  · intro q hq i j hi hj
    obtain ⟨rest, hp⟩ := exists_perm_cons hq
    exact (hhead hp ⟨i, hi⟩).2.1 i j hi hj
  · intro q hq i o ho
    obtain ⟨rest, hp⟩ := exists_perm_cons hq
    exact (hhead hp ⟨i, by rw [ho]; rfl⟩).2.2.1 i o ho
  · refine pairwise_of_perm fun a b rest hp hc => ?_
    exact (hhead hp hc.1).2.2.2 b List.mem_cons_self hc.2

end

/-! ## Skill levels -/

section

variable {nSkillID nSkillLevel s : Int}

theorem objective_skillLevel_eq_some_iff : objective (.skillLevel nSkillID nSkillLevel) q i = some o ↔
    (q.Running ∧ q.m_QuestBase.nType = .learnSkill ∧ q.getValue (2 * i) = nSkillID) ∧
      o = (nSkillLevel, q.getValue (2 * i + 1)) := by
  unfold objective
  dsimp only
  split_ifs with hcond
  · exact ⟨fun h => ⟨hcond, (Option.some.inj h).symm⟩, fun h => congrArg some h.2.symm⟩
  · exact ⟨nofun, fun h => absurd h.1 hcond⟩

/-- What the body of the loop does at a quest. -/
theorem skillStep_cases (nSkillLevel s : Int) (q : Quest) : (∃ i o, objective (.skillLevel s nSkillLevel) q i = some o ∧
      skillStep nSkillLevel s q = some (min s o.2, q.setStatus i nSkillLevel)) ∨
    (¬Matches (.skillLevel s nSkillLevel) q ∧ skillStep nSkillLevel s q = some (s, q)) := by
  unfold skillStep
  split_ifs with hcond
  · cases hpair : pairOf q s with
    | some i =>
      refine .inl ⟨i, _, objective_skillLevel_eq_some_iff.mpr
        ⟨⟨hcond.1, hcond.2, getValue_of_pairOf hpair⟩, rfl⟩, ?_⟩
      dsimp only
      rw [Quest.updateStatus_val, clip_eq_min]
      rfl
    | none =>
      refine .inr ⟨?_, rfl⟩
      rintro ⟨i, hi⟩
      obtain ⟨o, ho⟩ := Option.isSome_iff_exists.mp hi
      exact ne_of_pairOf_eq_none hpair i (objective_skillLevel_eq_some_iff.mp ho).1.2.2
  · refine .inr ⟨?_, rfl⟩
    rintro ⟨i, hi⟩
    obtain ⟨o, ho⟩ := Option.isSome_iff_exists.mp hi
    exact hcond ⟨(objective_skillLevel_eq_some_iff.mp ho).1.1, (objective_skillLevel_eq_some_iff.mp ho).1.2.1⟩

/-- The claim of a search that goes on with the number `s` in place of the skill. -/
def BroadcastFrom (nSkillID nSkillLevel s : Int) (qs : List Quest) : Prop :=
  ∃ qs', updateQuestStatusBySkillLevel s nSkillLevel qs = some qs' ∧
    List.Forall₂ (Updated (.skillLevel nSkillID nSkillLevel)) qs qs'

theorem broadcastFrom_cons {r : Int × Quest} (h : skillStep nSkillLevel s q = some r) :
    BroadcastFrom nSkillID nSkillLevel s (q :: qs) ↔
      Updated (.skillLevel nSkillID nSkillLevel) q r.2 ∧ BroadcastFrom nSkillID nSkillLevel r.1 qs := by
  unfold BroadcastFrom
  rw [updateQuestStatusBySkillLevel, h]
  constructor
  · rintro ⟨qs', heq, hall⟩
    obtain ⟨l, hl, rfl⟩ := Option.map_eq_some_iff.mp heq
    obtain ⟨hq, hqs⟩ := List.forall₂_cons.mp hall
    exact ⟨hq, l, hl, hqs⟩
  · rintro ⟨hq, l, hl, hqs⟩
    exact ⟨r.2 :: l, congrArg (Option.map (r.2 :: ·)) hl, .cons hq hqs⟩

/-- The search finds nothing where neither the skill nor the number it goes on with is named. -/
theorem broadcastFrom_of_not_matches (h : ∀ q ∈ qs, ¬Matches (.skillLevel nSkillID nSkillLevel) q ∧
    ¬Matches (.skillLevel s nSkillLevel) q) : BroadcastFrom nSkillID nSkillLevel s qs := by
  induction qs with
  | nil => exact ⟨[], rfl, .nil⟩
  | cons q qs ih =>
    obtain ⟨⟨hid, hs⟩, hqs⟩ := List.forall_mem_cons.mp h
    rcases skillStep_cases nSkillLevel s q with ⟨i, o, ho, -⟩ | ⟨-, hstep⟩
    · exact absurd ⟨i, by rw [ho]; rfl⟩ hs
    · exact (broadcastFrom_cons hstep).mpr ⟨updated_self hid, ih hqs⟩

theorem broadcast_skillLevel (h : Careful (.skillLevel nSkillID nSkillLevel) qs) :
    BroadcastFrom nSkillID nSkillLevel nSkillID qs := by
  induction qs with
  | nil => exact ⟨[], rfl, .nil⟩
  | cons q qs ih =>
    obtain ⟨hsingle, hle, hpair⟩ := h
    obtain ⟨hq, hqs⟩ := List.pairwise_cons.mp hpair
    have ih := ih ⟨fun q hq => hsingle q (List.mem_cons_of_mem _ hq),
      fun q hq => hle q (List.mem_cons_of_mem _ hq), hqs⟩
    rcases skillStep_cases nSkillLevel nSkillID q with ⟨i, o, ho, hstep⟩ | ⟨hnot, hstep⟩
    · refine (broadcastFrom_cons hstep).mpr ⟨?_, ?_⟩
      · apply updated_setStatus ho (hsingle q List.mem_cons_self)
        have hlevel : o.1 = nSkillLevel := by rw [(objective_skillLevel_eq_some_iff.mp ho).2]
        rw [min_eq_left (hle q List.mem_cons_self i o ho), hlevel]
      · by_cases hclip : o.2 < nSkillID
        · rw [min_eq_right hclip.le]
          exact broadcastFrom_of_not_matches fun q' hq' => (hq q' hq').1 i o ho hclip
        · rw [min_eq_left (not_lt.mp hclip)]
          exact ih
    · exact (broadcastFrom_cons hstep).mpr ⟨updated_self hnot, ih⟩

/-- No quest that is listed before has been right: in it neither the skill nor the other number is named. -/
theorem not_matches_of_broadcastFrom (hs : s ≠ nSkillID) (h : BroadcastFrom nSkillID nSkillLevel s
      ((q :: qs).map (stale (.skillLevel nSkillID nSkillLevel) (nSkillLevel + 1)))) :
    ¬Matches (.skillLevel nSkillID nSkillLevel) q ∧ ¬Matches (.skillLevel s nSkillLevel) q := by
  rcases skillStep_cases nSkillLevel s (stale (.skillLevel nSkillID nSkillLevel) (nSkillLevel + 1) q) with
    ⟨i, o, ho, hstep⟩ | ⟨hnot, hstep⟩
  · obtain ⟨hq, -⟩ := (broadcastFrom_cons hstep).mp h
    have hvalue : q.getValue (2 * i) = s := (objective_skillLevel_eq_some_iff.mp ho).1.2.2
    have hnone : objective (.skillLevel nSkillID nSkillLevel) q i = none :=
      if_neg fun hc => hs (hvalue.symm.trans hc.2.2)
    have hstatus := congrFun hq.2 i
    unfold expected at hstatus
    rw [objective_stale, hnone, Quest.setStatus_nStatus, Function.update_self] at hstatus
    unfold stale at hstatus
    simp only [hnone] at hstatus
    omega
  · obtain ⟨hq, -⟩ := (broadcastFrom_cons hstep).mp h
    exact ⟨fun hc => not_updated_stale hc hq, hnot⟩

/-- What the first quest says, when no status was right before. -/
theorem head_of_broadcastFrom (h : BroadcastFrom nSkillID nSkillLevel nSkillID
      ((q :: qs).map (stale (.skillLevel nSkillID nSkillLevel) x)))
    (ho : objective (.skillLevel nSkillID nSkillLevel) q i = some o) :
    (∀ j, (objective (.skillLevel nSkillID nSkillLevel) q j).isSome → j = i) ∧ o.1 ≤ o.2 ∧
      BroadcastFrom nSkillID nSkillLevel (min nSkillID o.2)
        (qs.map (stale (.skillLevel nSkillID nSkillLevel) x)) := by
  rcases skillStep_cases nSkillLevel nSkillID (stale (.skillLevel nSkillID nSkillLevel) x q) with
    ⟨k, ok, hok, hstep⟩ | ⟨hnot, -⟩
  · obtain ⟨hq, hqs⟩ := (broadcastFrom_cons hstep).mp h
    obtain ⟨rfl, hlevel⟩ := of_updated_stale hq ho
    rw [objective_stale, ho] at hok
    obtain rfl := Option.some.inj hok
    refine ⟨?_, ?_, hqs⟩
    · intro j hj
      obtain ⟨oj, hoj⟩ := Option.isSome_iff_exists.mp hj
      exact (of_updated_stale hq hoj).1
    · have : o.1 = nSkillLevel := by rw [(objective_skillLevel_eq_some_iff.mp ho).2]
      omega
  · exact absurd ⟨i, by rw [objective_stale, ho]; rfl⟩ hnot

theorem careful_of_broadcast_skillLevel
    (h : ∀ l, Relisted qs l → Broadcast (.skillLevel nSkillID nSkillLevel) l) :
    Careful (.skillLevel nSkillID nSkillLevel) qs := by
  have hhead : ∀ {q rest i o}, qs.Perm (q :: rest) →
      objective (.skillLevel nSkillID nSkillLevel) q i = some o → _ := fun hp ho =>
    head_of_broadcastFrom (x := nSkillLevel + 1) (h _ (relisted_stale hp.symm)) ho
  have hapart : ∀ a b rest, qs.Perm (a :: b :: rest) → Apart nSkillID nSkillLevel a b := by
    intro a b rest hp i o ho hlt
    have hrest := (hhead hp ho).2.2
    rw [min_eq_right hlt.le] at hrest
    exact not_matches_of_broadcastFrom hlt.ne hrest
  refine ⟨?_, ?_, ?_⟩
  · intro q hq i j hi hj
    obtain ⟨rest, hp⟩ := exists_perm_cons hq
    obtain ⟨o, ho⟩ := Option.isSome_iff_exists.mp hj
    exact (hhead hp ho).1 i hi
  · intro q hq i o ho
    obtain ⟨rest, hp⟩ := exists_perm_cons hq
    exact (hhead hp ho).2.1
  · exact pairwise_of_perm fun a b rest hp =>
      ⟨hapart a b rest hp, hapart b a rest (hp.trans (List.Perm.swap b a rest))⟩

end

/-! ## Job levels -/

section

variable {nJobDepth nJobLevel d s : Int}

/-- The claim of the loop that goes on with `d` and `s`. -/
def BroadcastWith (nJobDepth nJobLevel d s : Int) (qs : List Quest) : Prop :=
  ∃ qs', updateQuestStatusByJobLevel d s qs = some qs' ∧
    List.Forall₂ (Updated (.jobLevel nJobDepth nJobLevel)) qs qs'

abbrev JobQuest (q : Quest) : Prop := q.Running ∧ q.m_QuestBase.nType = .jobLevel

theorem updateQuestStatusByJobLevel_cons : updateQuestStatusByJobLevel d s (q :: qs) =
    if JobQuest q then
      (updateQuestStatusByJobLevel (min d (q.getValue 0)) (min s (q.getValue 1)) qs).map
        ((q.setStatus 0 (min d (q.getValue 0))).setStatus 1 (min s (q.getValue 1)) :: ·)
    else (updateQuestStatusByJobLevel d s qs).map (q :: ·) := by
  rw [updateQuestStatusByJobLevel]
  by_cases hjob : JobQuest q
  · have hrelated : related 256 q = true := by
      unfold related
      rw [hjob.2]
      exact decide_eq_true ⟨hjob.1, rfl⟩
    rw [if_pos ⟨hrelated, hjob⟩, if_pos hjob, ← clip_eq_min, ← clip_eq_min]
    rfl
  · rw [if_neg fun hc => hjob hc.2, if_neg hjob]

theorem updated_job_iff (hjob : JobQuest q) : Updated (.jobLevel nJobDepth nJobLevel) q
      ((q.setStatus 0 d).setStatus 1 s) ↔
    d = min nJobDepth (q.getValue 0) ∧ s = min nJobLevel (q.getValue 1) := by
  unfold Updated expected objective
  simp only [if_pos hjob, Quest.task_setStatus, true_and, funext_iff, Fin.forall_fin_succ]
  simp

theorem not_matches_of_not_job (hjob : ¬JobQuest q) : ¬Matches (.jobLevel nJobDepth nJobLevel) q := by
  rintro ⟨i, hi⟩
  unfold objective at hi
  dsimp only at hi
  rw [if_neg hjob] at hi
  exact Bool.false_ne_true hi

theorem broadcastWith_cons (hjob : JobQuest q) : BroadcastWith nJobDepth nJobLevel d s (q :: qs) ↔
    (min d (q.getValue 0) = min nJobDepth (q.getValue 0) ∧ min s (q.getValue 1) = min nJobLevel (q.getValue 1)) ∧
      BroadcastWith nJobDepth nJobLevel (min d (q.getValue 0)) (min s (q.getValue 1)) qs := by
  unfold BroadcastWith
  rw [updateQuestStatusByJobLevel_cons, if_pos hjob]
  constructor
  · rintro ⟨qs', heq, hall⟩
    obtain ⟨l, hl, rfl⟩ := Option.map_eq_some_iff.mp heq
    obtain ⟨hq, hqs⟩ := List.forall₂_cons.mp hall
    exact ⟨(updated_job_iff hjob).mp hq, l, hl, hqs⟩
  · rintro ⟨hq, l, hl, hqs⟩
    exact ⟨_, congrArg (Option.map _) hl, .cons ((updated_job_iff hjob).mpr hq) hqs⟩

theorem broadcastWith_cons_of_not_job (hjob : ¬JobQuest q) (h : BroadcastWith nJobDepth nJobLevel d s qs) :
    BroadcastWith nJobDepth nJobLevel d s (q :: qs) := by
  obtain ⟨l, hl, hqs⟩ := h
  refine ⟨q :: l, ?_, .cons (updated_self (not_matches_of_not_job hjob)) hqs⟩
  rw [updateQuestStatusByJobLevel_cons, if_neg hjob, hl]
  rfl

/-- Two job quests that want the same of this event. -/
theorem sameGoal_iff : (∀ i o o', objective (.jobLevel nJobDepth nJobLevel) q i = some o →
      objective (.jobLevel nJobDepth nJobLevel) q' i = some o' → min o.1 o.2 = min o'.1 o'.2) ↔
    (JobQuest q → JobQuest q' → min nJobDepth (q.getValue 0) = min nJobDepth (q'.getValue 0) ∧
      min nJobLevel (q.getValue 1) = min nJobLevel (q'.getValue 1)) := by
  constructor
  · intro h hq hq'
    exact ⟨h 0 _ _ (if_pos hq) (if_pos hq'), h 1 _ _ (if_pos hq) (if_pos hq')⟩
  · intro h i o o' ho ho'
    unfold objective at ho ho'
    dsimp only at ho ho'
    split_ifs at ho ho' with hq h0 hq' h1 hq' <;>
      obtain rfl := Option.some.inj ho <;> obtain rfl := Option.some.inj ho'
    · exact (h hq hq').1
    · exact (h hq hq').2

theorem broadcastWith_of_pairwise (h : Careful (.jobLevel nJobDepth nJobLevel) qs)
    (hcarry : ∀ q ∈ qs, JobQuest q → min d (q.getValue 0) = min nJobDepth (q.getValue 0) ∧
      min s (q.getValue 1) = min nJobLevel (q.getValue 1)) : BroadcastWith nJobDepth nJobLevel d s qs := by
  induction qs generalizing d s with
  | nil => exact ⟨[], rfl, .nil⟩
  | cons q qs ih =>
    obtain ⟨hpair, hpairs⟩ := List.pairwise_cons.mp h
    obtain ⟨hq, hqs⟩ := List.forall_mem_cons.mp hcarry
    by_cases hjob : JobQuest q
    · refine (broadcastWith_cons hjob).mpr ⟨hq hjob, ih hpairs fun q' hq' hjob' => ?_⟩
      have := sameGoal_iff.mp (hpair q' hq') hjob hjob'
      have := hqs q' hq' hjob'
      have := hq hjob
      omega
    · exact broadcastWith_cons_of_not_job hjob (ih hpairs hqs)

theorem careful_of_broadcast_jobLevel (h : ∀ l, Relisted qs l → Broadcast (.jobLevel nJobDepth nJobLevel) l) :
    Careful (.jobLevel nJobDepth nJobLevel) qs := by
  refine pairwise_of_perm fun a b rest hp => sameGoal_iff.mpr fun ha hb => ?_
  have hab := (broadcastWith_cons ha).mp (h _ (hp.symm.map Quest.task))
  have hba := (broadcastWith_cons hb).mp (h _ ((hp.trans (List.Perm.swap b a rest)).symm.map Quest.task))
  have := ((broadcastWith_cons hb).mp hab.2).1
  have := ((broadcastWith_cons ha).mp hba.2).1
  omega

end

/-! ## Parameters -/

section

variable {parameter_id value : Int}

/-- One test of the update. -/
def put (parameter_id value : Int) (i : Fin 3) (q : Quest) : Quest :=
  if q.getValue (3 * i) = parameter_id then q.setStatus i value else q

theorem put_eq : (if q.getValue (3 * i) = parameter_id then q.updateStatus i value else some q) =
    some (put parameter_id value i q) := by
  unfold put
  split_ifs
  · exact Quest.updateStatus_val
  · rfl

theorem task_put : (put parameter_id value i q).task = q.task := by
  unfold put
  split_ifs <;> rfl

theorem getValue_put {idx : Nat} : (put parameter_id value i q).getValue idx = q.getValue idx := by
  unfold put
  split_ifs <;> rfl

theorem nStatus_put {j : Fin 3} : (put parameter_id value i q).m_Instance.nStatus j =
    if j = i ∧ q.getValue (3 * i) = parameter_id then value else q.m_Instance.nStatus j := by
  unfold put
  split_ifs with hi h h
  · rw [Quest.setStatus_nStatus, h.1, Function.update_self]
  · rw [Quest.setStatus_nStatus, Function.update_of_ne fun hc => h ⟨hc, hi⟩]
  · exact absurd h.2 hi
  · rfl

abbrev ParameterQuest (q : Quest) : Prop := q.Running ∧ q.m_QuestBase.nType = .parameter

theorem parameterStep_eq : parameterStep parameter_id value q = some
    (if ParameterQuest q then
      put parameter_id value 2 (put parameter_id value 1 (put parameter_id value 0 q)) else q) := by
  unfold parameterStep
  by_cases hcond : ParameterQuest q
  · have hrelated : related 512 q = true := by
      unfold related
      rw [hcond.2]
      exact decide_eq_true ⟨hcond.1, rfl⟩
    rw [if_pos ⟨hrelated, hcond⟩, if_pos hcond]
    refine (congrArg (Option.bind · _) (put_eq (i := 0))).trans ?_
    refine (congrArg (Option.bind · _) (put_eq (i := 1))).trans ?_
    exact put_eq (i := 2)
  · rw [if_neg fun hc => hcond hc.2, if_neg hcond]

theorem nStatus_puts {j : Fin 3} :
    (put parameter_id value 2 (put parameter_id value 1 (put parameter_id value 0 q))).m_Instance.nStatus j =
      if q.getValue (3 * j) = parameter_id then value else q.m_Instance.nStatus j := by
  simp only [nStatus_put, getValue_put]
  match j with
  | 0 => simp
  | 1 => simp
  | 2 => simp

theorem updated_parameterStep_iff : Updated (.parameter parameter_id value) q
      (if ParameterQuest q then
        put parameter_id value 2 (put parameter_id value 1 (put parameter_id value 0 q)) else q) ↔
    ∀ i o, objective (.parameter parameter_id value) q i = some o → o.1 ≤ o.2 := by
  unfold Updated expected objective
  dsimp only
  split_ifs with hcond
  · simp only [task_put, true_and, funext_iff, nStatus_puts]
    refine forall_congr' fun i => ?_
    by_cases hi : q.getValue (3 * i) = parameter_id
    · rw [if_pos hi, if_pos ⟨hcond.1, hcond.2, hi⟩]
      simp only [Option.some.injEq, forall_eq']
      omega
    · rw [if_neg hi, if_neg fun hc => hi hc.2.2]
      exact iff_of_true rfl nofun
  · have hnone : ∀ i : Fin 3, ¬(q.Running ∧ q.m_QuestBase.nType = .parameter ∧
        q.getValue (3 * i) = parameter_id) := fun i hc => hcond ⟨hc.1, hc.2.1⟩
    simp only [hnone, if_false, true_and]
    exact iff_of_true trivial nofun

theorem broadcast_parameter_iff :
    Broadcast (.parameter parameter_id value) qs ↔ Careful (.parameter parameter_id value) qs := by
  have hupdate : update (.parameter parameter_id value) qs = some (qs.map fun q => if ParameterQuest q then
      put parameter_id value 2 (put parameter_id value 1 (put parameter_id value 0 q)) else q) := by
    unfold update updateQuestStatusByParameter
    dsimp only
    rw [show parameterStep parameter_id value = _ from funext fun q => parameterStep_eq]
    exact List.mapM_pure
  unfold Broadcast
  rw [hupdate]
  simp only [Option.some.injEq, exists_eq_left', List.forall₂_map_right_iff, List.forall₂_same,
    updated_parameterStep_iff]
  rfl

end

/-! ## The claim, settled -/

/-- **When every matching objective gets its own status**: in every order and at every stage. -/
theorem broadcast_iff : (∀ l, Relisted qs l → Broadcast e l) ↔ Careful e qs := by
  constructor
  · intro h
    cases e with
    | itemCount code count => exact careful_of_broadcast_itemCount h
    | skillLevel nSkillID nSkillLevel => exact careful_of_broadcast_skillLevel h
    | jobLevel nJobDepth nJobLevel => exact careful_of_broadcast_jobLevel h
    | parameter parameter_id value => exact broadcast_parameter_iff.mp (h qs (List.Perm.refl _))
  · intro h l hl
    have h := h.relisted hl
    cases e with
    | itemCount code count => exact broadcast_itemCount h
    | skillLevel nSkillID nSkillLevel => exact broadcast_skillLevel h
    | jobLevel nJobDepth nJobLevel => exact broadcastWith_of_pairwise h fun q _ _ => ⟨rfl, rfl⟩
    | parameter parameter_id value => exact broadcast_parameter_iff.mpr h

/-- A running job quest for the given level. -/
def levelQuest (level : Int) : Quest where
  m_QuestBase := { nType := .jobLevel, nValue := ![1, level, 0, 0, 0, 0, 0, 0, 0, 0, 0, 0], nEndType := 0 }
  m_Instance := { nProgress := .inProgress, nStatus := fun _ => 0, nRandomKey := fun _ => 0, nRandomValue := fun _ => 0 }
  m_bIsNeedUpdateToDB := false

/-- Two quests for the levels 10 and 20, and a player of level 15: the second quest gets the status 10. -/
theorem levels_hidden : ¬∀ e qs, Broadcast e qs := by
  intro h
  have hjob : ∀ level, JobQuest (levelQuest level) := fun level => ⟨nofun, rfl⟩
  have hboth : BroadcastWith 1 15 1 15 [levelQuest 10, levelQuest 20] := h (.jobLevel 1 15) [levelQuest 10, levelQuest 20]
  have hsecond := ((broadcastWith_cons (hjob 20)).mp ((broadcastWith_cons (hjob 10)).mp hboth).2).1.2
  exact absurd hsecond (by decide)

end QuestManager

end RZEmulator.Chihiro
