import RZEmulator.Chihiro.QuestStatus

/-!
# Kills that count for a quest

`QuestManager::UpdateQuestStatusByMonsterKill`. Every quest is treated by itself, so the order of the list never
matters; what may go wrong is the choice of the slot. `progresses_iff` says for which quests and kills every
objective that names the monster, and only those, goes one up until its requirement is reached.
-/

namespace RZEmulator.Chihiro

/-- `GameContent::IsInRandomPoolMonster`; the search through the monsters of a group is not there. -/
def isInRandomPoolMonster (group_id monster_id : Int) : Bool := group_id = monster_id

namespace QuestManager

/-- The body of the loop. -/
def killStep (nMonsterID : Int) (q : Quest) : Option Quest :=
  if related 1030 q ∧ q.Running ∧ q.isFinishable = false then
    match q.m_QuestBase.nType with
    | .killTotal => do
      if isInRandomPoolMonster (q.getValue 0) nMonsterID || isInRandomPoolMonster (q.getValue 2) nMonsterID ||
          (isInRandomPoolMonster (q.getValue 4) nMonsterID && (← q.getStatus 0) < q.getValue 1) then
        q.incStatus 0 1
      else some q
    | .killIndividual => do
      if isInRandomPoolMonster (q.getValue 0) nMonsterID && (← q.getStatus 0) < q.getValue 1 then q.incStatus 0 1
      else if isInRandomPoolMonster (q.getValue 2) nMonsterID && (← q.getStatus 1) < q.getValue 3 then
        q.incStatus 1 1
      else if isInRandomPoolMonster (q.getValue 4) nMonsterID && (← q.getStatus 2) < q.getValue 5 then
        q.incStatus 2 1
      else some q
    | .randomKillIndividual => do
      if (← q.getRandomKey 0) = nMonsterID && (← q.getStatus 0) < (← q.getRandomValue 0) then q.incStatus 0 1
      -- the next two increment the first slot as well, and the last tests the second one
      else if (← q.getRandomKey 1) = nMonsterID && (← q.getStatus 1) < (← q.getRandomValue 1) then q.incStatus 0 1
      else if (← q.getRandomKey 2) = nMonsterID && (← q.getStatus 1) < (← q.getRandomValue 2) then q.incStatus 0 1
      else some q
    | _ => some q
  else some q

def updateQuestStatusByMonsterKill (nMonsterID : Int) (qs : List Quest) : Option (List Quest) :=
  qs.mapM (killStep nMonsterID)

/-! ## The claim -/

/-- The status slot `i` counts kills of the monster: the required number. -/
def killObjective (nMonsterID : Int) (q : Quest) (i : Fin 3) : Option Int :=
  if q.Running then
    match q.m_QuestBase.nType with
    | .killTotal =>
      if i = Quest.first ∧ (isInRandomPoolMonster (q.getValue 0) nMonsterID ∨
          isInRandomPoolMonster (q.getValue 2) nMonsterID ∨ isInRandomPoolMonster (q.getValue 4) nMonsterID) then
        some (q.getValue 1)
      else none
    | .killIndividual =>
      if isInRandomPoolMonster (q.getValue (2 * i)) nMonsterID then some (q.getValue (2 * i + 1)) else none
    | .randomKillIndividual =>
      if q.m_Instance.nRandomKey i = nMonsterID then some (q.m_Instance.nRandomValue i) else none
    | _ => none
  else none

/-- The slot counts kills of the monster and has not reached the required number. -/
def Counts (nMonsterID : Int) (q : Quest) (i : Fin 3) : Prop :=
  ∃ required ∈ killObjective nMonsterID q i, q.m_Instance.nStatus i < required

instance (nMonsterID : Int) (q : Quest) (i : Fin 3) : Decidable (Counts nMonsterID q i) :=
  decidable_of_iff ((killObjective nMonsterID q i).any fun required => q.m_Instance.nStatus i < required) <| by
    unfold Counts
    cases killObjective nMonsterID q i with
    | none => simp
    | some required => simp

/-- The quest after a kill, as it should be: these slots are one up, and a change is marked to be saved. -/
def advance (nMonsterID : Int) (q : Quest) : Quest where
  m_QuestBase := q.m_QuestBase
  m_Instance := { q.m_Instance with
    nStatus := fun i => if Counts nMonsterID q i then q.m_Instance.nStatus i + 1 else q.m_Instance.nStatus i }
  m_bIsNeedUpdateToDB := q.m_bIsNeedUpdateToDB ∨ ∃ i, Counts nMonsterID q i

/-- Every kill of the sequence has its due effect on the whole list. -/
def Progresses : List Int → List Quest → Prop
  | [], _ => True
  | nMonsterID :: kills, qs =>
    updateQuestStatusByMonsterKill nMonsterID qs = some (qs.map (advance nMonsterID)) ∧
      Progresses kills (qs.map (advance nMonsterID))

/-- A kill for which the right slots are chosen. -/
def CarefulKill (nMonsterID : Int) (q : Quest) : Prop :=
  match q.m_QuestBase.nType with
  | .killIndividual => ∀ i j, Counts nMonsterID q i → Counts nMonsterID q j → i = j
  | .randomKillIndividual => (∀ i, Counts nMonsterID q i → i = Quest.first) ∧
      (Counts nMonsterID q Quest.first ∨ ¬(q.Running ∧ q.m_Instance.nRandomKey Quest.third = nMonsterID ∧
        q.m_Instance.nStatus Quest.second < q.m_Instance.nRandomValue Quest.third))
  | _ => True

/-- All kills of the sequence are, when the quest has come as far as the kills before say. -/
def CarefulKills : List Int → Quest → Prop
  | [], _ => True
  | nMonsterID :: kills, q => CarefulKill nMonsterID q ∧ CarefulKills kills (advance nMonsterID q)

variable {nMonsterID : Int} {q : Quest} {qs : List Quest} {kills : List Int} {i : Fin 3} {required : Int}

/-! ## One slot up -/

theorem counts_iff (h : killObjective nMonsterID q i = some required) :
    Counts nMonsterID q i ↔ q.m_Instance.nStatus i < required := by
  unfold Counts
  rw [h]
  simp only [Option.mem_def, Option.some.injEq, exists_eq_left']

theorem not_counts_of_none (h : killObjective nMonsterID q i = none) : ¬Counts nMonsterID q i := by
  rintro ⟨required, hr, -⟩
  exact absurd (h.symm.trans hr) nofun

theorem self_eq_advance_iff : q = advance nMonsterID q ↔ ∀ i, ¬Counts nMonsterID q i := by
  constructor
  · intro h i hi
    have hstatus : q.m_Instance.nStatus i = if Counts nMonsterID q i then q.m_Instance.nStatus i + 1
        else q.m_Instance.nStatus i := congrFun (congrArg (fun q => q.m_Instance.nStatus) h) i
    rw [if_pos hi] at hstatus
    omega
  · intro h
    unfold advance
    simp only [h, if_false, exists_false, or_false, Bool.decide_eq_true]

/-- Exactly the slot that was incremented should have been. -/
theorem setStatus_eq_advance_iff : q.setStatus i (q.m_Instance.nStatus i + 1) = advance nMonsterID q ↔
    ∀ j, Counts nMonsterID q j ↔ j = i := by
  constructor
  · intro h j
    have hstatus : Function.update q.m_Instance.nStatus i (q.m_Instance.nStatus i + 1) j =
        if Counts nMonsterID q j then q.m_Instance.nStatus j + 1 else q.m_Instance.nStatus j :=
      congrFun (congrArg (fun q => q.m_Instance.nStatus) h) j
    by_cases hji : j = i
    · subst hji
      rw [Function.update_self] at hstatus
      by_contra hj
      rw [if_neg fun hc => hj (iff_of_true hc rfl)] at hstatus
      omega
    · rw [Function.update_of_ne hji] at hstatus
      refine iff_of_false (fun hj => ?_) hji
      rw [if_pos hj] at hstatus
      omega
  · intro h
    have hstatus : Function.update q.m_Instance.nStatus i (q.m_Instance.nStatus i + 1) = fun j =>
        if Counts nMonsterID q j then q.m_Instance.nStatus j + 1 else q.m_Instance.nStatus j := by
      funext j
      by_cases hji : j = i
      · rw [hji, Function.update_self, if_pos ((h i).mpr rfl)]
      · rw [Function.update_of_ne hji, if_neg fun hc => hji ((h j).mp hc)]
    unfold Quest.setStatus advance
    rw [hstatus]
    simp only [h, exists_eq, or_true, decide_true]

/-! ## One quest -/

theorem checkQuestTypeFlag_kill : checkQuestTypeFlag q.m_QuestBase.nType 1030 = true ↔
    q.m_QuestBase.nType = .killTotal ∨ q.m_QuestBase.nType = .killIndividual ∨
      q.m_QuestBase.nType = .randomKillIndividual := by
  cases q.m_QuestBase.nType <;> decide

theorem counts_killTotal (hrun : q.Running) (htype : q.m_QuestBase.nType = .killTotal) :
    Counts nMonsterID q i ↔ i = 0 ∧ (q.getValue 0 = nMonsterID ∨ q.getValue 2 = nMonsterID ∨
      q.getValue 4 = nMonsterID) ∧ q.m_Instance.nStatus i < q.getValue 1 := by
  unfold Counts killObjective isInRandomPoolMonster
  rw [if_pos hrun, htype]
  simp [and_assoc]

theorem counts_killIndividual (hrun : q.Running) (htype : q.m_QuestBase.nType = .killIndividual) :
    Counts nMonsterID q i ↔ q.getValue (2 * i) = nMonsterID ∧ q.m_Instance.nStatus i < q.getValue (2 * i + 1) := by
  unfold Counts killObjective isInRandomPoolMonster
  rw [if_pos hrun, htype]
  simp

theorem counts_randomKillIndividual (hrun : q.Running) (htype : q.m_QuestBase.nType = .randomKillIndividual) :
    Counts nMonsterID q i ↔
      q.m_Instance.nRandomKey i = nMonsterID ∧ q.m_Instance.nStatus i < q.m_Instance.nRandomValue i := by
  unfold Counts killObjective
  rw [if_pos hrun, htype]
  simp

/-- A quest with something to count is looked at. -/
theorem looked_of_counts (h : Counts nMonsterID q i) : related 1030 q ∧ q.Running ∧ q.isFinishable = false := by
  have hrun : q.Running := by
    by_contra hc
    exact not_counts_of_none (if_neg (not_not.mpr hc)) h
  have hflag : q.m_QuestBase.nType = .killTotal ∨ q.m_QuestBase.nType = .killIndividual ∨
      q.m_QuestBase.nType = .randomKillIndividual := by
    obtain ⟨required, hr, -⟩ := h
    unfold killObjective at hr
    rw [if_pos hrun] at hr
    cases htype : q.m_QuestBase.nType <;> rw [htype] at hr <;> simp at hr ⊢
  refine ⟨decide_eq_true ⟨hrun, checkQuestTypeFlag_kill.mpr hflag⟩, hrun, ?_⟩
  unfold Quest.isFinishable
  rcases hflag with htype | htype | htype
  · obtain ⟨rfl, -, hlt⟩ := (counts_killTotal hrun htype).mp h
    rw [htype]
    exact decide_eq_false (not_le.mpr hlt)
  · obtain ⟨-, hlt⟩ := (counts_killIndividual hrun htype).mp h
    rw [htype]
    refine decide_eq_false fun hall => ?_
    match i with
    | 0 => exact absurd hall.1 (not_le.mpr hlt)
    | 1 => exact absurd hall.2.1 (not_le.mpr hlt)
    | 2 => exact absurd hall.2.2 (not_le.mpr hlt)
  · rw [htype]

/-- The quest with a slot one up. -/
def up (q : Quest) (i : Fin 3) : Quest := q.setStatus i (q.m_Instance.nStatus i + 1)

theorem incStatus_eq (q : Quest) (i : Fin 3) : q.incStatus i 1 = some (up q i) := Quest.incStatus_val

theorem killStep_killTotal (htype : q.m_QuestBase.nType = .killTotal)
    (hlook : related 1030 q ∧ q.Running ∧ q.isFinishable = false) : killStep nMonsterID q = some
      (if q.getValue 0 = nMonsterID ∨ q.getValue 2 = nMonsterID ∨
          (q.getValue 4 = nMonsterID ∧ q.m_Instance.nStatus 0 < q.getValue 1) then up q 0 else q) := by
  unfold killStep
  rw [if_pos hlook, htype, show q.getStatus 0 = _ from Quest.getStatus_val (i := 0),
    show q.incStatus 0 1 = _ from incStatus_eq q 0, apply_ite some]
  simp [isInRandomPoolMonster, or_assoc]

theorem killStep_killIndividual (htype : q.m_QuestBase.nType = .killIndividual)
    (hlook : related 1030 q ∧ q.Running ∧ q.isFinishable = false) : killStep nMonsterID q = some
      (if q.getValue 0 = nMonsterID ∧ q.m_Instance.nStatus 0 < q.getValue 1 then up q 0
      else if q.getValue 2 = nMonsterID ∧ q.m_Instance.nStatus 1 < q.getValue 3 then up q 1
      else if q.getValue 4 = nMonsterID ∧ q.m_Instance.nStatus 2 < q.getValue 5 then up q 2 else q) := by
  unfold killStep
  rw [if_pos hlook, htype, show q.getStatus 0 = _ from Quest.getStatus_val (i := 0),
    show q.getStatus 1 = _ from Quest.getStatus_val (i := 1), show q.getStatus 2 = _ from Quest.getStatus_val (i := 2),
    show q.incStatus 0 1 = _ from incStatus_eq q 0, show q.incStatus 1 1 = _ from incStatus_eq q 1,
    show q.incStatus 2 1 = _ from incStatus_eq q 2]
  simp only [isInRandomPoolMonster, apply_ite some]
  simp

theorem killStep_randomKillIndividual (htype : q.m_QuestBase.nType = .randomKillIndividual)
    (hlook : related 1030 q ∧ q.Running ∧ q.isFinishable = false) : killStep nMonsterID q = some
      (if q.m_Instance.nRandomKey 0 = nMonsterID ∧ q.m_Instance.nStatus 0 < q.m_Instance.nRandomValue 0 then up q 0
      else if q.m_Instance.nRandomKey 1 = nMonsterID ∧ q.m_Instance.nStatus 1 < q.m_Instance.nRandomValue 1 then
        up q 0
      else if q.m_Instance.nRandomKey 2 = nMonsterID ∧ q.m_Instance.nStatus 1 < q.m_Instance.nRandomValue 2 then
        up q 0
      else q) := by
  unfold killStep
  rw [if_pos hlook, htype, show q.getStatus 0 = _ from Quest.getStatus_val (i := 0),
    show q.getStatus 1 = _ from Quest.getStatus_val (i := 1), show q.incStatus 0 1 = _ from incStatus_eq q 0]
  simp only [Quest.getRandomKey, Quest.getRandomValue, apply_ite some]
  simp

theorem killStep_of_not_looked (hlook : ¬(related 1030 q ∧ q.Running ∧ q.isFinishable = false)) :
    killStep nMonsterID q = some q := if_neg hlook

theorem killTotal_eq_advance (htype : q.m_QuestBase.nType = .killTotal)
    (hlook : related 1030 q ∧ q.Running ∧ q.isFinishable = false) :
    killStep nMonsterID q = some (advance nMonsterID q) := by
  have hopen : q.m_Instance.nStatus 0 < q.getValue 1 := by
    have hfin := hlook.2.2
    unfold Quest.isFinishable at hfin
    rw [htype] at hfin
    exact not_le.mp (of_decide_eq_false hfin)
  rw [killStep_killTotal htype hlook]
  apply congrArg some
  split_ifs with hcond
  · refine setStatus_eq_advance_iff.mpr fun j => (counts_killTotal hlook.2.1 htype).trans ⟨And.left, ?_⟩
    rintro rfl
    exact ⟨rfl, hcond.imp_right fun h => h.imp_right And.left, hopen⟩
  · refine self_eq_advance_iff.mpr fun j hj => hcond ?_
    obtain ⟨rfl, hnames, -⟩ := (counts_killTotal hlook.2.1 htype).mp hj
    exact hnames.imp_right fun h => h.imp_right fun h => ⟨h, hopen⟩

/-- Of the slots that count, the first is put up, so it has to be the only one. -/
theorem killIndividual_eq_advance_iff (htype : q.m_QuestBase.nType = .killIndividual)
    (hlook : related 1030 q ∧ q.Running ∧ q.isFinishable = false) :
    killStep nMonsterID q = some (advance nMonsterID q) ↔
      ∀ i j, Counts nMonsterID q i → Counts nMonsterID q j → i = j := by
  have hcounts : ∀ i, Counts nMonsterID q i ↔ _ := fun i => counts_killIndividual hlook.2.1 htype
  have honly : ∀ {k}, Counts nMonsterID q k → ((∀ j, Counts nMonsterID q j ↔ j = k) ↔
      ∀ i j, Counts nMonsterID q i → Counts nMonsterID q j → i = j) := by
    intro k hk
    constructor
    · intro h i j hi hj
      exact ((h i).mp hi).trans ((h j).mp hj).symm
    · intro h j
      exact ⟨fun hj => h j k hj hk, fun hj => hj ▸ hk⟩
  rw [killStep_killIndividual htype hlook, Option.some.injEq]
  split_ifs with h0 h1 h2
  · exact setStatus_eq_advance_iff.trans (honly ((hcounts 0).mpr h0))
  · exact setStatus_eq_advance_iff.trans (honly ((hcounts 1).mpr h1))
  · exact setStatus_eq_advance_iff.trans (honly ((hcounts 2).mpr h2))
  · have hnot : ∀ i, ¬Counts nMonsterID q i := by
      intro i hi
      match i with
      | 0 => exact h0 ((hcounts 0).mp hi)
      | 1 => exact h1 ((hcounts 1).mp hi)
      | 2 => exact h2 ((hcounts 2).mp hi)
    exact iff_of_true (self_eq_advance_iff.mpr hnot) fun i _ hi => absurd hi (hnot i)

/-- Every branch puts the first slot up. -/
theorem randomKillIndividual_eq_advance_iff (htype : q.m_QuestBase.nType = .randomKillIndividual)
    (hlook : related 1030 q ∧ q.Running ∧ q.isFinishable = false) :
    killStep nMonsterID q = some (advance nMonsterID q) ↔
      (∀ i, Counts nMonsterID q i → i = 0) ∧ (Counts nMonsterID q 0 ∨ ¬(q.Running ∧
        q.m_Instance.nRandomKey 2 = nMonsterID ∧ q.m_Instance.nStatus 1 < q.m_Instance.nRandomValue 2)) := by
  have hcounts : ∀ i, Counts nMonsterID q i ↔ _ := fun i => counts_randomKillIndividual hlook.2.1 htype
  rw [killStep_randomKillIndividual htype hlook, Option.some.injEq]
  split_ifs with h0 h1 h2
  · have h0 := (hcounts 0).mpr h0
    refine setStatus_eq_advance_iff.trans ⟨fun h => ⟨fun i hi => (h i).mp hi, .inl h0⟩, fun h j => ?_⟩
    exact ⟨h.1 j, fun hj => hj ▸ h0⟩
  · have h0 : ¬Counts nMonsterID q 0 := fun hc => h0 ((hcounts 0).mp hc)
    have h1 := (hcounts 1).mpr h1
    refine setStatus_eq_advance_iff.trans (iff_of_false (fun h => h0 ((h 0).mpr rfl)) fun h => ?_)
    exact absurd (h.1 1 h1) (by decide)
  · have h0 : ¬Counts nMonsterID q 0 := fun hc => h0 ((hcounts 0).mp hc)
    refine setStatus_eq_advance_iff.trans (iff_of_false (fun h => h0 ((h 0).mpr rfl)) fun h => ?_)
    exact h.2.elim h0 fun hc => hc ⟨hlook.2.1, h2⟩
  · have h0 : ¬Counts nMonsterID q 0 := fun hc => h0 ((hcounts 0).mp hc)
    refine self_eq_advance_iff.trans ⟨fun h => ⟨fun i hi => absurd hi (h i), .inr fun hc => h2 hc.2⟩, fun h i hi => ?_⟩
    exact h0 (h.1 i hi ▸ hi)

/-- **One quest**: the kill has its due effect. -/
theorem killStep_eq_iff : killStep nMonsterID q = some (advance nMonsterID q) ↔ CarefulKill nMonsterID q := by
  by_cases hlook : related 1030 q ∧ q.Running ∧ q.isFinishable = false
  · unfold CarefulKill
    rcases checkQuestTypeFlag_kill.mp (of_decide_eq_true hlook.1).2 with htype | htype | htype <;> rw [htype]
    · exact iff_of_true (killTotal_eq_advance htype hlook) trivial
    · exact killIndividual_eq_advance_iff htype hlook
    · exact randomKillIndividual_eq_advance_iff htype hlook
  · have hnot : ∀ i, ¬Counts nMonsterID q i := fun i hc => hlook (looked_of_counts hc)
    rw [killStep_of_not_looked hlook, Option.some.injEq]
    refine iff_of_true (self_eq_advance_iff.mpr hnot) ?_
    unfold CarefulKill
    split
    · exact fun i _ hi => absurd hi (hnot i)
    · rename_i htype
      refine ⟨fun i hi => absurd hi (hnot i), .inr fun hc => hlook ⟨?_, hc.1, ?_⟩⟩
      · exact decide_eq_true ⟨hc.1, checkQuestTypeFlag_kill.mpr (.inr (.inr htype))⟩
      · unfold Quest.isFinishable
        rw [htype]
    · trivial

/-! ## Lists of quests -/

theorem mapM_eq_some_map_iff {α β : Type} {f : α → Option β} {g : α → β} {l : List α} :
    l.mapM f = some (l.map g) ↔ ∀ a ∈ l, f a = some (g a) := by
  induction l with
  | nil => simp
  | cons a l ih =>
    rw [List.mapM_cons, List.forall_mem_cons, ← ih]
    cases hf : f a <;> cases hl : l.mapM f <;> simp

/-- **When every kill counts where it should**: in every order of the quests. -/
theorem progresses_iff :
    (∀ l, l.Perm qs → Progresses kills l) ↔ ∀ q ∈ qs, CarefulKills kills q := by
  have hlist : ∀ {l}, Progresses kills l ↔ ∀ q ∈ l, CarefulKills kills q := by
    induction kills with
    | nil => exact fun {l} => iff_of_true trivial fun _ _ => trivial
    | cons nMonsterID kills ih =>
      intro l
      unfold Progresses CarefulKills updateQuestStatusByMonsterKill
      rw [mapM_eq_some_map_iff, ih, List.forall_mem_map]
      simp only [killStep_eq_iff, forall_and]
  constructor
  · exact fun h => hlist.mp (h qs (List.Perm.refl _))
  · exact fun h l hl => hlist.mpr fun q hq => h q (hl.mem_iff.mp hq)

/-- A random quest for one kill of the monster 5 and one of the monster 7. -/
def randomPair : Quest where
  m_QuestBase := { nType := .randomKillIndividual, nValue := fun _ => 0, nEndType := 0 }
  m_Instance :=
    { nProgress := .inProgress, nStatus := fun _ => 0, nRandomKey := ![5, 7, 0], nRandomValue := ![1, 1, 0] }
  m_bIsNeedUpdateToDB := false

/-- A quest that asks twice for one kill of the monster 5. -/
def sameTwice : Quest where
  m_QuestBase := { nType := .killIndividual, nValue := ![5, 1, 5, 1, 0, 0, 0, 0, 0, 0, 0, 0], nEndType := 0 }
  m_Instance :=
    { nProgress := .inProgress, nStatus := fun _ => 0, nRandomKey := fun _ => 0, nRandomValue := fun _ => 0 }
  m_bIsNeedUpdateToDB := false

/-- The kill of the monster 7 counts for the monster 5; the second objective for the monster 5 is left out. -/
theorem not_progresses : ¬Progresses [7] [randomPair] ∧ ¬Progresses [5] [sameTwice] :=
  ⟨fun h => absurd h.1 (by decide), fun h => absurd h.1 (by decide)⟩

/-! ## What a sequence of kills leaves -/

/-- The quest after the kills, as it should be. -/
def after (kills : List Int) (q : Quest) : Quest := kills.foldl (fun q nMonsterID => advance nMonsterID q) q

theorem foldlM_of_progresses (h : Progresses kills qs) :
    kills.foldlM (fun qs nMonsterID => updateQuestStatusByMonsterKill nMonsterID qs) qs =
      some (qs.map (after kills)) := by
  induction kills generalizing qs with
  | nil => exact congrArg some (List.map_id qs).symm
  | cons nMonsterID kills ih =>
    obtain ⟨hkill, hrest⟩ := h
    rw [List.foldlM_cons, hkill]
    exact (ih hrest).trans (by rw [List.map_map]; rfl)

/-- The kills that the slot counts, up to the required number. -/
theorem nStatus_after (hrequired : ∀ nMonsterID, killObjective nMonsterID q i = none ∨
      killObjective nMonsterID q i = some required) :
    (after kills q).m_Instance.nStatus i = max (q.m_Instance.nStatus i) (min required
      (q.m_Instance.nStatus i + kills.countP fun nMonsterID => (killObjective nMonsterID q i).isSome)) := by
  induction kills generalizing q with
  | nil =>
    show q.m_Instance.nStatus i = _
    rw [List.countP_nil]
    omega
  | cons nMonsterID kills ih =>
    refine (ih (q := advance nMonsterID q) hrequired).trans ?_
    have hsame : ∀ m, killObjective m (advance nMonsterID q) i = killObjective m q i := fun _ => rfl
    have hstatus : (advance nMonsterID q).m_Instance.nStatus i = if Counts nMonsterID q i then
        q.m_Instance.nStatus i + 1 else q.m_Instance.nStatus i := rfl
    simp only [hsame]
    rw [hstatus, List.countP_cons]
    rcases hrequired nMonsterID with hnone | hsome
    · rw [if_neg (not_counts_of_none hnone), hnone]
      rfl
    · rw [hsome]
      simp only [Option.isSome_some, if_true]
      by_cases hlt : q.m_Instance.nStatus i < required
      · rw [if_pos ((counts_iff hsome).mpr hlt)]
        omega
      · rw [if_neg fun hc => hlt ((counts_iff hsome).mp hc)]
        omega

end QuestManager

end RZEmulator.Chihiro
