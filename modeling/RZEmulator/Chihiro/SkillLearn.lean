import RZEmulator.Chihiro.SkillTree

/-!
# Learning a skill

Which rows permit a level, what a request should leave, and when it does. The permission goes by the first row of a job that
decides (`decidingRow`), the price by the last one that reaches the level (`asked`), and a search that no previous job stops
reads beyond the three that a unit has.
-/

namespace RZEmulator.Chihiro

variable {R : Type}

namespace SkillTables

variable (t : SkillTables R) (u : Learner) (skill_id : Int) (skill_level : Nat)

/-! ## What a request should leave -/

/-- A job of the unit, with its level: one of the three previous ones or the current one. -/
def HasJob (job jlv : Int) : Prop :=
  (∃ i < 3, u.getPrevJobLv i ≠ 0 ∧ job = u.getPrevJobId i ∧ jlv = u.getPrevJobLv i) ∨
    job = u.getCurrentJob ∧ jlv = u.getCurrentJLv

/-- The row is for the level, and all its conditions are met at the job level `jlv`. -/
structure Permits (jlv : Int) (e : SkillTreeBase R) : Prop where
  skill : e.skill_id = skill_id
  range : e.min_skill_lv ≤ skill_level ∧ (skill_level : Int) ≤ e.max_skill_lv
  lv : e.lv ≤ u.getLevel
  job_lv : e.job_lv ≤ jlv
  skills : ∀ nsi, e.need_skill_id nsi ≠ 0 → e.need_skill_lv nsi ≤ u.getBaseSkillLevel (e.need_skill_id nsi)

def cost (sb : SkillBase) (e : SkillTreeBase R) : Int := t.arith.times (sb.getNeedJobPoint skill_level) e.jp_ratio

/-- The unit's job points have become `jp` by the price of a row that permits the level. -/
def PricedBy (jp : Int) : Prop :=
  ∃ sb, t.skillBase skill_id = some sb ∧ ∃ job jlv, HasJob u job jlv ∧
    ∃ e ∈ t.rows, e.job_id = job ∧ Permits u skill_id skill_level jlv e ∧ jp = u.getJP - t.cost skill_level sb e

/-- What an answer should be. -/
structure LearnsRight (w : LearnWorld) (target : Nat) (a : LearnAnswer) : Prop where
  read : ∀ i ∈ a.read, i < 3
  success : ∀ u, w.unitOf target = some u → ∃ u', a.world.unitOf target = some u' ∧
    (a.result = .SUCCESS ↔ u'.getBaseSkillLevel skill_id = u.getBaseSkillLevel skill_id + 1)
  priced : a.result = .SUCCESS → ∃ u u', w.unitOf target = some u ∧ a.world.unitOf target = some u' ∧
    t.PricedBy u skill_id (u.getBaseSkillLevel skill_id + 1) u'.getJP
  otherwise : a.result ≠ .SUCCESS → a.world = w

/-! ## When it does -/

/-- The row reaches the level. -/
def Reaches (e : SkillTreeBase R) : Prop := e.skill_id = skill_id ∧ (skill_level : Int) ≤ e.max_skill_lv

instance (e : SkillTreeBase R) : Decidable (Reaches skill_id skill_level e) := inferInstanceAs (Decidable (_ ∧ _))

/-- The row ends the search among the rows of a job. -/
def Decides (jlv : Int) (e : SkillTreeBase R) : Prop :=
  Reaches skill_id skill_level e ∧ (u.getLevel < e.lv ∨ e.job_lv ≤ jlv)

instance (jlv : Int) (e : SkillTreeBase R) : Decidable (Decides u skill_id skill_level jlv e) :=
  inferInstanceAs (Decidable (_ ∧ _))

def decidingRow (job jlv : Int) : Option (SkillTreeBase R) :=
  (t.getSkillTree job).find? fun e => Decides u skill_id skill_level jlv e

/-- The unit has the level and the skills that the row asks for. -/
def Met (e : SkillTreeBase R) : Prop := e.lv ≤ u.getLevel ∧ lacksSkill u e = false

/-- The skill has a row that is not filled. -/
def BlankSkill : Prop := ∃ sb, t.skillBase skill_id = some sb ∧ sb.id = 0

/-- No row of the job decides, or the skill is a blank one. -/
def Skips (job jlv : Int) : Prop :=
  ∀ e, t.decidingRow u skill_id skill_level job jlv = some e → Met u e ∧ t.BlankSkill skill_id

/-- The job points that are taken: those of the last row that reaches the level. -/
def asked (sb : SkillBase) (job : Int) : Int :=
  if skill_level ≤ 50 ∧ t.getSkillTree job ≠ [] then
    t.arith.times (sb.getNeedJobPoint skill_level)
      (match ((t.getSkillTree job).filter fun e => Reaches skill_id skill_level e).getLast? with
        | none => t.arith.one
        | some e => if t.arith.isMinusOne e.jp_ratio then t.arith.one else e.jp_ratio)
  else -1

/-- The points that are taken are there, and a row that permits the level has the price that they make. -/
def AsksRight (sb : SkillBase) (job : Int) : Prop :=
  t.asked skill_id skill_level sb job ≤ u.getJP ∧
    t.PricedBy u skill_id skill_level (t.pay u (t.asked skill_id skill_level sb job)).getJP

/-- The previous job of the depth `i` is the first that decides. -/
def StopsAt (i : Nat) (e : SkillTreeBase R) : Prop :=
  i < 3 ∧ u.getPrevJobLv i ≠ 0 ∧
    (∀ k < i, u.getPrevJobLv k ≠ 0 → t.Skips u skill_id skill_level (u.getPrevJobId k) (u.getPrevJobLv k)) ∧
      t.decidingRow u skill_id skill_level (u.getPrevJobId i) (u.getPrevJobLv i) = some e ∧ ¬(Met u e ∧ t.BlankSkill skill_id)

/-- A previous job decides, and if its row lets the unit learn then the price is right. -/
def LearnsPlainly : Prop :=
  ∃ i e, t.StopsAt u skill_id skill_level i e ∧ (Met u e → ∃ sb, t.skillBase skill_id = some sb ∧
    (t.cost skill_level sb e ≤ u.getJP →
      t.AsksRight u skill_id skill_level sb (if u.getPrevJobId i = 0 then u.getCurrentJob else u.getPrevJobId i)))

/-! ## The rows of a job -/

section

variable {t : SkillTables R} {u : Learner} {skill_id : Int} {skill_level : Nat} {job jlv : Int} {e : SkillTreeBase R}
  {rows : List (SkillTreeBase R)} {sb : SkillBase} {r : TS_RESULT}

theorem mem_registerSkillTree {base : SkillTreeBase R} {store : List (SkillTreeGroup R)} :
    e ∈ ((registerSkillTree base store).filter fun stg => stg.job_id = job).flatMap (·.skillTrees) ↔
      e ∈ (store.filter fun stg => stg.job_id = job).flatMap (·.skillTrees) ∨ e = base ∧ base.job_id = job := by
  induction store with
  | nil =>
    by_cases hjob : base.job_id = job <;> simp [registerSkillTree, hjob]
  | cons stg store ih =>
    unfold registerSkillTree
    by_cases hkey : stg.skill_id = base.skill_id ∧ stg.job_id = base.job_id
    · rw [if_pos hkey]
      by_cases hjob : base.job_id = job
      · simp only [List.filter_cons, hkey.2, hjob, decide_true, if_true, List.flatMap_cons, List.mem_append,
          List.mem_singleton, and_true]
        tauto
      · simp only [List.filter_cons, hkey.2, hjob, decide_false, Bool.false_eq_true, if_false, and_false, or_false]
    · rw [if_neg hkey]
      by_cases hjob : stg.job_id = job
      · simp only [List.filter_cons, hjob, decide_true, if_true, List.flatMap_cons, List.mem_append, ih]
        tauto
      · simp only [List.filter_cons, hjob, decide_false, Bool.false_eq_true, if_false, ih]

/-- The tree of a job has exactly the rows of the job. -/
theorem mem_getSkillTree : e ∈ t.getSkillTree job ↔ e ∈ t.rows ∧ e.job_id = job := by
  have h : ∀ (rows : List (SkillTreeBase R)) (store : List (SkillTreeGroup R)),
      e ∈ ((rows.foldl (fun store base => registerSkillTree base store) store).filter fun stg =>
        stg.job_id = job).flatMap (·.skillTrees) ↔
      e ∈ (store.filter fun stg => stg.job_id = job).flatMap (·.skillTrees) ∨ e ∈ rows ∧ e.job_id = job := by
    intro rows
    induction rows with
    | nil => simp
    | cons base rows ih =>
      intro store
      rw [List.foldl_cons, ih, mem_registerSkillTree, List.mem_cons]
      grind
  unfold getSkillTree skillTreeResourceStore
  rw [h]
  simp

/-- The answer of a row that decides. -/
def verdict (t : SkillTables R) (u : Learner) (skill_id : Int) (skill_level : Nat) (e : SkillTreeBase R) : Option TS_RESULT :=
  if u.getLevel < e.lv then some .NOT_ENOUGH_LEVEL else t.checkRow u skill_id skill_level e

theorem searchRows_of_find (bMaxLimit bFound : Bool)
    (h : (rows.find? fun e => Decides u skill_id skill_level jlv e) = some e) :
    t.searchRows u skill_id skill_level jlv bMaxLimit bFound rows = t.verdict u skill_id skill_level e := by
  induction rows generalizing bMaxLimit bFound with
  | nil => cases h
  | cons e' rows ih =>
    unfold searchRows
    by_cases hdec : Decides u skill_id skill_level jlv e'
    · simp only [List.find?_cons, hdec, decide_true, Option.some.injEq] at h
      subst h
      rw [if_pos hdec.1.1, if_pos hdec.1.2]
      unfold verdict
      split_ifs with hlv hjob
      · rfl
      · rfl
      · exact absurd hdec.2 (by omega)
    · simp only [List.find?_cons, hdec, decide_false] at h
      split_ifs with hid hmax hlv hjob
      · exact absurd ⟨⟨hid, hmax⟩, .inl hlv⟩ hdec
      · exact absurd ⟨⟨hid, hmax⟩, .inr hjob⟩ hdec
      · exact ih _ _ h
      · exact ih _ _ h
      · exact ih _ _ h

theorem searchRows_of_none (bMaxLimit bFound : Bool)
    (h : (rows.find? fun e => Decides u skill_id skill_level jlv e) = none) :
    ∃ r, t.searchRows u skill_id skill_level jlv bMaxLimit bFound rows = some r ∧ r.triesOn = true := by
  induction rows generalizing bMaxLimit bFound with
  | nil =>
    refine ⟨_, rfl, ?_⟩
    cases bFound <;> cases bMaxLimit <;> decide
  | cons e' rows ih =>
    have hdec : ¬Decides u skill_id skill_level jlv e' := by simpa using List.find?_eq_none.mp h e' List.mem_cons_self
    simp only [List.find?_cons, hdec, decide_false] at h
    unfold searchRows
    split_ifs with hid hmax hlv hjob
    · exact absurd ⟨⟨hid, hmax⟩, .inl hlv⟩ hdec
    · exact absurd ⟨⟨hid, hmax⟩, .inr hjob⟩ hdec
    · exact ih _ _ h
    · exact ih _ _ h
    · exact ih _ _ h

theorem isLearnableSkill_of_deciding (h : t.decidingRow u skill_id skill_level job jlv = some e) :
    t.isLearnableSkill u skill_id skill_level job jlv = t.verdict u skill_id skill_level e := by
  unfold isLearnableSkill
  unfold decidingRow at h
  cases htree : t.getSkillTree job with
  | nil =>
    rw [htree] at h
    cases h
  | cons e' rows =>
    rw [htree] at h
    exact searchRows_of_find false false h

theorem verdict_of_unmet (h : ¬Met u e) :
    ∃ r, t.verdict u skill_id skill_level e = some r ∧ r.triesOn = false ∧ r ≠ .SUCCESS := by
  unfold verdict
  split_ifs with hlv
  · exact ⟨_, rfl, rfl, nofun⟩
  · unfold checkRow
    rw [if_pos (Bool.not_eq_false _ ▸ fun hlacks => h ⟨by omega, hlacks⟩)]
    exact ⟨_, rfl, rfl, nofun⟩

theorem verdict_of_met (h : Met u e) : t.verdict u skill_id skill_level e =
    match t.skillBase skill_id with
    | none => none
    | some sb =>
      if sb.id = 0 then some .ACCESS_DENIED
      else if u.getJP < t.cost skill_level sb e then some .NOT_ENOUGH_JP
      else some .SUCCESS := by
  unfold verdict checkRow
  rw [if_neg (by have := h.1; omega), if_neg (by rw [h.2]; exact Bool.false_ne_true)]
  rfl

/-- A job that is skipped lets the search go on. -/
theorem Skips.isLearnableSkill (h : t.Skips u skill_id skill_level job jlv) :
    ∃ r, t.isLearnableSkill u skill_id skill_level job jlv = some r ∧ r.triesOn = true := by
  cases hrow : t.decidingRow u skill_id skill_level job jlv with
  | some e =>
    obtain ⟨hmet, sb, hsb, hid⟩ := h e hrow
    refine ⟨.ACCESS_DENIED, ?_, rfl⟩
    rw [isLearnableSkill_of_deciding hrow, verdict_of_met hmet, hsb]
    exact if_pos hid
  | none =>
    unfold SkillTables.isLearnableSkill
    split_ifs with hempty
    · exact ⟨_, rfl, rfl⟩
    · exact searchRows_of_none false false hrow

/-! ## The search over the previous jobs -/

/-- The job of the depth `i` lets the search go on. -/
def PassesAt (t : SkillTables R) (u : Learner) (skill_id : Int) (skill_level i : Nat) : Prop :=
  u.getPrevJobLv i ≠ 0 → t.Skips u skill_id skill_level (u.getPrevJobId i) (u.getPrevJobLv i)

variable {i : Nat} {before after : List Nat}

theorem searchPrevJobs_pass (hpass : ∀ k ∈ before, t.PassesAt u skill_id skill_level k) (after : List Nat) (ils : TS_RESULT) :
    ∃ ils', t.searchPrevJobs u skill_id skill_level ils (before ++ after) =
      (t.searchPrevJobs u skill_id skill_level ils' after).map fun s => { s with read := before ++ s.read } := by
  induction before generalizing ils with
  | nil => exact ⟨ils, Option.map_id'.symm⟩
  | cons k before ih =>
    rw [List.forall_mem_cons] at hpass
    have hgo : ∀ ils, ∃ ils', (t.searchPrevJobs u skill_id skill_level ils (before ++ after)).map (.reading k) =
        (t.searchPrevJobs u skill_id skill_level ils' after).map fun s => { s with read := k :: before ++ s.read } := by
      intro ils
      obtain ⟨ils', h⟩ := ih hpass.2 ils
      refine ⟨ils', ?_⟩
      rw [h, Option.map_map]
      rfl
    rw [List.cons_append, searchPrevJobs]
    split_ifs with hlv
    · obtain ⟨r, hr, hon⟩ := (hpass.1 hlv).isLearnableSkill
      rw [hr]
      dsimp only
      rw [if_neg (by rintro rfl; cases hon), if_pos hon]
      exact hgo r
    · exact hgo ils

/-- A search that every depth passes has read them all. -/
theorem searchPrevJobs_all (hpass : ∀ k ∈ before, t.PassesAt u skill_id skill_level k) (ils : TS_RESULT) :
    ∃ s, t.searchPrevJobs u skill_id skill_level ils before = some s ∧ s.read = before := by
  obtain ⟨ils', h⟩ := searchPrevJobs_pass hpass [] ils
  rw [List.append_nil] at h
  exact ⟨_, h, List.append_nil _⟩

/-- The first depth that decides ends the search. -/
theorem searchPrevJobs_stop (hpass : ∀ k ∈ before, t.PassesAt u skill_id skill_level k) (hlv : u.getPrevJobLv i ≠ 0)
    (hrow : t.decidingRow u skill_id skill_level (u.getPrevJobId i) (u.getPrevJobLv i) = some e) (ils : TS_RESULT)
    (hon : ∀ r, t.verdict u skill_id skill_level e = some r → r.triesOn = false) :
    t.searchPrevJobs u skill_id skill_level ils (before ++ i :: after) =
      (t.verdict u skill_id skill_level e).map fun r => ⟨r, if r = .SUCCESS then u.getPrevJobId i else 0, before ++ [i]⟩ := by
  obtain ⟨ils', h⟩ := searchPrevJobs_pass hpass (i :: after) ils
  rw [h, searchPrevJobs, if_pos hlv, isLearnableSkill_of_deciding hrow]
  cases hverdict : t.verdict u skill_id skill_level e with
  | none => rfl
  | some r =>
    dsimp only
    by_cases hr : r = .SUCCESS
    · rw [if_pos hr, Option.map_some, Option.map_some, if_pos hr]
    · rw [if_neg hr, if_neg (by rw [hon r hverdict]; exact Bool.false_ne_true), Option.map_some, Option.map_some, if_neg hr]

/-- A row that decides, of a skill that is not blank, ends the search. -/
theorem verdict_triesOn (hblank : ¬(Met u e ∧ t.BlankSkill skill_id)) :
    ∀ r, t.verdict u skill_id skill_level e = some r → r.triesOn = false := by
  intro r hr
  by_cases hmet : Met u e
  · rw [verdict_of_met hmet] at hr
    cases hsb : t.skillBase skill_id with
    | none =>
      rw [hsb] at hr
      cases hr
    | some sb =>
      rw [hsb] at hr
      dsimp only at hr
      rw [if_neg fun hid => hblank ⟨hmet, sb, hsb, hid⟩] at hr
      split_ifs at hr <;> cases hr <;> rfl
  · have hunmet : ∃ r', t.verdict u skill_id skill_level e = some r' ∧ r'.triesOn = false ∧ r' ≠ .SUCCESS :=
      verdict_of_unmet hmet
    obtain ⟨r', hr', hon, -⟩ := hunmet
    rw [hr] at hr'
    cases hr'
    exact hon

theorem range_four : ∀ i < 4, List.range 4 = List.range i ++ i :: List.range' (i + 1) (3 - i) := by decide

/-- What `IsLearnableSkill` finds when a previous job decides. -/
theorem StopsAt.isLearnableSkill (h : t.StopsAt u skill_id skill_level i e) :
    t.IsLearnableSkill u skill_id skill_level = (t.verdict u skill_id skill_level e).map fun r =>
      ⟨r, if r = .SUCCESS then u.getPrevJobId i else 0, List.range i ++ [i]⟩ := by
  obtain ⟨hi, hlv, hpass, hrow, hblank⟩ := h
  have hon : ∀ r, t.verdict u skill_id skill_level e = some r → r.triesOn = false := verdict_triesOn hblank
  unfold IsLearnableSkill
  rw [range_four i (by omega),
    searchPrevJobs_stop (fun k hk => hpass k (List.mem_range.mp hk)) hlv hrow .ACCESS_DENIED hon]
  cases hverdict : t.verdict u skill_id skill_level e with
  | none => rfl
  | some r =>
    dsimp only [Option.map_some]
    rw [if_neg (by rw [hon r hverdict]; exact Bool.false_ne_true)]

/-- Without a previous job that decides, the fourth depth is read. -/
theorem three_mem_read (hstop : ¬∃ i e, t.StopsAt u skill_id skill_level i e) {s : JobSearch}
    (hs : t.IsLearnableSkill u skill_id skill_level = some s) : 3 ∈ s.read := by
  have hpass : ∀ k ∈ List.range 3, t.PassesAt u skill_id skill_level k := by
    intro k hk
    induction k using Nat.strong_induction_on with
    | _ k ih =>
      rw [List.mem_range] at hk
      intro hlv e hrow
      by_contra hblank
      exact hstop ⟨k, e, hk, hlv, fun j hj => ih j hj (List.mem_range.mpr (by omega)), hrow, hblank⟩
  have hread : ∀ s', t.searchPrevJobs u skill_id skill_level .ACCESS_DENIED (List.range 4) = some s' → 3 ∈ s'.read := by
    intro s' hs'
    rw [range_four 3 (by omega)] at hs'
    by_cases hlast : t.PassesAt u skill_id skill_level 3
    · have hall : ∀ k ∈ List.range 3 ++ 3 :: List.range' (3 + 1) (3 - 3), t.PassesAt u skill_id skill_level k :=
        List.forall_mem_append.mpr ⟨hpass, List.forall_mem_singleton.mpr hlast⟩
      obtain ⟨s'', hs'', hread⟩ := searchPrevJobs_all hall .ACCESS_DENIED
      rw [hs''] at hs'
      rw [← Option.some.inj hs', hread]
      decide
    · unfold PassesAt Skips at hlast
      push Not at hlast
      obtain ⟨hlv, e, hrow, hblank⟩ := hlast
      rw [searchPrevJobs_stop hpass hlv hrow .ACCESS_DENIED (verdict_triesOn fun h => hblank h.1 h.2)] at hs'
      obtain ⟨r, -, rfl⟩ := Option.map_eq_some_iff.mp hs'
      exact List.mem_append_right _ (List.mem_singleton_self 3)
  unfold IsLearnableSkill at hs
  cases hsearch : t.searchPrevJobs u skill_id skill_level .ACCESS_DENIED (List.range 4) with
  | none =>
    rw [hsearch] at hs
    cases hs
  | some s' =>
    rw [hsearch] at hs
    dsimp only at hs
    have h3 := hread s' hsearch
    split_ifs at hs with hon
    · cases hlearn : t.isLearnableSkill u skill_id skill_level u.getCurrentJob u.getCurrentJLv with
      | none =>
        rw [hlearn] at hs
        cases hs
      | some r =>
        rw [hlearn] at hs
        cases hs
        exact h3
    · cases hs
      exact h3

/-! ## The price and the level -/

theorem foldl_ratio (ratio : Option R) :
    rows.foldl (fun r st => if st.skill_id = skill_id ∧ (skill_level : Int) ≤ st.max_skill_lv then some st.jp_ratio else r) ratio =
      ((rows.filter fun e => Reaches skill_id skill_level e).getLast?.map (·.jp_ratio)).or ratio := by
  induction rows generalizing ratio with
  | nil => rfl
  | cons st rows ih =>
    rw [List.foldl_cons, ih]
    by_cases hreach : Reaches skill_id skill_level st
    · simp only [List.filter_cons, hreach, decide_true, if_true, List.getLast?_cons]
      rw [if_pos (show _ ∧ _ from hreach)]
      cases (rows.filter fun e => Reaches skill_id skill_level e).getLast? <;> rfl
    · simp only [List.filter_cons, hreach, decide_false, Bool.false_eq_true, if_false]
      rw [if_neg (show ¬(_ ∧ _) from hreach)]

theorem getNeedJpForSkillLevelUp_eq (hsb : t.skillBase skill_id = some sb) (hid : sb.id ≠ 0) (job : Int) :
    t.getNeedJpForSkillLevelUp skill_id skill_level job = some (t.asked skill_id skill_level sb job) := by
  unfold getNeedJpForSkillLevelUp asked
  rw [hsb]
  dsimp only
  by_cases h : skill_level ≤ 50 ∧ t.getSkillTree job ≠ []
  · rw [if_pos h, if_pos ⟨hid, h.1, List.isEmpty_eq_false_iff.mpr h.2⟩, foldl_ratio]
    cases ((t.getSkillTree job).filter fun e => Reaches skill_id skill_level e).getLast? <;> rfl
  · rw [if_neg h, if_neg fun h' => h ⟨h'.2.1, List.isEmpty_eq_false_iff.mp h'.2.2⟩]

theorem find?_setSkill (skills : List LearnedSkill) :
    ((setSkill skill_id skill_level skills).find? fun s => s.m_nSkillID = skill_id).map (·.m_nSkillLevel) = some skill_level := by
  induction skills with
  | nil => simp [setSkill]
  | cons s skills ih =>
    unfold setSkill
    by_cases hid : s.m_nSkillID = skill_id
    · simp [hid]
    · simpa [hid] using ih

theorem getBaseSkillLevel_setSkill (u : Learner) :
    ({ u with m_vSkillList := setSkill skill_id skill_level u.m_vSkillList } : Learner).getBaseSkillLevel skill_id = skill_level := by
  obtain ⟨s, hs, hlevel⟩ := Option.map_eq_some_iff.mp (find?_setSkill u.m_vSkillList)
  unfold Learner.getBaseSkillLevel Learner.getSkill
  rw [hs]
  exact hlevel

/-- What `RegisterSkill` does for a skill that is not blank. -/
theorem registerSkill_eq (hsb : t.skillBase skill_id = some sb) (hid : sb.id ≠ 0) (job : Int) :
    t.registerSkill u skill_id skill_level job =
      let n := t.asked skill_id skill_level sb (if job = 0 then u.getCurrentJob else job)
      if n > u.getJP then some u
      else some { t.pay u n with m_vSkillList := setSkill skill_id skill_level (t.pay u n).m_vSkillList } := by
  unfold registerSkill
  dsimp only
  rw [getNeedJpForSkillLevelUp_eq hsb hid]
  dsimp only
  rw [hsb]

/-! ## The answers -/

variable {w : LearnWorld} {target : Nat} {u' : Learner} {depths : List Nat}

theorem unitOf_setUnit : (w.setUnit target u').unitOf target = some u' := by
  unfold LearnWorld.unitOf LearnWorld.setUnit
  by_cases hown : w.handle = target
  · rw [if_pos hown, if_pos hown]
  · rw [if_neg hown, if_neg hown]
    dsimp only
    rw [Function.update_self]
    exact if_pos rfl

/-- An answer that refuses is right. -/
theorem learnsRight_refused (hr : r ≠ .SUCCESS) (hread : ∀ i ∈ depths, i < 3) : t.LearnsRight skill_id w target ⟨r, depths, w⟩ where
  read := hread
  success := fun u hu => ⟨u, hu, iff_of_false hr (by omega)⟩
  priced := fun h => absurd h hr
  otherwise := fun _ => rfl

theorem onLearnSkill_of_stops (hu : w.unitOf target = some u)
    (h : t.StopsAt u skill_id (u.getBaseSkillLevel skill_id + 1) i e)
    (hr : t.verdict u skill_id (u.getBaseSkillLevel skill_id + 1) e = some r) :
    w.onLearnSkill t target skill_id =
      if r = .SUCCESS then
        (t.registerSkill u skill_id (u.getBaseSkillLevel skill_id + 1) (u.getPrevJobId i)).map fun u' =>
          ⟨r, List.range i ++ [i], w.setUnit target u'⟩
      else some ⟨r, List.range i ++ [i], w⟩ := by
  unfold LearnWorld.onLearnSkill
  rw [hu]
  dsimp only
  rw [h.isLearnableSkill, hr]
  dsimp only [Option.map_some]
  split_ifs <;> rfl

theorem StopsAt.read (h : t.StopsAt u skill_id skill_level i e) : ∀ k ∈ List.range i ++ [i], k < 3 := by
  intro k hk
  have hi := h.1
  rw [← List.range_succ, List.mem_range] at hk
  omega

/-- A request that no previous job decides reads the fourth depth. -/
theorem three_mem_of_answer (hu : w.unitOf target = some u)
    (hstop : ¬∃ i e, t.StopsAt u skill_id (u.getBaseSkillLevel skill_id + 1) i e) {a : LearnAnswer}
    (ha : w.onLearnSkill t target skill_id = some a) : 3 ∈ a.read := by
  unfold LearnWorld.onLearnSkill at ha
  rw [hu] at ha
  dsimp only at ha
  cases hs : t.IsLearnableSkill u skill_id (u.getBaseSkillLevel skill_id + 1) with
  | none =>
    rw [hs] at ha
    cases ha
  | some s =>
    have h3 := three_mem_read hstop hs
    rw [hs] at ha
    dsimp only at ha
    split_ifs at ha with hr
    · obtain ⟨u', -, rfl⟩ := Option.map_eq_some_iff.mp ha
      exact h3
    · obtain rfl := Option.some.inj ha
      exact h3

/-- When the row of a job lets the unit learn, the answer is right where the price is. -/
theorem learnsRight_iff_asksRight (hu : w.unitOf target = some u)
    (h : t.StopsAt u skill_id (u.getBaseSkillLevel skill_id + 1) i e) (hsb : t.skillBase skill_id = some sb) (hid : sb.id ≠ 0)
    (hr : t.verdict u skill_id (u.getBaseSkillLevel skill_id + 1) e = some .SUCCESS) :
    (∃ a, w.onLearnSkill t target skill_id = some a ∧ t.LearnsRight skill_id w target a) ↔
      t.AsksRight u skill_id (u.getBaseSkillLevel skill_id + 1) sb
        (if u.getPrevJobId i = 0 then u.getCurrentJob else u.getPrevJobId i) := by
  rw [onLearnSkill_of_stops hu h hr, if_pos rfl, registerSkill_eq hsb hid]
  unfold AsksRight
  generalize t.asked skill_id (u.getBaseSkillLevel skill_id + 1) sb
    (if u.getPrevJobId i = 0 then u.getCurrentJob else u.getPrevJobId i) = n
  dsimp only
  by_cases hn : n > u.getJP
  · -- the registration refuses after the answer has been found
    rw [if_pos hn]
    refine iff_of_false ?_ fun h => by have := h.1; omega
    rintro ⟨a, ha, hright⟩
    obtain rfl := Option.some.inj ha
    obtain ⟨u', hu', hiff⟩ := hright.success u hu
    have hlevel := hiff.mp rfl
    rw [unitOf_setUnit] at hu'
    obtain rfl := Option.some.inj hu'
    omega
  · rw [if_neg hn]
    constructor
    · rintro ⟨a, ha, hright⟩
      obtain rfl := Option.some.inj ha
      obtain ⟨u₀, u', hu₀, hu', hpriced⟩ := hright.priced rfl
      rw [hu] at hu₀
      rw [unitOf_setUnit] at hu'
      obtain rfl := Option.some.inj hu₀
      obtain rfl := Option.some.inj hu'
      exact ⟨by omega, hpriced⟩
    · rintro ⟨-, hpriced⟩
      refine ⟨_, rfl, h.read, fun u₀ hu₀ => ⟨_, unitOf_setUnit, iff_of_true rfl ?_⟩,
        fun _ => ⟨u, _, hu, unitOf_setUnit, hpriced⟩, fun h => absurd rfl h⟩
      rw [hu] at hu₀
      obtain rfl := Option.some.inj hu₀
      exact getBaseSkillLevel_setSkill _

/-- When a previous job decides, the answer is right unless the row lets the unit learn at another price. -/
theorem learnsRight_iff_of_stops (hu : w.unitOf target = some u)
    (h : t.StopsAt u skill_id (u.getBaseSkillLevel skill_id + 1) i e) :
    (∃ a, w.onLearnSkill t target skill_id = some a ∧ t.LearnsRight skill_id w target a) ↔
      (Met u e → ∃ sb, t.skillBase skill_id = some sb ∧
        (t.cost (u.getBaseSkillLevel skill_id + 1) sb e ≤ u.getJP →
          t.AsksRight u skill_id (u.getBaseSkillLevel skill_id + 1) sb
            (if u.getPrevJobId i = 0 then u.getCurrentJob else u.getPrevJobId i))) := by
  have hrefused : ∀ r, t.verdict u skill_id (u.getBaseSkillLevel skill_id + 1) e = some r → r ≠ .SUCCESS →
      ∃ a, w.onLearnSkill t target skill_id = some a ∧ t.LearnsRight skill_id w target a := by
    intro r hr hne
    refine ⟨⟨r, List.range i ++ [i], w⟩, ?_, learnsRight_refused hne h.read⟩
    rw [onLearnSkill_of_stops hu h hr, if_neg hne]
  by_cases hmet : Met u e
  · have hverdict : t.verdict u skill_id (u.getBaseSkillLevel skill_id + 1) e = _ := verdict_of_met hmet
    cases hsb : t.skillBase skill_id with
    | none =>
      -- the lookup of the skill ends the process
      refine iff_of_false ?_ fun hsome => by simpa using hsome hmet
      rintro ⟨a, ha, -⟩
      rw [hsb] at hverdict
      unfold LearnWorld.onLearnSkill at ha
      rw [hu] at ha
      dsimp only at ha
      rw [h.isLearnableSkill, hverdict] at ha
      cases ha
    | some sb =>
      have hid : sb.id ≠ 0 := fun hid => h.2.2.2.2 ⟨hmet, sb, hsb, hid⟩
      rw [hsb] at hverdict
      dsimp only at hverdict
      rw [if_neg hid] at hverdict
      by_cases hcost : u.getJP < t.cost (u.getBaseSkillLevel skill_id + 1) sb e
      · rw [if_pos hcost] at hverdict
        exact iff_of_true (hrefused _ hverdict nofun) fun _ => ⟨sb, rfl, fun hle => by omega⟩
      · rw [if_neg hcost] at hverdict
        rw [learnsRight_iff_asksRight hu h hsb hid hverdict]
        refine ⟨fun hask _ => ⟨sb, rfl, fun _ => hask⟩, fun hask => ?_⟩
        obtain ⟨sb', hsb', hask⟩ := hask hmet
        obtain rfl := Option.some.inj hsb'
        exact hask (by omega)
  · obtain ⟨r, hr, -, hne⟩ := verdict_of_unmet hmet
    exact iff_of_true (hrefused r hr hne) fun h => absurd h hmet

/-- Where a job has one row for the level, it is the row that decides and the one that is paid for. -/
theorem asked_of_unique (he : e ∈ t.getSkillTree job) (hreach : Reaches skill_id skill_level e)
    (honly : ∀ e' ∈ t.rows, e'.job_id = job → Reaches skill_id skill_level e' → e' = e) (h50 : skill_level ≤ 50)
    (hratio : t.arith.isMinusOne e.jp_ratio = false) : t.asked skill_id skill_level sb job = t.cost skill_level sb e := by
  unfold asked cost
  rw [if_pos ⟨h50, List.ne_nil_of_mem he⟩]
  have hmem : e ∈ (t.getSkillTree job).filter fun e => Reaches skill_id skill_level e :=
    List.mem_filter.mpr ⟨he, decide_eq_true hreach⟩
  cases hlast : ((t.getSkillTree job).filter fun e => Reaches skill_id skill_level e).getLast? with
  | none => exact absurd (List.getLast?_eq_none_iff.mp hlast) (List.ne_nil_of_mem hmem)
  | some e' =>
    obtain ⟨htree, hreach'⟩ := List.mem_filter.mp (List.mem_of_getLast? hlast)
    obtain ⟨hrows, hjob⟩ := mem_getSkillTree.mp htree
    obtain rfl := honly e' hrows hjob (of_decide_eq_true hreach')
    dsimp only
    rw [if_neg (by rw [hratio]; exact Bool.false_ne_true)]

/-- So the price is right for a unit that has no level to rise when it pays. -/
theorem asksRight_of_unique (hsb : t.skillBase skill_id = some sb) (hjob : HasJob u job jlv) (he : e ∈ t.getSkillTree job)
    (hpermits : Permits u skill_id skill_level jlv e)
    (honly : ∀ e' ∈ t.rows, e'.job_id = job → Reaches skill_id skill_level e' → e' = e) (h50 : skill_level ≤ 50)
    (hratio : t.arith.isMinusOne e.jp_ratio = false) (hcost : t.cost skill_level sb e ≤ u.getJP)
    (hpay : (t.pay u (t.cost skill_level sb e)).getJP = u.getJP - t.cost skill_level sb e) :
    t.AsksRight u skill_id skill_level sb job := by
  unfold AsksRight
  rw [asked_of_unique he ⟨hpermits.skill, hpermits.range.2⟩ honly h50 hratio]
  obtain ⟨hrows, hid⟩ := mem_getSkillTree.mp he
  exact ⟨hcost, sb, hsb, job, jlv, hjob, e, hrows, hid, hpermits, hpay⟩

/-- The skill 7, which costs 10 job points. -/
def skill7 : SkillBase := ⟨7, fun _ => 10⟩

/-- A row of the job 100 for the skill 7 without prerequisites, with its greatest level, its job level and its ratio. -/
def row7 (max_skill_lv job_lv jp_ratio : Int) : SkillTreeBase Int :=
  ⟨100, 7, 1, max_skill_lv, 1, job_lv, jp_ratio, fun _ => 0, fun _ => 0⟩

/-- Ratios that are integers, and the two rows of the job 100. -/
def tables7 (ratio : Int) : SkillTables Int where
  arith := ⟨fun r => r == -1, 1, fun n r => n * r⟩
  rows := [row7 3 10 1, row7 6 30 ratio]
  skillBase := fun id => if id = 7 then some skill7 else none
  levels := .ofTable [100, 200, 300]
  summonLevels := .ofTable []
  on_player_level_up := id

/-- A player of the level 1 with 100 job points, who had the job 100 up to the level 10. -/
def player7 : LearnWorld where
  handle := 1
  player := {
    kind := .player
    exp := 0
    fields := fun i => if i = UNIT_FIELD_LEVEL then 1 else if i = UNIT_FIELD_JOBPOINT then 100
      else if i = UNIT_FIELD_PREV_JOB then 100 else if i = UNIT_FIELD_PREV_JLV then 10 else 0
    m_vSkillList := [] }
  summons := fun _ => none

theorem player7_job {job jlv : Int} (h : HasJob player7.player job jlv) : job = 100 ∧ jlv = 10 ∨ job = 0 := by
  rcases h with ⟨i, hi, hlv, rfl, rfl⟩ | ⟨rfl, -⟩
  · revert i
    decide
  · exact .inr (by decide)

end

end SkillTables

end RZEmulator.Chihiro
