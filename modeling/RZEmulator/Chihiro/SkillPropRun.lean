import RZEmulator.Chihiro.SkillPropStep

/-!
# Runs of skill props

What a run of updates, replacements and removals makes of each prop, `skillProp_lifecycle`. A prop whose update comes
after its end, or that is to be removed, does not fire any more, but the handle of its caster keeps it until that
update. The sum of the last firing and the interval is a `uint32_t`, so that an interval must not bring it over the end
of that type.
-/

namespace RZEmulator.Chihiro

open Lib

namespace SkillProps

/-! ## What is claimed -/

variable {ι : Type}

section Claims

variable (fl : ℚ → ℚ)

/-- How often the prop has done damage. -/
def damages (hist : PropHistory ι) (h : Nat) : Nat := hist.countP fun tr => done fl tr h = .fired true

/-- The first damage of a multiple trap. -/
def Triggers (tr : Transition (SkillProps ι) (SkillPropEvent ι)) (h : Nat) : Prop :=
  done fl tr h = .fired true ∧ ∃ p, tr.before.prop h = some p ∧ p.m_bFired = false

/-- The steps of a run, the latest first. -/
structure Lifecycle (hist : PropHistory ι) (s : SkillProps ι) : Prop where
  spaced : ∀ h, hist.Pairwise fun tr tr' => ∀ d d' p, done fl tr h = .fired d → done fl tr' h = .fired d' →
    tr.before.prop h = some p → tr'.event.time + p.m_nInterval ≤ tr.event.time
  in_time : ∀ tr ∈ hist, ∀ h d p, done fl tr h = .fired d → tr.before.prop h = some p →
    tr.event.time ≤ p.m_nEndTime
  single : ∀ h p, s.prop h = some p → p.m_pSkill.effect.isSingle = true →
    hist.Pairwise fun tr tr' => ¬(done fl tr h = .fired true ∧ done fl tr' h = .fired true)
  /-- The fire duration is that from the trigger to the end that it sets. -/
  multiple : ∀ h p, s.prop h = some p → p.m_pSkill.effect.isMultiple = true →
    (damages fl hist h ≠ 0 → ∃ tr ∈ hist, Triggers fl tr h) ∧
      ∀ tr ∈ hist, Triggers fl tr h → 0 < p.m_pSkill.fireInterval fl →
        damages fl hist h ≤
          (p.m_pSkill.fireEndTime fl tr.event.time - tr.event.time) / p.m_pSkill.fireInterval fl + 1
  /-- After the removal nothing happens, neither a firing nor another removal. -/
  final : ∀ h, hist.Pairwise fun tr tr' => done fl tr' h = .removed → done fl tr h = .idle
  removed : ∀ h p, s.prop h = some p → ((∃ tr ∈ hist, done fl tr h = .removed) ↔ p.m_bProcessEnded = true)
  /-- The update that removes the prop. -/
  due : ∀ h p ct enemy, s.prop h = some p → p.m_bProcessEnded = false →
    p.m_nEndTime < ct ∨ p.m_bIsRemovePended = true →
      (p.update fl h (s.trapHandle p.m_hCaster) ct enemy).1 = .removed
  traps : TrapsKept s

/-- The next firing time of a multiple trap that has been triggered does not pass the end of `uint32_t`. -/
def InRange (s : SkillProps ι) : SkillPropEvent ι → Prop
  | .update h _ _ => ∀ p, s.prop h = some p → p.m_pSkill.effect.isMultiple = true → p.m_bFired = true →
    p.m_nLastFireTime + p.m_nInterval < 2 ^ 32
  | _ => True

end Claims

/-! ## What a history says about one prop -/

/-- A multiple trap that has been triggered at `t` and has done damage `n` times. -/
structure Triggered (fl : ℚ → ℚ) (p : SkillProp ι) (t n : Nat) : Prop where
  fired : p.m_bFired = true
  endTime : p.m_nEndTime = p.m_pSkill.fireEndTime fl t
  interval : p.m_nInterval = p.m_pSkill.fireInterval fl
  count : n ≠ 0
  spaced : t + (n - 1) * p.m_nInterval ≤ p.m_nLastFireTime
  within : n = 1 ∨ p.m_nLastFireTime ≤ p.m_nEndTime

theorem Triggered.first {fl : ℚ → ℚ} (p : SkillProp ι) (ct : Nat) :
    Triggered fl ((p.tick ct).trigger fl ct) ct (0 + 1) where
  fired := rfl
  endTime := rfl
  interval := rfl
  count := nofun
  spaced := by
    rw [Nat.zero_add, Nat.sub_self, Nat.zero_mul]
    exact Nat.le_refl ct
  within := Or.inl rfl

theorem Triggered.next {fl : ℚ → ℚ} {p : SkillProp ι} {t n ct : Nat} (h : Triggered fl p t n)
    (hwait : p.m_nLastFireTime + p.m_nInterval ≤ ct) (hct : ct ≤ p.m_nEndTime) :
    Triggered fl (p.tick ct) t (n + 1) where
  fired := h.fired
  endTime := h.endTime
  interval := h.interval
  count := Nat.succ_ne_zero n
  spaced := by
    obtain ⟨m, rfl⟩ := Nat.exists_eq_succ_of_ne_zero h.count
    have hspaced : t + m * p.m_nInterval ≤ p.m_nLastFireTime := h.spaced
    calc t + (m + 1) * p.m_nInterval = t + m * p.m_nInterval + p.m_nInterval := by rw [Nat.succ_mul, Nat.add_assoc]
      _ ≤ p.m_nLastFireTime + p.m_nInterval := Nat.add_le_add_right hspaced _
      _ ≤ ct := hwait
  within := Or.inr hct

/-- The number of firings. -/
theorem Triggered.le {fl : ℚ → ℚ} {p : SkillProp ι} {t n : Nat} (h : Triggered fl p t n)
    (hpos : 0 < p.m_pSkill.fireInterval fl) :
    n ≤ (p.m_pSkill.fireEndTime fl t - t) / p.m_pSkill.fireInterval fl + 1 := by
  have hmul : (n - 1) * p.m_pSkill.fireInterval fl ≤ p.m_pSkill.fireEndTime fl t - t := by
    rcases h.within with rfl | hlast
    · rw [Nat.sub_self, Nat.zero_mul]
      exact Nat.zero_le _
    · have hspaced := h.spaced
      rw [h.interval] at hspaced
      rw [h.endTime] at hlast
      omega
  have hdiv := (Nat.le_div_iff_mul_le hpos).mpr hmul
  omega

/-- What the steps so far have made of a prop. -/
structure Logged (fl : ℚ → ℚ) (hist : PropHistory ι) (h clock : Nat) (p : SkillProp ι) : Prop where
  fired_le : ∀ tr ∈ hist, ∀ d, done fl tr h = .fired d → tr.event.time ≤ p.m_nLastFireTime
  last_le : p.m_nLastFireTime ≤ clock
  /-- Nothing has fired before its interval was over. -/
  range : p.m_bProcessEnded = false → (p.m_pSkill.effect.isMultiple = true → p.m_bFired = false) →
    p.m_nLastFireTime + p.m_nInterval < 2 ^ 32
  interval : p.m_pSkill.effect.isSingle = true → p.m_nInterval = 30
  single : p.m_pSkill.effect.isSingle = true →
    ∀ tr ∈ hist, done fl tr h = .fired true → p.m_nEndTime ≤ p.m_nLastFireTime
  removed : (∃ tr ∈ hist, done fl tr h = .removed) ↔ p.m_bProcessEnded = true
  unfired : p.m_pSkill.effect.isMultiple = true → p.m_bFired = false → damages fl hist h = 0
  fired : p.m_pSkill.effect.isMultiple = true → p.m_bFired = true → ∃ tr ∈ hist, Triggers fl tr h
  triggered : p.m_pSkill.effect.isMultiple = true →
    ∀ tr ∈ hist, Triggers fl tr h → Triggered fl p tr.event.time (damages fl hist h)

variable {fl : ℚ → ℚ} {hist : PropHistory ι} {h clock clock' : Nat} {p : SkillProp ι}
  {tr : Transition (SkillProps ι) (SkillPropEvent ι)}

theorem damages_cons_of_not (hnot : done fl tr h ≠ .fired true) : damages fl (tr :: hist) h = damages fl hist h :=
  List.countP_cons_of_neg (by simpa using hnot)

theorem damages_cons_of_fired (hfired : done fl tr h = .fired true) :
    damages fl (tr :: hist) h = damages fl hist h + 1 :=
  List.countP_cons_of_pos (by simpa using hfired)

/-- A new prop, of which nothing has been heard. -/
theorem Logged.create (hidle : ∀ tr ∈ hist, done fl tr h = .idle) (c : ι) (k : TimedSkill) (ct : Nat) :
    Logged fl hist h clock (SkillProp.create fl c k ct) := by
  have hnone : damages fl hist h = 0 := by
    refine List.countP_eq_zero.mpr fun tr htr => ?_
    rw [hidle tr htr]
    decide
  obtain ⟨e, i, heq, hi, hrange⟩ := SkillProp.create_eq fl c k ct
  rw [heq]
  constructor
  case fired_le =>
    intro tr htr d hd
    rw [hidle tr htr] at hd
    cases hd
  case last_le => exact Nat.zero_le _
  case range => exact fun _ _ => (Nat.zero_add i).trans_lt hrange
  case interval => exact hi
  case single =>
    intro _ tr htr hd
    rw [hidle tr htr] at hd
    cases hd
  case removed =>
    refine ⟨fun ⟨tr, htr, hd⟩ => ?_, nofun⟩
    rw [hidle tr htr] at hd
    cases hd
  case unfired => exact fun _ _ => hnone
  case fired => exact fun _ => nofun
  case triggered =>
    intro _ tr htr hd
    rw [Triggers, hidle tr htr] at hd
    cases hd.1

/-- A step in which the prop does not fire. -/
theorem Logged.of_not_fired (hp : Logged fl hist h clock p) (hnot : ∀ d, done fl tr h ≠ .fired d) {l : Nat}
    {e b : Bool} (hlast : p.m_nLastFireTime ≤ l) (hclock : l ≤ clock')
    (hwithin : l = p.m_nLastFireTime ∨ e = true ∧ l ≤ p.m_nEndTime)
    (hended : e = true ↔ p.m_bProcessEnded = true ∨ done fl tr h = .removed) :
    Logged fl (tr :: hist) h clock'
      { p with m_nLastFireTime := l, m_bProcessEnded := e, m_bIsRemovePended := b } := by
  have hcount : damages fl (tr :: hist) h = damages fl hist h := damages_cons_of_not (hnot true)
  constructor
  case fired_le =>
    intro tr' htr' d hd
    rcases List.mem_cons.mp htr' with rfl | htr'
    · exact absurd hd (hnot d)
    · exact (hp.fired_le tr' htr' d hd).trans hlast
  case last_le => exact hclock
  case range =>
    intro he huntriggered
    rcases hwithin with rfl | ⟨he', -⟩
    · exact hp.range (Bool.eq_false_of_not_eq_true fun h => absurd ((hended.mpr (Or.inl h)).symm.trans he) nofun)
        huntriggered
    · exact absurd (he'.symm.trans he) nofun
  case interval => exact hp.interval
  case single =>
    intro hsingle tr' htr' hd
    rcases List.mem_cons.mp htr' with rfl | htr'
    · exact absurd hd (hnot true)
    · exact (hp.single hsingle tr' htr' hd).trans hlast
  case removed =>
    refine Iff.trans ?_ hended.symm
    rw [← hp.removed]
    constructor
    · rintro ⟨tr', htr', hd⟩
      rcases List.mem_cons.mp htr' with rfl | htr'
      · exact Or.inr hd
      · exact Or.inl ⟨tr', htr', hd⟩
    · rintro (⟨tr', htr', hd⟩ | hd)
      · exact ⟨tr', List.mem_cons_of_mem tr htr', hd⟩
      · exact ⟨tr, List.mem_cons_self, hd⟩
  case unfired => exact fun hmultiple hfired => hcount.trans (hp.unfired hmultiple hfired)
  case fired =>
    intro hmultiple hfired
    obtain ⟨tr', htr', htrig⟩ := hp.fired hmultiple hfired
    exact ⟨tr', List.mem_cons_of_mem tr htr', htrig⟩
  case triggered =>
    intro hmultiple tr' htr' htrig
    rcases List.mem_cons.mp htr' with rfl | htr'
    · exact absurd htrig.1 (hnot true)
    · rw [hcount]
      have hbefore := hp.triggered hmultiple tr' htr' htrig
      refine ⟨hbefore.fired, hbefore.endTime, hbefore.interval, hbefore.count, hbefore.spaced.trans hlast, ?_⟩
      rcases hwithin with rfl | hl
      · exact hbefore.within
      · exact Or.inr hl.2

variable {ct : Nat} {enemy : Bool}

/-- After its damage a single trap has no time left. -/
theorem Logged.single_of_fired (hp : Logged fl hist h clock p) (hsingle : p.m_pSkill.effect.isSingle = true)
    (hct : ct ≤ p.m_nEndTime) (hwait : p.m_nLastFireTime + p.m_nInterval ≤ ct)
    (hdone : done fl tr h = .fired ((p.tick ct).fire fl ct enemy).1) :
    ((p.tick ct).fire fl ct enemy).2.m_nInterval = 30 ∧ ∀ tr' ∈ tr :: hist, done fl tr' h = .fired true →
      ((p.tick ct).fire fl ct enemy).2.m_nEndTime ≤ ((p.tick ct).fire fl ct enemy).2.m_nLastFireTime := by
  have h30 := hp.interval hsingle
  have hnone : ∀ tr' ∈ hist, done fl tr' h ≠ .fired true := by
    intro tr' htr' hd
    have hover := hp.single hsingle tr' htr' hd
    omega
  rcases SkillProp.fire_single_cases (p := p.tick ct) hsingle ct enemy with hfire | hfire
  · rw [hfire] at hdone ⊢
    refine ⟨h30, fun tr' htr' hd => ?_⟩
    rcases List.mem_cons.mp htr' with rfl | htr'
    · exact absurd (hdone.symm.trans hd) nofun
    · exact absurd hd (hnone tr' htr')
  · rw [hfire]
    exact ⟨h30, fun _ _ _ => Nat.le_refl ct⟩

theorem Logged.multiple_of_fired (hp : Logged fl hist h clock p) (hmultiple : p.m_pSkill.effect.isMultiple = true)
    (hbefore : tr.before.prop h = some p) (htime : tr.event.time = ct) (hct : ct ≤ p.m_nEndTime)
    (hwait : p.m_nLastFireTime + p.m_nInterval ≤ ct)
    (hdone : done fl tr h = .fired ((p.tick ct).fire fl ct enemy).1) :
    (((p.tick ct).fire fl ct enemy).2.m_bFired = false → damages fl (tr :: hist) h = 0) ∧
      (((p.tick ct).fire fl ct enemy).2.m_bFired = true → ∃ tr' ∈ tr :: hist, Triggers fl tr' h) ∧
      ∀ tr' ∈ tr :: hist, Triggers fl tr' h →
        Triggered fl ((p.tick ct).fire fl ct enemy).2 tr'.event.time (damages fl (tr :: hist) h) := by
  rcases SkillProp.fire_multiple_cases (p := p.tick ct) hmultiple ct enemy with
    ⟨hfirst, hfire⟩ | ⟨hfirst, hfire | hfire⟩
  · -- It has been triggered before.
    rw [hfire] at hdone ⊢
    refine ⟨fun hunfired => absurd (hfirst.symm.trans hunfired) nofun, fun _ => ?_, fun tr' htr' htrig => ?_⟩
    · obtain ⟨tr', htr', htrig⟩ := hp.fired hmultiple hfirst
      exact ⟨tr', List.mem_cons_of_mem tr htr', htrig⟩
    · rw [damages_cons_of_fired hdone]
      rcases List.mem_cons.mp htr' with rfl | htr'
      · obtain ⟨-, q, hq, hunfired⟩ := htrig
        cases hbefore.symm.trans hq
        exact absurd (hfirst.symm.trans hunfired) nofun
      · exact (hp.triggered hmultiple tr' htr' htrig).next hwait hct
  · -- No enemy has come.
    rw [hfire] at hdone ⊢
    refine ⟨fun _ => ?_, fun hfired => absurd (hfirst.symm.trans hfired) nofun, fun tr' htr' htrig => ?_⟩
    · rw [damages_cons_of_not (by rw [hdone]; nofun)]
      exact hp.unfired hmultiple hfirst
    · rcases List.mem_cons.mp htr' with rfl | htr'
      · exact absurd (hdone.symm.trans htrig.1) nofun
      · exact absurd (hfirst.symm.trans (hp.triggered hmultiple tr' htr' htrig).fired) nofun
  · -- It is triggered.
    rw [hfire] at hdone ⊢
    refine ⟨nofun, fun _ => ⟨tr, List.mem_cons_self, hdone, p, hbefore, hfirst⟩, fun tr' htr' htrig => ?_⟩
    rcases List.mem_cons.mp htr' with rfl | htr'
    · rw [damages_cons_of_fired hdone, hp.unfired hmultiple hfirst, htime]
      exact .first p ct
    · exact absurd (hfirst.symm.trans (hp.triggered hmultiple tr' htr' htrig).fired) nofun

/-- A step in which it fires. -/
theorem Logged.of_fired (hp : Logged fl hist h clock p) (hclock : clock ≤ ct) (hmax : ct ≤ arTimeMax)
    (hbefore : tr.before.prop h = some p) (htime : tr.event.time = ct) (hcan : p.CanFire) (hct : ct ≤ p.m_nEndTime)
    (hwait : p.m_nLastFireTime + p.m_nInterval ≤ ct)
    (hdone : done fl tr h = .fired ((p.tick ct).fire fl ct enemy).1) :
    Logged fl (tr :: hist) h ct ((p.tick ct).fire fl ct enemy).2 := by
  have hlast : p.m_nLastFireTime ≤ ct := hp.last_le.trans hclock
  obtain ⟨-, hskill, hlastSame, hendedSame, -⟩ := SkillProp.fire_same fl (p.tick ct) ct enemy
  have hskill' : ((p.tick ct).fire fl ct enemy).2.m_pSkill = p.m_pSkill := hskill
  have hsingle := fun hsingle => hp.single_of_fired hsingle hct hwait hdone
  have hmultiple := fun hmultiple => hp.multiple_of_fired hmultiple hbefore htime hct hwait hdone
  rw [← hskill'] at hsingle hmultiple
  constructor
  case fired_le =>
    intro tr' htr' d hd
    rw [hlastSame]
    rcases List.mem_cons.mp htr' with rfl | htr'
    · exact htime.le
    · exact (hp.fired_le tr' htr' d hd).trans hlast
  case last_le => exact hlastSame.le
  case range =>
    intro _ huntriggered
    rw [hlastSame]
    rcases SkillProp.fire_interval fl (p.tick ct) ct enemy with hsame | ⟨htype, hfired⟩
    · rw [hsame]
      change ct + p.m_nInterval < 2 ^ 32
      unfold arTimeMax at hmax
      omega
    · exact absurd ((huntriggered (hskill.symm ▸ htype)).symm.trans hfired) nofun
  case interval => exact fun htype => (hsingle htype).1
  case single => exact fun htype => (hsingle htype).2
  case removed =>
    rw [hendedSame]
    constructor
    · rintro ⟨tr', htr', hd⟩
      rcases List.mem_cons.mp htr' with rfl | htr'
      · rw [hdone] at hd
        cases hd
      · exact hp.removed.mp ⟨tr', htr', hd⟩
    · exact fun hended => absurd (hcan.1.symm.trans hended) nofun
  case unfired => exact fun htype => (hmultiple htype).1
  case fired => exact fun htype => (hmultiple htype).2.1
  case triggered => exact fun htype => (hmultiple htype).2.2

variable {s t : SkillProps ι} {e : SkillPropEvent ι}

/-- The sum of a prop that can fire is in range. -/
theorem Logged.sum_eq (hlogged : Logged fl hist h clock p) (hp : s.prop h = some p)
    (hrange : s.InRange (.update h ct enemy)) (hcan : p.CanFire) :
    (p.m_nLastFireTime + p.m_nInterval) % 2 ^ 32 = p.m_nLastFireTime + p.m_nInterval := by
  refine Nat.mod_eq_of_lt ?_
  by_cases htriggered : p.m_pSkill.effect.isMultiple = true ∧ p.m_bFired = true
  · exact hrange p hp htriggered.1 htriggered.2
  · exact hlogged.range hcan.1 fun hmultiple => Bool.eq_false_of_not_eq_true fun h => htriggered ⟨hmultiple, h⟩

variable [DecidableEq ι]

theorem Logged.step (hs : s.handle fl e = some t) (hrange : s.InRange e)
    (hlogged : ∀ p, s.prop h = some p → Logged fl hist h s.clock p)
    (habsent : s.prop h = none → ∀ tr ∈ hist, done fl tr h = .idle) {p' : SkillProp ι}
    (hp' : t.prop h = some p') : Logged fl (⟨s, e, t⟩ :: hist) h t.clock p' := by
  obtain ⟨hmono, hprops⟩ := handle_spec hs
  cases hprops h with
  | absent _ hnone => cases hnone.symm.trans hp'
  | kept p b hp ht _ hidle =>
    cases ht.symm.trans hp'
    have hp := hlogged p hp
    refine hp.of_not_fired (by rw [hidle]; nofun) (Nat.le_refl _) (hp.last_le.trans hmono) (Or.inl rfl) ?_
    rw [hidle]
    exact ⟨Or.inl, fun h => h.resolve_right nofun⟩
  | created c k ct hp ht =>
    cases ht.symm.trans hp'
    exact .create (List.forall_mem_cons.mpr ⟨done_of_absent hp, habsent hp⟩) c k ct
  | updated p ct enemy he hp ht hclock hmax hct =>
    subst he
    have hdone : done fl ⟨s, .update h ct enemy, t⟩ h = _ := done_update hp
    have hlast := (hlogged p hp).last_le
    have hup := SkillProp.updated_update fl p h (s.trapHandle p.m_hCaster) ct enemy
    generalize p.update fl h (s.trapHandle p.m_hCaster) ct enemy = out at hup hdone ht
    cases ht.symm.trans hp'
    rw [hct]
    cases hup with
    | idle =>
      refine (hlogged p hp).of_not_fired (by rw [hdone]; nofun) (Nat.le_refl _) (hlast.trans hclock) (Or.inl rfl) ?_
      rw [hdone]
      exact ⟨Or.inl, fun h => h.resolve_right nofun⟩
    | removed l _ hl =>
      have hle : p.m_nLastFireTime ≤ l ∧ l ≤ ct := by omega
      refine (hlogged p hp).of_not_fired (by rw [hdone]; nofun) hle.1 hle.2 ?_ ⟨fun _ => Or.inr hdone, fun _ => rfl⟩
      exact hl.imp id fun h => ⟨rfl, h.1.trans_le h.2⟩
    | fired trap _ hcan hend hwait =>
      rw [(hlogged p hp).sum_eq hp hrange hcan] at hwait
      exact (hlogged p hp).of_fired hclock hmax hp rfl hcan hend hwait hdone

/-! ## Runs -/

/-- What a run keeps. -/
structure Kept (fl : ℚ → ℚ) (hist : PropHistory ι) (s : SkillProps ι) : Prop where
  logged : ∀ h p, s.prop h = some p → Logged fl hist h s.clock p
  absent : ∀ h, s.prop h = none → ∀ tr ∈ hist, done fl tr h = .idle
  traps : TrapsKept s
  spaced : ∀ h, hist.Pairwise fun tr tr' => ∀ d d' p, done fl tr h = .fired d → done fl tr' h = .fired d' →
    tr.before.prop h = some p → tr'.event.time + p.m_nInterval ≤ tr.event.time
  in_time : ∀ tr ∈ hist, ∀ h d p, done fl tr h = .fired d → tr.before.prop h = some p →
    tr.event.time ≤ p.m_nEndTime
  single : ∀ h p, s.prop h = some p → p.m_pSkill.effect.isSingle = true →
    hist.Pairwise fun tr tr' => ¬(done fl tr h = .fired true ∧ done fl tr' h = .fired true)
  final : ∀ h, hist.Pairwise fun tr tr' => done fl tr' h = .removed → done fl tr h = .idle

/-- What a prop is stays. -/
theorem skill_of_handle (hs : s.handle fl e = some t) {p' : SkillProp ι} (hp' : t.prop h = some p') :
    s.prop h = none ∨ ∃ p, s.prop h = some p ∧ p'.m_pSkill = p.m_pSkill := by
  cases (handle_spec hs).2 h with
  | absent _ ht => cases ht.symm.trans hp'
  | kept p b hp ht =>
    cases ht.symm.trans hp'
    exact Or.inr ⟨p, hp, rfl⟩
  | created _ _ _ hp => exact Or.inl hp
  | updated p ct enemy _ hp ht =>
    have hup := SkillProp.updated_update fl p h (s.trapHandle p.m_hCaster) ct enemy
    generalize p.update fl h (s.trapHandle p.m_hCaster) ct enemy = out at hup ht
    cases ht.symm.trans hp'
    refine Or.inr ⟨p, hp, ?_⟩
    cases hup with
    | idle => rfl
    | removed => rfl
    | fired => exact (SkillProp.fire_same fl (p.tick ct) ct enemy).2.1

theorem prop_of_handle_none (hs : s.handle fl e = some t) (ht : t.prop h = none) : s.prop h = none := by
  cases (handle_spec hs).2 h with
  | absent hp => exact hp
  | kept _ _ _ hp => cases hp.symm.trans ht
  | created _ _ _ hp => exact hp
  | updated _ _ _ _ _ hp => cases hp.symm.trans ht

theorem Kept.step (hk : Kept fl hist s) (hrange : s.InRange e) (hs : s.handle fl e = some t) :
    Kept fl (⟨s, e, t⟩ :: hist) t := by
  constructor
  case logged => exact fun h p' hp' => Logged.step hs hrange (hk.logged h) (hk.absent h) hp'
  case absent =>
    intro h hnone
    have hbefore := prop_of_handle_none hs hnone
    exact List.forall_mem_cons.mpr ⟨done_of_absent hbefore, hk.absent h hbefore⟩
  case traps => exact hk.traps.step hs
  case spaced =>
    refine fun h => List.pairwise_cons.mpr ⟨fun tr' htr' d d' p hd hd' hp => ?_, hk.spaced h⟩
    obtain ⟨q, ct, enemy, rfl, hq, -, hcan, -, hwait⟩ := fired_spec hs hd
    cases hp.symm.trans hq
    have hlogged := hk.logged h p hp
    rw [hlogged.sum_eq hp hrange hcan] at hwait
    exact (Nat.add_le_add_right (hlogged.fired_le tr' htr' d' hd') _).trans hwait
  case in_time =>
    refine List.forall_mem_cons.mpr ⟨fun h d p hd hp => ?_, hk.in_time⟩
    obtain ⟨q, ct, enemy, rfl, hq, -, -, hend, -⟩ := fired_spec hs hd
    cases hp.symm.trans hq
    exact hend
  case single =>
    intro h p' hp' hsingle
    rcases skill_of_handle hs hp' with hnone | ⟨p, hp, hskill⟩
    · have hidle : ∀ tr ∈ (⟨s, e, t⟩ : Transition _ _) :: hist, done fl tr h = .idle :=
        List.forall_mem_cons.mpr ⟨done_of_absent hnone, hk.absent h hnone⟩
      exact List.pairwise_of_forall_mem_list fun tr htr _ _ hd => absurd ((hidle tr htr).symm.trans hd.1) nofun
    · rw [hskill] at hsingle
      refine List.pairwise_cons.mpr ⟨fun tr' htr' hd => ?_, hk.single h p hp hsingle⟩
      obtain ⟨q, ct, enemy, rfl, hq, -, hcan, hend, hwait⟩ := fired_spec hs hd.1
      cases hp.symm.trans hq
      have hlogged := hk.logged h p hp
      rw [hlogged.sum_eq hp hrange hcan] at hwait
      have hover := hlogged.single hsingle tr' htr' hd.2
      have h30 := hlogged.interval hsingle
      omega
  case final =>
    refine fun h => List.pairwise_cons.mpr ⟨fun tr' htr' hd => ?_, hk.final h⟩
    cases hp : s.prop h with
    | none => exact done_of_absent hp
    | some p => exact done_of_ended hs hp ((hk.logged h p hp).removed.mp ⟨tr', htr', hd⟩)

theorem skillProp_lifecycle {hist : PropHistory ι} {s : SkillProps ι}
    (hrun : (skillPropSystem ι fl).RunWhere (fun _ s e => s.InRange e) hist s) : Lifecycle fl hist s := by
  have hkept : Kept fl hist s := by
    refine hrun.invariant ?_ fun _ _ _ _ _ hk hrange hs => hk.step hrange hs
    rintro s ⟨hempty, hzero⟩
    have hno : ∀ {P : Prop} h p, s.prop h = some p → P := by
      intro P h p hp
      cases (hempty h).symm.trans hp
    constructor
    case logged => exact fun h p hp => hno h p hp
    case absent => exact fun _ _ _ htr => absurd htr List.not_mem_nil
    case traps =>
      constructor
      case handle_ne => exact fun h p hp => hno h p hp
      case named => exact fun c h hc => Or.inl (hzero c h hc)
      case only => exact fun _ _ h p _ hp => hno h p hp
      case one => exact fun h _ p _ hp => hno h p hp
    case spaced => exact fun _ => List.Pairwise.nil
    case in_time => exact fun _ htr => absurd htr List.not_mem_nil
    case single => exact fun _ _ _ _ => List.Pairwise.nil
    case final => exact fun _ => List.Pairwise.nil
  constructor
  case spaced => exact hkept.spaced
  case in_time => exact hkept.in_time
  case single => exact hkept.single
  case multiple =>
    intro h p hp hmultiple
    have hlogged := hkept.logged h p hp
    refine ⟨fun hdamage => ?_, fun tr htr htrig hpos => (hlogged.triggered hmultiple tr htr htrig).le hpos⟩
    exact hlogged.fired hmultiple (Bool.eq_true_of_not_eq_false fun h => hdamage (hlogged.unfired hmultiple h))
  case final => exact hkept.final
  case removed => exact fun h p hp => (hkept.logged h p hp).removed
  case due =>
    intro h p ct enemy _ hended hdue
    unfold SkillProp.update
    rw [if_neg (by rw [hended]; nofun), if_pos hdue]
  case traps => exact hkept.traps

/-- A caster who has no trap. -/
def noProps : SkillProps Unit := ⟨0, fun _ => some 0, fun _ => none⟩

theorem noProps_init : (skillPropSystem Unit id).Init noProps :=
  ⟨fun _ => rfl, fun _ _ h => (Option.some.inj h).symm⟩

/-- A trap with ten seconds and a fire duration of as many, and the given `GetVar(9)`. -/
def trapSkill (effect : PropEffect) (var9 : ℚ) : TimedSkill := ⟨effect, fun i => if i = 9 then var9 else 5, 1⟩

theorem skillProp_lifecycle_trap : ∃ t, noProps.handle id
      (.makeAreaEffectProp () (trapSkill .trapPhysicalDamage 1) 1 5) = some t ∧
    Lifecycle id [⟨noProps, .makeAreaEffectProp () (trapSkill .trapPhysicalDamage 1) 1 5, t⟩] t :=
  ⟨_, rfl, skillProp_lifecycle (.step (.init noProps_init) trivial rfl)⟩

/-- A trap that is to be removed does not fire any more and is still the one of the handle; and a multiple trap with an
interval of nearly `2 ^ 32` fires twice within a tick. -/
theorem lifecycle_astray :
    (∃ hist s p, (skillPropSystem Unit id).Run hist s ∧ s.trapHandle () = some 1 ∧ s.prop 1 = some p ∧
      ∀ ct enemy d, (p.update id 1 (s.trapHandle ()) ct enemy).1 ≠ .fired d) ∧
    ∃ hist s, (skillPropSystem Unit id).Run hist s ∧ ¬Lifecycle id hist s ∧
      hist.map (fun tr => (done id tr 1, tr.event.time, (tr.before.prop 1).map fun p => p.m_nInterval)) =
        [(.fired true, 41, some 4294967295), (.fired true, 40, some 30), (.idle, 5, none)] := by
  constructor
  · have hex : (System.exec (fun _ _ _ => True) (SkillProps.handle id)
        [.makeAreaEffectProp () (trapSkill .trapPhysicalDamage 1) 1 5, .pendRemove 1] [] noProps).map
          (fun x => (x.2.trapHandle (), (x.2.prop 1).map fun p => p.m_bIsRemovePended)) = some (some 1, some true) := by
      decide +kernel
    obtain ⟨⟨hist, s⟩, hexec, hs⟩ := Option.map_eq_some_iff.mp hex
    obtain ⟨htrap, hprop⟩ := Prod.mk.inj hs
    obtain ⟨p, hp, hpended⟩ := Option.map_eq_some_iff.mp hprop
    refine ⟨hist, s, p, System.run_exec _ (.init noProps_init) hexec, htrap, hp, fun ct enemy d hd => ?_⟩
    have hup := SkillProp.updated_update id p 1 (s.trapHandle ()) ct enemy
    generalize p.update id 1 (s.trapHandle ()) ct enemy = out at hup hd
    cases hup with
    | idle => cases hd
    | removed => cases hd
    | fired _ _ hcan => exact absurd (hpended.symm.trans hcan.2) nofun
  · have hex : (System.exec (fun _ _ _ => True) (SkillProps.handle id)
        [.makeAreaEffectProp () (trapSkill .trapMultiplePhysicalDamage (4294967295 / 100)) 1 5, .update 1 40 true,
          .update 1 41 true] [] noProps).map
          (fun x => x.1.map fun tr => (done id tr 1, tr.event.time, (tr.before.prop 1).map fun p => p.m_nInterval)) =
        some [(.fired true, 41, some 4294967295), (.fired true, 40, some 30), (.idle, 5, none)] := by
      decide +kernel
    obtain ⟨⟨hist, s⟩, hexec, hmap⟩ := Option.map_eq_some_iff.mp hex
    refine ⟨hist, s, System.run_exec _ (.init noProps_init) hexec, fun hlife => ?_, hmap⟩
    obtain ⟨tr, rest, rfl, htr, hrest⟩ := List.map_eq_cons_iff.mp hmap
    obtain ⟨tr', _, rfl, htr', -⟩ := List.map_eq_cons_iff.mp hrest
    simp only [Prod.mk.injEq] at htr htr'
    obtain ⟨hd, htime, hinterval⟩ := htr
    obtain ⟨hd', htime', -⟩ := htr'
    obtain ⟨p, hp, hp'⟩ := Option.map_eq_some_iff.mp hinterval
    have hspaced := (List.pairwise_cons.mp (hlife.spaced 1)).1 tr' List.mem_cons_self true true p hd hd' hp
    rw [hp', htime, htime'] at hspaced
    exact absurd hspaced (by decide)

end SkillProps

end RZEmulator.Chihiro
