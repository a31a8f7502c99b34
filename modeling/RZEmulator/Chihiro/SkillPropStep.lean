import RZEmulator.Chihiro.SkillProp

/-!
# Steps of skill props

What an event makes of the prop that carries a handle, `handle_spec`, and what it leaves true of the traps and the trap
handles of their casters, `TrapsKept.step`.
-/

namespace RZEmulator.Chihiro

open Lib

namespace SkillPropEvent

def time {ι : Type} : SkillPropEvent ι → Nat
  | makeAreaEffectProp _ _ _ ct => ct
  | update _ ct _ => ct
  | _ => 0

end SkillPropEvent

abbrev PropHistory (ι : Type) := History (SkillProps ι) (SkillPropEvent ι)

namespace SkillProps

variable {ι : Type}

/-- What the step does to the prop that carries `h`. -/
def done (fl : ℚ → ℚ) (tr : Transition (SkillProps ι) (SkillPropEvent ι)) (h : Nat) : PropOutcome :=
  match tr.event with
  | .update h' ct enemy =>
    if h' = h then
      (tr.before.prop h).elim .idle fun p => (p.update fl h (tr.before.trapHandle p.m_hCaster) ct enemy).1
    else .idle
  | _ => .idle

/-- Traps and the handles of their casters. -/
structure TrapsKept (s : SkillProps ι) : Prop where
  handle_ne : ∀ h p, s.prop h = some p → h ≠ 0
  /-- The handle is that of a trap that has not been removed. -/
  named : ∀ c h, s.trapHandle c = some h → h = 0 ∨
    ∃ p, s.prop h = some p ∧ p.m_hCaster = c ∧ p.m_pSkill.effect.isTrap = true ∧ p.m_bProcessEnded = false
  /-- Only that trap can fire. -/
  only : ∀ c trap h p, s.trapHandle c = some trap → s.prop h = some p → p.m_hCaster = c →
    p.m_pSkill.effect.isTrap = true → p.CanFire → h = trap
  one : ∀ h h' p p', s.prop h = some p → s.prop h' = some p' → p.m_hCaster = p'.m_hCaster →
    p.m_pSkill.effect.isTrap = true → p'.m_pSkill.effect.isTrap = true → p.CanFire → p'.CanFire → h = h'

/-! ## One step -/

variable {fl : ℚ → ℚ} {s t : SkillProps ι} {e : SkillPropEvent ι} {h : Nat} {p : SkillProp ι} {c : ι}
  {k : TimedSkill} {ct : Nat} {enemy : Bool}

theorem prop_setProp (s : SkillProps ι) (h h' : Nat) (p : SkillProp ι) :
    (s.setProp h p).prop h' = if h' = h then some p else s.prop h' := by
  unfold setProp
  exact Function.update_apply ..

theorem prop_pendRemove (s : SkillProps ι) (h h' : Nat) :
    (s.pendRemove h).prop h' = if h' = h then (s.prop h').map SkillProp.pendRemove else s.prop h' := by
  unfold pendRemove
  cases hp : s.prop h with
  | none =>
    split
    next heq =>
      rw [heq, hp]
      exact hp
    next => rfl
  | some p =>
    rw [Option.elim_some, prop_setProp]
    split
    next heq => rw [heq, hp, Option.map_some]
    next => rfl

theorem trapHandle_pendRemove (s : SkillProps ι) (h : Nat) :
    (s.pendRemove h).trapHandle = s.trapHandle ∧ (s.pendRemove h).clock = s.clock := by
  unfold pendRemove
  cases s.prop h with
  | none => exact ⟨rfl, rfl⟩
  | some p => exact ⟨rfl, rfl⟩

/-- What a step makes of the prop that carries `h`. -/
inductive PropStep (fl : ℚ → ℚ) (s t : SkillProps ι) (e : SkillPropEvent ι) (h : Nat) : Prop
  | absent : s.prop h = none → t.prop h = none → PropStep fl s t e h
  | kept (p : SkillProp ι) (b : Bool) : s.prop h = some p → t.prop h = some { p with m_bIsRemovePended := b } →
      (p.m_bIsRemovePended = true → b = true) → done fl ⟨s, e, t⟩ h = .idle → PropStep fl s t e h
  | created (c : ι) (k : TimedSkill) (ct : Nat) : s.prop h = none → t.prop h = some (SkillProp.create fl c k ct) →
      PropStep fl s t e h
  | updated (p : SkillProp ι) (ct : Nat) (enemy : Bool) : e = .update h ct enemy → s.prop h = some p →
      t.prop h = some (p.update fl h (s.trapHandle p.m_hCaster) ct enemy).2.1 → s.clock ≤ ct →
      ct ≤ arTimeMax → t.clock = ct → PropStep fl s t e h

theorem PropStep.same (hdone : done fl ⟨s, e, t⟩ h = .idle) (hprop : t.prop h = s.prop h) :
    PropStep fl s t e h := by
  cases hp : s.prop h with
  | none => exact .absent hp (hprop.trans hp)
  | some p => exact .kept p p.m_bIsRemovePended hp (hprop.trans hp) id hdone

theorem PropStep.pended (hdone : done fl ⟨s, e, t⟩ h = .idle)
    (hprop : t.prop h = (s.prop h).map SkillProp.pendRemove) : PropStep fl s t e h := by
  cases hp : s.prop h with
  | none =>
    rw [hp] at hprop
    exact .absent hp hprop
  | some p =>
    rw [hp, Option.map_some] at hprop
    obtain ⟨b, hb, hmono⟩ := p.pendRemove_eq
    exact .kept p b hp (hprop.trans (congrArg some hb)) hmono hdone

theorem done_of_absent (hp : s.prop h = none) : done fl ⟨s, e, t⟩ h = .idle := by
  unfold done
  split
  next =>
    split
    next => rw [hp, Option.elim_none]
    next => rfl
  next => rfl

theorem done_update (hp : s.prop h = some p) : done fl ⟨s, .update h ct enemy, t⟩ h =
    (p.update fl h (s.trapHandle p.m_hCaster) ct enemy).1 := by
  unfold done
  dsimp only
  rw [if_pos rfl, hp, Option.elim_some]

variable [DecidableEq ι]

theorem makeAreaEffectProp_spec (hs : s.makeAreaEffectProp fl c k h ct = some t) :
    s.clock ≤ ct ∧ t.clock = ct ∧ h ≠ 0 ∧ s.prop h = none ∧ ∃ trap, s.trapHandle c = some trap ∧
      (t.trapHandle = if k.effect.isTrap then Function.update s.trapHandle c (some h) else s.trapHandle) ∧
      ∀ h', t.prop h' = if h' = h then some (SkillProp.create fl c k ct)
        else if k.effect.isTrap = true ∧ trap ≠ 0 ∧ h' = trap then (s.prop h').map SkillProp.pendRemove
        else s.prop h' := by
  unfold makeAreaEffectProp at hs
  split at hs
  swap
  · cases hs
  next hguard =>
  obtain ⟨hclock, -, hne, hfree⟩ := hguard
  obtain ⟨trap, htrap, rfl⟩ := Option.map_eq_some_iff.mp hs
  dsimp only
  refine ⟨hclock, ?_, hne, Option.isNone_iff_eq_none.mp hfree, trap, htrap, ?_, fun h' => ?_⟩
  · split
    · split
      · exact (trapHandle_pendRemove { s with clock := ct } trap).2
      · rfl
    · rfl
  · split
    · split
      · exact congrArg (fun f => Function.update f c (some h)) (trapHandle_pendRemove { s with clock := ct } trap).1
      · rfl
    · rfl
  · cases k.effect.isTrap with
    | false =>
      rw [if_neg nofun, prop_setProp]
      rfl
    | true =>
      rw [if_pos rfl, prop_setProp]
      congr 1
      by_cases h0 : trap ≠ 0
      · rw [if_pos h0]
        refine (prop_pendRemove { s with clock := ct } trap h').trans ?_
        by_cases heq : h' = trap
        · rw [if_pos heq, if_pos ⟨rfl, h0, heq⟩]
        · rw [if_neg heq, if_neg fun h => heq h.2.2]
      · rw [if_neg h0]
        exact (if_neg fun h => h0 h.2.1).symm

theorem update_spec (hs : s.update fl h ct enemy = some t) : s.clock ≤ ct ∧ ct ≤ arTimeMax ∧ t.clock = ct ∧
    ∃ p, s.prop h = some p ∧ (t.trapHandle = Function.update s.trapHandle p.m_hCaster
      (p.update fl h (s.trapHandle p.m_hCaster) ct enemy).2.2) ∧
    ∀ h', t.prop h' = if h' = h then some (p.update fl h (s.trapHandle p.m_hCaster) ct enemy).2.1 else s.prop h' := by
  unfold update at hs
  split at hs
  swap
  · cases hs
  next hguard =>
  obtain ⟨p, hp, rfl⟩ := Option.map_eq_some_iff.mp hs
  exact ⟨hguard.1, hguard.2, rfl, p, hp, rfl, fun h' => prop_setProp _ h h' _⟩

/-- The clock goes on, and each prop takes one of these steps. -/
theorem handle_spec (hs : s.handle fl e = some t) : s.clock ≤ t.clock ∧ ∀ h, PropStep fl s t e h := by
  cases e with
  | makeAreaEffectProp c k h ct =>
    obtain ⟨hclock, hct, -, hfree, trap, -, -, hprop⟩ := makeAreaEffectProp_spec hs
    refine ⟨hct ▸ hclock, fun h' => ?_⟩
    have hh := hprop h'
    split at hh
    next heq => exact .created c k ct (heq ▸ hfree) hh
    next =>
    split at hh
    next => exact .pended rfl hh
    next => exact .same rfl hh
  | update h ct enemy =>
    obtain ⟨hclock, hmax, hct, p, hp, -, hprop⟩ := update_spec hs
    refine ⟨hct ▸ hclock, fun h' => ?_⟩
    have hh := hprop h'
    split at hh
    next heq =>
      subst heq
      exact .updated p ct enemy rfl hp hh hclock hmax hct
    next hne => exact .same (if_neg (Ne.symm hne)) hh
  | pendRemove h =>
    cases hs
    refine ⟨(trapHandle_pendRemove s h).2.ge, fun h' => ?_⟩
    have hh := prop_pendRemove s h h'
    split at hh
    next => exact .pended rfl hh
    next => exact .same rfl hh
  | depart c =>
    cases hs
    exact ⟨Nat.le_refl _, fun h' => .same rfl rfl⟩

/-- What is known of a firing. -/
theorem fired_spec (hs : s.handle fl e = some t) {d : Bool} (hd : done fl ⟨s, e, t⟩ h = .fired d) :
    ∃ p ct enemy, e = .update h ct enemy ∧ s.prop h = some p ∧ s.clock ≤ ct ∧ p.CanFire ∧
      ct ≤ p.m_nEndTime ∧ (p.m_nLastFireTime + p.m_nInterval) % 2 ^ 32 ≤ ct := by
  cases (handle_spec hs).2 h with
  | absent hp =>
    rw [done_of_absent hp] at hd
    cases hd
  | kept p b _ _ _ hidle =>
    rw [hidle] at hd
    cases hd
  | created c k ct hp =>
    rw [done_of_absent hp] at hd
    cases hd
  | updated p ct enemy he hp ht hclock =>
    subst he
    rw [done_update hp] at hd
    have hup := SkillProp.updated_update fl p h (s.trapHandle p.m_hCaster) ct enemy
    generalize p.update fl h (s.trapHandle p.m_hCaster) ct enemy = out at hup hd
    cases hup with
    | idle => cases hd
    | removed => cases hd
    | fired trap _ hcan hct hwait => exact ⟨p, ct, enemy, rfl, hp, hclock, hcan, hct, hwait⟩

/-- What has been removed stays so. -/
theorem done_of_ended (hs : s.handle fl e = some t) (hp : s.prop h = some p) (hended : p.m_bProcessEnded = true) :
    done fl ⟨s, e, t⟩ h = .idle := by
  cases (handle_spec hs).2 h with
  | absent hnone => exact done_of_absent hnone
  | kept _ _ _ _ _ hidle => exact hidle
  | created _ _ _ hnone => exact done_of_absent hnone
  | updated q ct enemy he hq =>
    subst he
    cases hp.symm.trans hq
    rw [done_update hp]
    unfold SkillProp.update
    rw [if_pos hended]

/-! ## Traps -/

omit [DecidableEq ι] in
/-- Props that stay what they are, or stop firing, and handles that stay or are cleared when no trap can fire. -/
theorem TrapsKept.of_kept (hs : TrapsKept s)
    (hprop : ∀ h p', t.prop h = some p' → ∃ p, s.prop h = some p ∧ p'.m_hCaster = p.m_hCaster ∧
      p'.m_pSkill = p.m_pSkill ∧ (p'.CanFire → p.CanFire))
    (hstay : ∀ h, t.prop h = none → s.prop h = none)
    (hhandle : ∀ c trap, t.trapHandle c = some trap →
      s.trapHandle c = some trap ∧ (∀ p p', s.prop trap = some p → p.m_hCaster = c → t.prop trap = some p' →
        p'.m_bProcessEnded = p.m_bProcessEnded) ∨
      trap = 0 ∧ ∀ h p', t.prop h = some p' → p'.m_hCaster = c → p'.m_pSkill.effect.isTrap = true →
        ¬p'.CanFire) : TrapsKept t := by
  constructor
  case handle_ne =>
    intro h p' hp'
    obtain ⟨p, hp, -⟩ := hprop h p' hp'
    exact hs.handle_ne h p hp
  case named =>
    intro c trap htrap
    rcases hhandle c trap htrap with ⟨hbefore, hended⟩ | ⟨h0, -⟩
    · rcases hs.named c trap hbefore with h0 | ⟨p, hp, hc, htype, hnot⟩
      · exact Or.inl h0
      · cases hp' : t.prop trap with
        | none => cases (hstay trap hp').symm.trans hp
        | some p' =>
          obtain ⟨q, hq, hcaster, hskill, -⟩ := hprop trap p' hp'
          cases hp.symm.trans hq
          refine Or.inr ⟨p', rfl, hcaster.trans hc, ?_, (hended p p' hp hc hp').trans hnot⟩
          rw [hskill]
          exact htype
    · exact Or.inl h0
  case only =>
    intro c trap h p' htrap hp' hc htype hcan
    rcases hhandle c trap htrap with ⟨hbefore, -⟩ | ⟨-, hnone⟩
    · obtain ⟨p, hp, hcaster, hskill, hmono⟩ := hprop h p' hp'
      rw [hskill] at htype
      exact hs.only c trap h p hbefore hp (hcaster.symm.trans hc) htype (hmono hcan)
    · exact absurd hcan (hnone h p' hp' hc htype)
  case one =>
    intro h h' p' q' hp' hq' hc hptype hqtype hpcan hqcan
    obtain ⟨p, hp, hpcaster, hpskill, hpmono⟩ := hprop h p' hp'
    obtain ⟨q, hq, hqcaster, hqskill, hqmono⟩ := hprop h' q' hq'
    rw [hpskill] at hptype
    rw [hqskill] at hqtype
    exact hs.one h h' p q hp hq ((hpcaster.symm.trans hc).trans hqcaster) hptype hqtype (hpmono hpcan) (hqmono hqcan)

omit [DecidableEq ι] in
/-- One prop becomes another that can do no more than it. -/
theorem older_of_replace {p' : SkillProp ι} (hp : s.prop h = some p) (hcaster : p'.m_hCaster = p.m_hCaster)
    (hskill : p'.m_pSkill = p.m_pSkill) (hcan : p'.CanFire → p.CanFire)
    (hprop : ∀ h', t.prop h' = if h' = h then some p' else s.prop h') :
    (∀ h' q', t.prop h' = some q' → ∃ q, s.prop h' = some q ∧ q'.m_hCaster = q.m_hCaster ∧
      q'.m_pSkill = q.m_pSkill ∧ (q'.CanFire → q.CanFire)) ∧ ∀ h', t.prop h' = none → s.prop h' = none := by
  constructor
  · intro h' q' hq'
    rw [hprop] at hq'
    split at hq'
    next heq =>
      cases hq'
      exact ⟨p, heq ▸ hp, hcaster, hskill, hcan⟩
    next => exact ⟨q', hq', rfl, rfl, id⟩
  · intro h' hnone
    rw [hprop] at hnone
    split at hnone
    next => cases hnone
    next => exact hnone

omit [DecidableEq ι] in
theorem TrapsKept.replace (hs : TrapsKept s) {p' : SkillProp ι} (hp : s.prop h = some p)
    (hcaster : p'.m_hCaster = p.m_hCaster) (hskill : p'.m_pSkill = p.m_pSkill)
    (hended : p'.m_bProcessEnded = p.m_bProcessEnded) (hcan : p'.CanFire → p.CanFire)
    (hprop : ∀ h', t.prop h' = if h' = h then some p' else s.prop h') (hhandle : t.trapHandle = s.trapHandle) :
    TrapsKept t := by
  obtain ⟨holder, hstay⟩ := older_of_replace hp hcaster hskill hcan hprop
  refine hs.of_kept holder hstay fun c trap htrap => Or.inl ⟨hhandle ▸ htrap, fun q q' hq _ hq' => ?_⟩
  rw [hprop] at hq'
  split at hq'
  next heq =>
    subst heq
    cases hp.symm.trans hq
    cases hq'
    exact hended
  next =>
    cases hq.symm.trans hq'
    rfl

/-- The prop is removed, and its caster loses the handle. -/
theorem TrapsKept.remove (hs : TrapsKept s) {p' : SkillProp ι} (hp : s.prop h = some p)
    (hcaster : p'.m_hCaster = p.m_hCaster) (hskill : p'.m_pSkill = p.m_pSkill) (hended : p'.m_bProcessEnded = true)
    (hprop : ∀ h', t.prop h' = if h' = h then some p' else s.prop h')
    (hhandle : t.trapHandle = Function.update s.trapHandle p.m_hCaster
      ((s.trapHandle p.m_hCaster).map fun trap => if trap = h then 0 else trap)) : TrapsKept t := by
  have hnot : ¬p'.CanFire := fun hcan => absurd (hended.symm.trans hcan.1) nofun
  obtain ⟨holder, hstay⟩ := older_of_replace hp hcaster hskill (fun hcan => absurd hcan hnot) hprop
  refine hs.of_kept holder hstay fun c trap htrap => ?_
  have hother : ∀ q q', s.prop trap = some q → t.prop trap = some q' → trap ≠ h →
      q'.m_bProcessEnded = q.m_bProcessEnded := by
    intro q q' hq hq' hne
    rw [hprop, if_neg hne] at hq'
    cases hq.symm.trans hq'
    rfl
  rw [hhandle, Function.update_apply] at htrap
  split at htrap
  next hc =>
    subst hc
    obtain ⟨trap', htrap', hclear⟩ := Option.map_eq_some_iff.mp htrap
    by_cases heq : trap' = h
    · -- The handle was that of the prop that is removed.
      rw [if_pos heq] at hclear
      refine Or.inr ⟨hclear.symm, fun h' q' hq' hqc hqtype hqcan => ?_⟩
      obtain ⟨q, hq, hqcaster, hqskill, hmono⟩ := holder h' q' hq'
      rw [hqskill] at hqtype
      have hh' := hs.only _ trap' h' q htrap' hq (hqcaster.symm.trans hqc) hqtype (hmono hqcan)
      rw [hprop, if_pos (hh'.trans heq)] at hq'
      cases hq'
      exact hnot hqcan
    · rw [if_neg heq] at hclear
      subst hclear
      exact Or.inl ⟨htrap', fun q q' hq _ hq' => hother q q' hq hq' heq⟩
  next hc =>
    refine Or.inl ⟨htrap, fun q q' hq hqc hq' => hother q q' hq hq' ?_⟩
    rintro rfl
    cases hp.symm.trans hq
    exact hc hqc.symm

omit [DecidableEq ι] in
theorem TrapsKept.pendRemove (hs : TrapsKept s) (h : Nat) : TrapsKept (s.pendRemove h) := by
  unfold SkillProps.pendRemove
  cases hp : s.prop h with
  | none => exact hs
  | some p =>
    obtain ⟨b, hb, -⟩ := p.pendRemove_eq
    exact hs.replace hp (by rw [hb]) (by rw [hb]) (by rw [hb]) (fun hcan => absurd hcan p.not_canFire_pendRemove)
      (fun h' => prop_setProp s h h' p.pendRemove) rfl

theorem TrapsKept.depart (hs : TrapsKept s) (c : ι) : TrapsKept (s.setTrapHandle c none) := by
  refine hs.of_kept (fun h p hp => ⟨p, hp, rfl, rfl, id⟩) (fun h hp => hp) fun c' trap htrap => Or.inl ⟨?_, ?_⟩
  · change Function.update s.trapHandle c none c' = some trap at htrap
    rw [Function.update_apply] at htrap
    split at htrap
    next => cases htrap
    next => exact htrap
  · intro p p' hp _ hp'
    cases hp.symm.trans hp'
    rfl

theorem TrapsKept.update (hs : TrapsKept s) (ht : s.update fl h ct enemy = some t) : TrapsKept t := by
  obtain ⟨-, -, -, p, hp, hhandle, hprop⟩ := update_spec ht
  have hup := SkillProp.updated_update fl p h (s.trapHandle p.m_hCaster) ct enemy
  generalize p.update fl h (s.trapHandle p.m_hCaster) ct enemy = out at hup hhandle hprop
  cases hup with
  | idle =>
    rw [Function.update_eq_self] at hhandle
    exact hs.replace hp rfl rfl rfl id hprop hhandle
  | fired trap hthere hcan =>
    rw [← hthere, Function.update_eq_self] at hhandle
    obtain ⟨hcaster, hskill, -, hended, -⟩ := SkillProp.fire_same fl (p.tick ct) ct enemy
    exact hs.replace hp hcaster hskill hended (fun _ => hcan) hprop hhandle
  | removed l =>
    refine hs.remove hp ?_ ?_ ?_ hprop hhandle
    · rfl
    · rfl
    · rfl

/-- What can fire and is not the new prop has been there, and is no trap that the new one replaces. -/
theorem old_of_make (hs : TrapsKept s) (ht : s.makeAreaEffectProp fl c k h ct = some t) {h' : Nat}
    (hp : t.prop h' = some p) (hother : h' ≠ h) (hcan : p.CanFire) : s.prop h' = some p ∧
      (k.effect.isTrap = true → p.m_pSkill.effect.isTrap = true → p.m_hCaster ≠ c) := by
  obtain ⟨-, -, -, -, trap, htrap, -, hprop⟩ := makeAreaEffectProp_spec ht
  rw [hprop, if_neg hother] at hp
  split at hp
  next =>
    obtain ⟨q, -, rfl⟩ := Option.map_eq_some_iff.mp hp
    exact absurd hcan q.not_canFire_pendRemove
  next hnot =>
    refine ⟨hp, fun hnew htype hc => hnot ⟨hnew, ?_⟩⟩
    have heq := hs.only c trap h' p htrap hp hc htype hcan
    exact ⟨heq ▸ hs.handle_ne h' p hp, heq⟩

theorem new_of_make (ht : s.makeAreaEffectProp fl c k h ct = some t) :
    ∃ p, t.prop h = some p ∧ p.m_hCaster = c ∧ p.m_pSkill = k ∧ p.m_bProcessEnded = false := by
  obtain ⟨-, -, -, -, _, -, -, hprop⟩ := makeAreaEffectProp_spec ht
  obtain ⟨_, _, heq, -⟩ := SkillProp.create_eq fl c k ct
  refine ⟨_, (hprop h).trans (if_pos rfl), ?_⟩
  rw [heq]
  exact ⟨rfl, rfl, rfl⟩

/-- What is no trap that the new one replaces stays. -/
theorem kept_of_make (hs : TrapsKept s) (ht : s.makeAreaEffectProp fl c k h ct = some t) {h' : Nat}
    (hp : s.prop h' = some p) (hother : k.effect.isTrap = true → p.m_hCaster ≠ c) : t.prop h' = some p := by
  obtain ⟨-, -, -, hfree, trap, htrap, -, hprop⟩ := makeAreaEffectProp_spec ht
  rw [hprop, if_neg, if_neg, hp]
  · rintro ⟨hnew, h0, rfl⟩
    rcases hs.named c h' htrap with h0' | ⟨q, hq, hqc, -⟩
    · exact h0 h0'
    · cases hp.symm.trans hq
      exact hother hnew hqc
  · rintro rfl
    cases hfree.symm.trans hp

theorem TrapsKept.make (hs : TrapsKept s) (ht : s.makeAreaEffectProp fl c k h ct = some t) : TrapsKept t := by
  obtain ⟨-, -, hne, -, trap, -, hhandle, hprop⟩ := makeAreaEffectProp_spec ht
  obtain ⟨pn, hpn, hcaster, hskill, hended⟩ := new_of_make ht
  constructor
  case handle_ne =>
    intro h' p hp
    rw [hprop] at hp
    split at hp
    next heq => exact heq ▸ hne
    next =>
    split at hp
    next hpended => exact hpended.2.2 ▸ hpended.2.1
    next => exact hs.handle_ne h' p hp
  case named =>
    intro c' trap' htrap'
    by_cases hnew : k.effect.isTrap = true ∧ c' = c
    · obtain ⟨htype, rfl⟩ := hnew
      rw [hhandle, if_pos htype, Function.update_self] at htrap'
      cases htrap'
      exact Or.inr ⟨pn, hpn, hcaster, hskill ▸ htype, hended⟩
    · have hbefore : s.trapHandle c' = some trap' := by
        rw [hhandle] at htrap'
        split at htrap'
        next htype => exact (Function.update_of_ne (fun hc => hnew ⟨htype, hc⟩) _ _).symm.trans htrap'
        next => exact htrap'
      rcases hs.named c' trap' hbefore with h0 | ⟨p, hp, rfl, htype, hnot⟩
      · exact Or.inl h0
      · exact Or.inr ⟨p, kept_of_make hs ht hp fun hnewType hc => hnew ⟨hnewType, hc⟩, rfl, htype, hnot⟩
  case only =>
    intro c' trap' h' p htrap' hp hc htype hcan
    rw [hhandle] at htrap'
    by_cases heq : h' = h
    · subst heq
      cases hpn.symm.trans hp
      rw [hskill] at htype
      rw [if_pos htype, ← hc, hcaster, Function.update_self] at htrap'
      exact Option.some.inj htrap'
    · obtain ⟨hbefore, hreplaced⟩ := old_of_make hs ht hp heq hcan
      split at htrap'
      next hnewTrap =>
        rw [Function.update_of_ne (hc ▸ hreplaced hnewTrap htype)] at htrap'
        exact hs.only c' trap' h' p htrap' hbefore hc htype hcan
      next => exact hs.only c' trap' h' p htrap' hbefore hc htype hcan
  case one =>
    intro h₁ h₂ p q hp hq hc hptype hqtype hpcan hqcan
    by_cases h1 : h₁ = h
    · subst h1
      by_contra h2
      cases hpn.symm.trans hp
      rw [hskill] at hptype
      exact (old_of_make hs ht hq (Ne.symm h2) hqcan).2 hptype hqtype (hc.symm.trans hcaster)
    · have hpold := old_of_make hs ht hp h1 hpcan
      by_cases h2 : h₂ = h
      · subst h2
        cases hpn.symm.trans hq
        rw [hskill] at hqtype
        exact absurd (hc.trans hcaster) (hpold.2 hqtype hptype)
      · exact hs.one h₁ h₂ p q hpold.1 (old_of_make hs ht hq h2 hqcan).1 hc hptype hqtype hpcan hqcan

theorem TrapsKept.step (hs : TrapsKept s) (ht : s.handle fl e = some t) : TrapsKept t := by
  cases e with
  | makeAreaEffectProp c k h ct => exact hs.make ht
  | update h ct enemy => exact hs.update ht
  | pendRemove h =>
    cases ht
    exact hs.pendRemove h
  | depart c =>
    cases ht
    exact hs.depart c

end SkillProps

end RZEmulator.Chihiro
