import RZEmulator.Chihiro.StateOwnership
import RZEmulator.Chihiro.UnitHealth

/-!
# Deaths in a run

A death is to be processed once. `damage` does it, for a unit of any health and any amount; a call of `SetHealth` or
`AddHealth` that takes the last health of a unit leaves one that is dead without having died. `Spares` says of a call
that it is not such a one, and is decided before the call.
-/

namespace RZEmulator.Chihiro

open Lib

namespace LifeUnit

/-- `onDead` has run once since the health was last positive, or not at all if it is positive. -/
def Once (u : LifeUnit) : Prop := u.deaths = if u.health = 0 then 1 else 0

/-- A death at the time `ct` has been processed. -/
structure Processed (ct : Nat) (u : LifeUnit) : Prop where
  deadTime : u.deadTime = ct
  castingSkill : u.pursuits.m_castingSkill = none
  target : u.pursuits.target = 0
  aura : u.pursuits.m_vAura = []
  enemyList : u.pursuits.m_vEnemyList = []
  states : ∀ p ∈ u.pursuits.states.m_vStateList, (u.pursuits.states.states p).has AttributeFlag.AF_ERASE_ON_DEAD = false

instance (u : LifeUnit) : Decidable (Once u) := inferInstanceAs (Decidable (_ = _))

/-- The unit is dead already, or stays alive with this argument of `SetHealth`. -/
def keeps (u : LifeUnit) (hp : Int) : Bool := decide (u.health = 0 ∨ 0 < hp ∧ 0 < u.maxHealth)

end LifeUnit

/-- The call does not take the last health of its unit behind the back of `damage`. -/
def HealthCall.spares : HealthCall → LifeUnit → Bool
  | .damage _ _, _ | .setMaxHealth _ _, _ => true
  | .addHealth _ n, u => u.keeps (u.health + n)
  | .setHealth _ hp, u => u.keeps hp

namespace LifeUnits

def spares (s : LifeUnits) (c : HealthCall) : Bool := (s[c.unit]?).all c.spares

/-- Every call spares its unit, in the state in which it is made. -/
def sparesAll (ct : Nat) : List HealthCall → LifeUnits → Bool
  | [], _ => true
  | c :: cs, s => s.spares c && (s.call ct c).all (sparesAll ct cs)

def Careful (s : LifeUnits) (e : LifeEvent) : Prop :=
  ((s.actionCalls e.action).all fun cs => sparesAll e.ct cs s) = true

instance (s : LifeUnits) (e : LifeEvent) : Decidable (Careful s e) := inferInstanceAs (Decidable (_ = true))

/-- Every death has been processed once, and in the event in which the health came to be 0. -/
structure DeathsOnce (hist : History LifeUnits LifeEvent) (s : LifeUnits) : Prop where
  once : ∀ u ∈ s, u.Once
  processed : ∀ tr ∈ hist, ∀ (i : Nat) (u u' : LifeUnit), tr.before[i]? = some u → tr.after[i]? = some u' →
    u.health ≠ 0 → u'.health = 0 → u'.Processed tr.event.ct

end LifeUnits

/-! ## One unit -/

namespace LifeUnit

variable {u u' u'' : LifeUnit} {hp n : Int} {ct : Nat} {c : HealthCall}

structure Ok (u : LifeUnit) : Prop where
  nonneg : 0 ≤ u.health
  once : u.Once

/-- What an event does to a unit: if it is dead afterwards, it was so before or its death has been processed. -/
structure Lived (ct : Nat) (u u' : LifeUnit) : Prop where
  keep : u.Processed ct → u'.health = 0 → u'.Processed ct
  die : u.health ≠ 0 → u'.health = 0 → u'.Processed ct

theorem Lived.refl (ct : Nat) (u : LifeUnit) : Lived ct u u := ⟨fun h _ => h, fun h h' => absurd h' h⟩

theorem Lived.trans (h : Lived ct u u') (h' : Lived ct u' u'') : Lived ct u u'' where
  keep hp hdead := by
    by_cases hmid : u'.health = 0
    · exact h'.keep (h.keep hp hmid) hdead
    · exact h'.die hmid hdead
  die halive hdead := by
    by_cases hmid : u'.health = 0
    · exact h'.keep (h.die halive hmid) hdead
    · exact h'.die hmid hdead

theorem clamp_nonneg (u : LifeUnit) (hp : Int) : 0 ≤ u.clamp hp := by
  unfold clamp
  split_ifs <;> omega

theorem clamp_pos_iff : 0 < u.clamp hp ↔ 0 < hp ∧ 0 < u.maxHealth := by
  unfold clamp
  split_ifs <;> omega

theorem Ok.deaths (hu : Ok u) : u.deaths = if u.health = 0 then 1 else 0 := hu.once

/-- `SetHealth` keeps the count right if and only if it keeps a living unit alive. -/
theorem Ok.setHealth_once_iff (hu : Ok u) : (u.setHealth hp).Once ↔ u.keeps hp = true := by
  have hdeaths := hu.deaths
  rw [keeps, decide_eq_true_eq, ← clamp_pos_iff]
  show (if 0 < u.clamp hp then 0 else u.deaths) = (if u.clamp hp = 0 then 1 else 0) ↔ _
  have hnonneg := clamp_nonneg u hp
  split_ifs at hdeaths ⊢ <;> omega

theorem Ok.setHealth (hu : Ok u) (hkeeps : u.keeps hp = true) : Ok (u.setHealth hp) :=
  ⟨clamp_nonneg u hp, hu.setHealth_once_iff.mpr hkeeps⟩

theorem lived_setHealth (hkeeps : u.keeps hp = true) : Lived ct u (u.setHealth hp) where
  keep h _ := ⟨h.deadTime, h.castingSkill, h.target, h.aura, h.enemyList, h.states⟩
  die halive hdead := by
    rw [keeps, decide_eq_true_eq, ← clamp_pos_iff] at hkeeps
    have hdead : u.clamp hp = 0 := hdead
    omega

/-! ## Death -/

/-- No state that a death erases is left by it. -/
theorem removeStateByDead_erased (x : UnitStates) : ∀ p ∈ x.removeStateByDead.m_vStateList,
    (x.removeStateByDead.states p).has AttributeFlag.AF_ERASE_ON_DEAD = false := by
  unfold UnitStates.removeStateByDead
  dsimp only
  rw [UnitStates.removeStateIf_eq]
  dsimp only
  split_ifs
  · obtain ⟨hlist, htemplate, _⟩ := UnitStates.foldl_keepRemoved
      (x.clearRemovedStateByDeath.m_vStateList.filter fun p => (x.clearRemovedStateByDeath.states p).has AttributeFlag.AF_ERASE_ON_DEAD)
      { x.clearRemovedStateByDeath with m_vStateList := x.clearRemovedStateByDeath.m_vStateList.filter fun p =>
          !(x.clearRemovedStateByDeath.states p).has AttributeFlag.AF_ERASE_ON_DEAD }
    intro p hp
    rw [hlist] at hp
    rw [UnitStates.has_congr (htemplate p)]
    exact (Bool.not_eq_true' _).mp (List.mem_filter.mp hp).2
  · intro p hp
    exact (Bool.not_eq_true' _).mp (List.mem_filter.mp hp).2

theorem processed_onDead (u : LifeUnit) (ct : Nat) : Processed ct ({ u with deadTime := ct } : LifeUnit).onDead where
  deadTime := rfl
  castingSkill := rfl
  target := rfl
  aura := rfl
  enemyList := rfl
  states := removeStateByDead_erased u.pursuits.states

/-- What is hidden is revealed, and nothing else changes. -/
theorem reveal_spec (h : u.reveal = some u') :
    u'.health = u.health ∧ u'.maxHealth = u.maxHealth ∧ u'.deaths = u.deaths := by
  unfold reveal at h
  split_ifs at h
  · obtain ⟨x, -, h⟩ := Option.bind_eq_some_iff.mp h
    obtain ⟨y, -, rfl⟩ := Option.map_eq_some_iff.mp h
    exact ⟨rfl, rfl, rfl⟩
  · rw [← Option.some.inj h]
    exact ⟨rfl, rfl, rfl⟩

/-- A unit that `damage` finds alive, after `SetHealth`: its death is processed if it has come. -/
theorem dieIfDead_spec (halive : u.deaths = 0) (hp : Int) (ct : Nat) : Ok ((u.setHealth hp).dieIfDead ct) ∧
    (((u.setHealth hp).dieIfDead ct).health = 0 → Processed ct ((u.setHealth hp).dieIfDead ct)) := by
  have hnonneg := clamp_nonneg u hp
  have hdeaths : (u.setHealth hp).deaths = 0 := by
    show (if 0 < u.clamp hp then 0 else u.deaths) = 0
    rw [halive, ite_self]
  unfold dieIfDead
  split_ifs with hdead
  · refine ⟨⟨hnonneg, ?_⟩, fun _ => processed_onDead _ ct⟩
    show (u.setHealth hp).deaths + 1 = if (u.setHealth hp).health = 0 then 1 else 0
    rw [hdeaths, if_pos hdead]
  · refine ⟨⟨hnonneg, ?_⟩, fun h => absurd h hdead⟩
    rw [Once, hdeaths, if_neg hdead]

theorem Ok.damage (hu : Ok u) (h : u.damage n ct = some u') : Ok u' ∧ Lived ct u u' := by
  unfold LifeUnit.damage at h
  split_ifs at h with hdead
  · rw [← Option.some.inj h]
    exact ⟨hu, Lived.refl ct u⟩
  · obtain ⟨u₁, hreveal, h⟩ := Option.bind_eq_some_iff.mp h
    obtain ⟨hp, -, rfl⟩ := Option.map_eq_some_iff.mp h
    obtain ⟨-, -, hdeaths⟩ := reveal_spec hreveal
    have halive : u₁.deaths = 0 := by rw [hdeaths, hu.deaths, if_neg hdead]
    obtain ⟨hok, hprocessed⟩ := dieIfDead_spec halive hp ct
    exact ⟨hok, fun _ => hprocessed, fun _ => hprocessed⟩

/-! ## Calls -/

/-- A call that spares its unit. -/
theorem Ok.act (hu : Ok u) (hspares : c.spares u = true) (h : c.act ct u = some u') : Ok u' ∧ Lived ct u u' := by
  cases c with
  | damage i nDamage => exact hu.damage h
  | addHealth i n =>
    obtain ⟨hp, hsum, rfl⟩ := Option.map_eq_some_iff.mp h
    obtain rfl := (add32_eq_some.mp hsum).2
    exact ⟨hu.setHealth hspares, lived_setHealth hspares⟩
  | setHealth i hp =>
    obtain rfl := Option.some.inj h
    exact ⟨hu.setHealth hspares, lived_setHealth hspares⟩
  | setMaxHealth i n =>
    obtain rfl := Option.some.inj h
    exact ⟨⟨hu.nonneg, hu.once⟩,
      fun h _ => ⟨h.deadTime, h.castingSkill, h.target, h.aura, h.enemyList, h.states⟩, fun h h' => absurd h' h⟩

/-- A call that does not. -/
theorem Ok.spares_of_act (hu : Ok u) (h : c.act ct u = some u') (honce : u'.Once) : c.spares u = true := by
  cases c with
  | damage i nDamage => rfl
  | addHealth i n =>
    obtain ⟨hp, hsum, rfl⟩ := Option.map_eq_some_iff.mp h
    obtain rfl := (add32_eq_some.mp hsum).2
    exact hu.setHealth_once_iff.mp honce
  | setHealth i hp =>
    obtain rfl := Option.some.inj h
    exact hu.setHealth_once_iff.mp honce
  | setMaxHealth i n => rfl

end LifeUnit

namespace LifeUnits

variable {s s' s'' : LifeUnits} {ct i : Nat} {u u' : LifeUnit} {c : HealthCall} {cs : List HealthCall} {e : LifeEvent}
  {hist : History LifeUnits LifeEvent}

def Ok (s : LifeUnits) : Prop := ∀ u ∈ s, u.Ok

/-- What an event does to every unit that is there before it. -/
def Lived (ct : Nat) (s s' : LifeUnits) : Prop :=
  ∀ (i : Nat) (u : LifeUnit), s[i]? = some u → ∃ u', s'[i]? = some u' ∧ u.Lived ct u'

theorem Lived.refl (ct : Nat) (s : LifeUnits) : Lived ct s s := fun _ u hu => ⟨u, hu, .refl ct u⟩

theorem Lived.trans (h : Lived ct s s') (h' : Lived ct s' s'') : Lived ct s s'' := by
  intro i u hu
  obtain ⟨u', hu', hlived⟩ := h i u hu
  obtain ⟨u'', hu'', hlived'⟩ := h' i u' hu'
  exact ⟨u'', hu'', hlived.trans hlived'⟩

/-- A unit in the place of another. -/
theorem Ok.set (hs : Ok s) (hu : s[i]? = some u) (hu' : u'.Ok) (hlived : u.Lived ct u') :
    Ok (s.modify i fun _ => u') ∧ Lived ct s (s.modify i fun _ => u') := by
  have hget := getElem?_modify_of_getElem? hu fun _ => u'
  constructor
  · intro x hx
    obtain ⟨j, hj⟩ := List.mem_iff_getElem?.mp hx
    rw [hget] at hj
    split_ifs at hj
    · rw [← Option.some.inj hj]
      exact hu'
    · exact hs x (List.mem_of_getElem? hj)
  · intro j x hx
    rw [hget]
    split_ifs with hij
    · rw [← hij, hu] at hx
      rw [← Option.some.inj hx]
      exact ⟨u', rfl, hlived⟩
    · exact ⟨x, hx, .refl ct x⟩

theorem Ok.call (hs : Ok s) (hspares : s.spares c = true) (h : s.call ct c = some s') : Ok s' ∧ Lived ct s s' := by
  obtain ⟨u, hu, h⟩ := Option.bind_eq_some_iff.mp h
  obtain ⟨u', hact, rfl⟩ := Option.map_eq_some_iff.mp h
  rw [spares, hu, Option.all_some] at hspares
  obtain ⟨hok, hlived⟩ := (hs u (List.mem_of_getElem? hu)).act hspares hact
  exact hs.set hu hok hlived

theorem Ok.spares_of_call (hs : Ok s) (h : s.call ct c = some s') (honce : ∀ u ∈ s', u.Once) : s.spares c = true := by
  obtain ⟨u, hu, h⟩ := Option.bind_eq_some_iff.mp h
  obtain ⟨u', hact, rfl⟩ := Option.map_eq_some_iff.mp h
  rw [spares, hu, Option.all_some]
  apply (hs u (List.mem_of_getElem? hu)).spares_of_act hact
  apply honce
  apply List.mem_of_getElem?
  rw [getElem?_modify_of_getElem? hu, if_pos rfl]

theorem Ok.calls (hs : Ok s) (hspares : sparesAll ct cs s = true) (h : calls ct cs s = some s') :
    Ok s' ∧ Lived ct s s' := by
  induction cs generalizing s with
  | nil =>
    rw [← Option.some.inj h]
    exact ⟨hs, .refl ct s⟩
  | cons c cs ih =>
    obtain ⟨t, ht, h⟩ := Option.bind_eq_some_iff.mp h
    rw [sparesAll, ht, Option.all_some, Bool.and_eq_true] at hspares
    obtain ⟨hok, hlived⟩ := hs.call hspares.1 ht
    obtain ⟨hok', hlived'⟩ := ih hok hspares.2 h
    exact ⟨hok', hlived.trans hlived'⟩

/-! ## Events -/

theorem Ok.enter (hs : Ok s) (ct : Nat) (health : Int) (maxHealth : Nat) (pursuits : Pursuits) :
    Ok (s.enter health maxHealth pursuits) ∧ Lived ct s (s.enter health maxHealth pursuits) := by
  have hnew : LifeUnit.Ok (({ health := 0, maxHealth := maxHealth, deadTime := 0, pursuits := pursuits, deaths := 1 } :
      LifeUnit).setHealth health) := LifeUnit.Ok.setHealth ⟨Int.le_refl 0, rfl⟩ (decide_eq_true (.inl rfl))
  constructor
  · intro u hu
    rcases List.mem_append.mp hu with hu | hu
    · exact hs u hu
    · rw [List.mem_singleton.mp hu]
      exact hnew
  · intro i u hu
    refine ⟨u, ?_, .refl ct u⟩
    have hi := (List.getElem?_eq_some_iff.mp hu).1
    exact (List.getElem?_append_left hi).trans hu

/-- No unit dies of what it turns to. -/
theorem Ok.pursue (hs : Ok s) {pursuits : Pursuits} (h : s.pursue i pursuits = some s') :
    Ok s' ∧ ∀ (j : Nat) (u u' : LifeUnit), s[j]? = some u → s'[j]? = some u' → u'.health = u.health := by
  obtain ⟨u, hu, h⟩ := Option.bind_eq_some_iff.mp h
  obtain ⟨u', hact, rfl⟩ := Option.map_eq_some_iff.mp h
  obtain rfl := Option.some.inj hact
  have hget := getElem?_modify_of_getElem? hu fun _ => { u with pursuits := pursuits }
  constructor
  · intro x hx
    obtain ⟨j, hj⟩ := List.mem_iff_getElem?.mp hx
    rw [hget] at hj
    split_ifs at hj
    · rw [← Option.some.inj hj]
      have hok := hs u (List.mem_of_getElem? hu)
      exact ⟨hok.nonneg, hok.once⟩
    · exact hs x (List.mem_of_getElem? hj)
  · intro j x x' hx hx'
    rw [hget] at hx'
    split_ifs at hx' with hij
    · rw [← hij, hu] at hx
      rw [← Option.some.inj hx', ← Option.some.inj hx]
    · rw [Option.some.inj (hx.symm.trans hx')]

/-- Of a unit that the event finds alive and leaves dead, the death has been processed. -/
def Dies (ct : Nat) (s s' : LifeUnits) : Prop := ∀ (i : Nat) (u u' : LifeUnit), s[i]? = some u → s'[i]? = some u' →
  u.health ≠ 0 → u'.health = 0 → u'.Processed ct

theorem Lived.dies (h : Lived ct s s') : Dies ct s s' := by
  intro i u u' hu hu'
  obtain ⟨x, hx, hlived⟩ := h i u hu
  obtain rfl := Option.some.inj (hx.symm.trans hu')
  exact hlived.die

theorem Ok.action (hs : Ok s) {action : LifeAction}
    (hcareful : ((s.actionCalls action).all fun cs => sparesAll ct cs s) = true)
    (h : ((s.actionCalls action).bind fun cs => LifeUnits.calls ct cs s) = some s') : Ok s' ∧ Dies ct s s' := by
  obtain ⟨cs, hcs, h⟩ := Option.bind_eq_some_iff.mp h
  rw [hcs, Option.all_some] at hcareful
  obtain ⟨hok, hlived⟩ := hs.calls hcareful h
  exact ⟨hok, hlived.dies⟩

theorem Ok.handle (hs : Ok s) (hcareful : Careful s e) (h : s.handle e = some s') : Ok s' ∧ Dies e.ct s s' := by
  obtain ⟨action, ct⟩ := e
  cases action with
  | enter health maxHealth pursuits =>
    obtain rfl := Option.some.inj h
    obtain ⟨hok, hlived⟩ := hs.enter ct health maxHealth pursuits
    exact ⟨hok, hlived.dies⟩
  | pursue i pursuits =>
    obtain ⟨hok, hsame⟩ := hs.pursue h
    refine ⟨hok, fun j u u' hu hu' halive hdead => ?_⟩
    rw [hsame j u u' hu hu'] at hdead
    exact absurd hdead halive
  | damage | heal | processAddHPMPOnCritical | regenHPMP | stealOnAttack | skillCost | dealSummonHP | addHpMp | absorb
  | damageWithAbsorb | selfCost | summonDead | skillResurrection | resurrect | resurrectByState | calculateStat
  | levelUp | script => exact hs.action hcareful h

theorem ok_of_run (hrun : system.RunWhere (fun _ s e => Careful s e) hist s) :
    Ok s ∧ ∀ tr ∈ hist, Dies tr.event.ct tr.before tr.after := by
  apply hrun.invariant (I := fun hist s => Ok s ∧ ∀ tr ∈ hist, Dies tr.event.ct tr.before tr.after)
  · rintro s rfl
    exact ⟨fun u hu => (nomatch hu), fun tr htr => (nomatch htr)⟩
  · rintro h s e t _ ⟨hok, hdies⟩ hcareful hstep
    obtain ⟨hok', hdies'⟩ := hok.handle hcareful hstep
    refine ⟨hok', fun tr htr => ?_⟩
    rcases List.mem_cons.mp htr with rfl | htr
    · exact hdies'
    · exact hdies tr htr

/-- Of every set of units and every run whose calls spare the living; the first call that does not breaks it. -/
theorem deathsOnce_of_run (hrun : system.RunWhere (fun _ s e => Careful s e) hist s) : DeathsOnce hist s ∧
    ∀ ct c s', s.call ct c = some s' → ((∀ u ∈ s', u.Once) ↔ s.spares c = true) := by
  obtain ⟨hok, hdies⟩ := ok_of_run hrun
  refine ⟨⟨fun u hu => (hok u hu).once, hdies⟩, fun ct c s' h => ⟨hok.spares_of_call h, fun hspares u hu => ?_⟩⟩
  exact ((hok.call hspares h).1 u hu).once

/-- A player with nothing to do. -/
def idle : Pursuits where
  states :=
    { kind := .player
      stateInfo := fun _ => none
      states := fun _ => ⟨0, 0, fun _ => 0, fun _ => 0, fun _ => 0, fun _ => 0, false, none, 0⟩
      nextState := 0
      m_vStateList := []
      m_vStateListRemovedByDeath := []
      m_nCurrentStateUID := 0 }

/-- One is killed and resurrected, the other loses a part of its health to an absorption. -/
theorem deathsOnce_duel : ∃ hist s, system.RunWhere (fun _ s e => Careful s e) hist s ∧
    s.map (fun u => (u.health, u.deadTime, u.deaths)) = [((30 : Int), 4, 0), (40, 0, 0)] ∧ DeathsOnce hist s := by
  obtain ⟨hist, s, hrun, hs⟩ := System.exists_run_exec
    (fun s : LifeUnits => s.map fun u => (u.health, u.deadTime, u.deaths))
    [⟨.enter 100 100 idle, 1⟩, ⟨.enter 50 50 idle, 2⟩, ⟨.stealOnAttack 1 0 20, 3⟩, ⟨.damage 0 200, 4⟩,
      ⟨.damage 0 10, 5⟩, ⟨.resurrect 0 20, 6⟩, ⟨.absorb 1 0 10 10, 7⟩]
    (System.RunWhere.init rfl : system.RunWhere (fun _ s e => Careful s e) [] [])
    (by decide +kernel : _ = some [((30 : Int), 4, 0), (40, 0, 0)])
  exact ⟨hist, s, hrun, hs, (deathsOnce_of_run hrun).1⟩

/-- An absorption takes the last health of its target, which is dead without a death. -/
theorem not_deathsOnce : ¬∀ hist s, system.Run hist s → DeathsOnce hist s := by
  intro h
  obtain ⟨hist, s, hrun, hs⟩ := System.exists_run_exec
    (fun s : LifeUnits => s.map fun u => (u.health, u.deaths))
    [⟨.enter 10 100 idle, 1⟩, ⟨.enter 50 50 idle, 2⟩, ⟨.absorb 0 1 10 10, 3⟩]
    (System.RunWhere.init rfl : system.Run [] []) (by decide +kernel : _ = some [((0 : Int), 0), (50, 0)])
  obtain ⟨u, t, rfl, hu, -⟩ := List.map_eq_cons_iff.mp hs
  have honce := (h hist _ hrun).once u List.mem_cons_self
  rw [LifeUnit.Once, (Prod.mk.inj hu).1, (Prod.mk.inj hu).2] at honce
  cases honce

end LifeUnits

end RZEmulator.Chihiro
