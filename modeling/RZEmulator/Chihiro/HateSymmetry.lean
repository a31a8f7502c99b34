import RZEmulator.Chihiro.HateSides
import RZEmulator.Lib.Run

/-!
# The symmetry of the hate relation

A unit is to be in the hate list of a monster exactly if the monster is in the enemy list of the unit, and a
unit that dies or leaves is to leave no entry behind. `AddToEnemyList` only appends what is there already, and
`removeFromHateList` leaves the enemy list alone, so that the symmetry is lost with every entry that is made
and every one that is removed, except by the death of the unit that is hated: `claimed_step_iff`.
-/

namespace RZEmulator.Chihiro

open Lib

namespace Units

inductive HateEvent
  | enter (h : Handle) (monster : Option MonsterPart)
  | addHate (m u : Handle) (pt : Int) (c : Sight)
  | removeHate (m u : Handle) (pt : Int) (c : Sight)
  | processAttack (m : Handle) (c : Sight)
  | giveUp (m : Handle) (c : Sight)
  | setModifiers (m : Handle) (l : List (Handle × Int))
  | die (h : Handle) (c : Sight)
  | resurrect (h : Handle)
  | addToWorld (h : Handle)
  | removeFromWorld (h : Handle)
  | delete (h : Handle)

open HateEvent

/-- A new unit has no hate and no enemies. -/
def newUnit (monster : Option MonsterPart) : CombatUnit where
  monster := monster.map fun p => { p with m_vHateList := [] }

def handleHate (w : Units) : HateEvent → Option Units
  | enter h monster =>
    if (w h).isSome = true then none else some (Function.update w h (some (newUnit monster)))
  | .addHate m u pt c => some (w.AddHate m u pt c)
  | .removeHate m u pt c => some (w.removeHate m u pt c)
  | .processAttack m c => some (w.processAttack m c)
  | .giveUp m c => some (w.giveUp m c)
  | setModifiers m l => some (w.updMonster m fun p => { p with m_vHateModifierByState := l })
  | die h c => some ((w.upd h fun u => { u with isDead := true }).onDead h c)
  | resurrect h => some (w.upd h fun u => { u with isDead := false })
  | addToWorld h => some (w.upd h fun u => { u with isInWorld := true })
  | removeFromWorld h => some (w.upd h fun u => { u with isInWorld := false })
  | delete h => some (Function.update w h none)

/-- The two sides agree. -/
structure Symmetric (w : Units) : Prop where
  iff : ∀ m u, u ∈ w.hate m ↔ m ∈ w.enemy u
  hateNodup : ∀ m, (w.hate m).Nodup
  enemyNodup : ∀ u, (w.enemy u).Nodup

/-- The unit that dies or leaves. -/
def HateEvent.departs : HateEvent → Option Handle
  | die h _ | removeFromWorld h | delete h => some h
  | _ => none

/-- After a death or a departure no other unit has an entry for the unit. -/
def Cleared (tr : Transition Units HateEvent) : Prop :=
  ∀ h, tr.event.departs = some h → ∀ x, x ≠ h → h ∉ tr.after.hate x ∧ h ∉ tr.after.enemy x

structure Claimed (hist : History Units HateEvent) (w : Units) : Prop where
  symmetric : Symmetric w
  cleared : ∀ tr ∈ hist, Cleared tr

/-- `AddHate` comes to nothing. -/
def refuses (w : Units) (m u : Handle) : Prop :=
  w.isDead m = true ∨ (w.monster m).all (·.isEnvironmentMonster) = true ∨ (w u).isNone = true

/-- Nothing but the unit itself is on either of its lists. -/
def alone (w : Units) (h : Handle) : Prop := (∀ m ∈ w.enemy h, m = h) ∧ ∀ u ∈ w.hate h, u = h

/-- No entry is made, and none removed except by the death of the unit that is hated; a monster that dies hates
nobody, and a unit that leaves has no enemies either. -/
def Careful (w : Units) : HateEvent → Prop
  | .addHate m u _ _ => w.refuses m u ∨ u ∈ w.hate m
  | .removeHate m u pt _ => ∀ n ∈ w.hateValue m u, pt < n
  | .processAttack m _ => w.targetLost m = false ∨ w.GetTargetHandle m ∉ w.hate m
  | die h _ => ∀ u ∈ w.hate h, u = h
  | removeFromWorld h | delete h => w.alone h
  | enter _ _ | .giveUp _ _ | setModifiers _ _ | resurrect _ | addToWorld _ => True

instance (w : Units) (m u : Handle) : Decidable (w.refuses m u) :=
  inferInstanceAs (Decidable (_ ∨ _ ∨ _))

instance (w : Units) (h : Handle) : Decidable (w.alone h) := inferInstanceAs (Decidable (_ ∧ _))

instance (w : Units) : (e : HateEvent) → Decidable (Careful w e)
  | .addHate m u _ _ => inferInstanceAs (Decidable (w.refuses m u ∨ u ∈ w.hate m))
  | .removeHate m u pt _ => inferInstanceAs (Decidable (∀ n ∈ w.hateValue m u, pt < n))
  | .processAttack m _ => inferInstanceAs (Decidable (w.targetLost m = false ∨ w.GetTargetHandle m ∉ w.hate m))
  | die h _ => inferInstanceAs (Decidable (∀ u ∈ w.hate h, u = h))
  | removeFromWorld h | delete h => inferInstanceAs (Decidable (w.alone h))
  | enter _ _ | .giveUp _ _ | setModifiers _ _ | resurrect _ | addToWorld _ => .isTrue trivial

variable {w w' : Units} {m u h : Handle} {c : Sight} {e : HateEvent} {hist : History Units HateEvent}

/-! ## Steps -/

theorem Symmetric.congr (hw : Symmetric w) (hhate : w'.hate = w.hate) (henemy : w'.enemy = w.enemy) :
    Symmetric w' where
  iff m u := by
    rw [hhate, henemy]
    exact hw.iff m u
  hateNodup m := by
    rw [hhate]
    exact hw.hateNodup m
  enemyNodup u := by
    rw [henemy]
    exact hw.enemyNodup u

theorem Symmetric.of_sameSides (hw : Symmetric w) (h : SameSides w w') : Symmetric w' := hw.congr h.hate h.enemy

/-- An entry that only the hate list has. -/
theorem not_symmetric (hhate : u ∈ w.hate m) (henemy : m ∉ w.enemy u) : ¬Symmetric w := fun hw =>
  henemy ((hw.iff m u).mp hhate)

/-- An entry that only the enemy list has. -/
theorem not_symmetric' (henemy : m ∈ w.enemy u) (hhate : u ∉ w.hate m) : ¬Symmetric w := fun hw =>
  hhate ((hw.iff m u).mpr henemy)

theorem symmetric_addHate_iff (hw : Symmetric w) (m u : Handle) (pt : Int) (c : Sight) :
    Symmetric (w.AddHate m u pt c) ↔ w.refuses m u ∨ u ∈ w.hate m := by
  unfold AddHate
  cases hp : w.monster m with
  | none =>
    have hrefuses : w.refuses m u := .inr (.inl (by rw [hp]; rfl))
    exact ⟨fun _ => .inl hrefuses, fun _ => hw⟩
  | some p =>
    dsimp only
    have hrefuses : (w.isDead m = true ∨ p.isEnvironmentMonster = true ∨ (w u).isNone = true) ↔ w.refuses m u := by
      rw [refuses, hp]
      rfl
    obtain ⟨-, ⟨hmem, hsame⟩ | ⟨hnot, hhate, henemy⟩⟩ := addHate_spec hp u pt c.now
    · have hrest : ∀ w' : Units, SameSides (w.addHate m u p pt c.now) w' → Symmetric w' := fun w' h =>
        hw.of_sameSides (hsame.trans h)
      split_ifs
      · exact ⟨fun _ => .inr hmem, fun _ => hw⟩
      · exact ⟨fun _ => .inr hmem, fun _ => hrest _ (.refl _)⟩
      · exact ⟨fun _ => .inr hmem, fun _ => hrest _ (findNextEnemy_sameSides _ m c)⟩
    · -- the monster gets the unit, but the unit does not get the monster
      have hbroken : ∀ w' : Units, SameSides (w.addHate m u p pt c.now) w' → ¬Symmetric w' := fun w' h => by
        have hfresh : m ∉ w.enemy u := fun hmem => hnot ((hw.iff m u).mpr hmem)
        refine not_symmetric (m := m) (u := u) ?_ ?_
        · rw [h.hate, hhate, Function.update_self]
          exact List.mem_append_right _ List.mem_cons_self
        · rw [h.enemy, henemy, Function.update_self, if_neg hfresh]
          exact hfresh
      split_ifs with hrefused
      · exact ⟨fun _ => .inl (hrefuses.mp hrefused), fun _ => hw⟩
      · exact ⟨fun h => absurd h (hbroken _ (.refl _)),
          fun h => absurd (h.imp_left hrefuses.mpr) (not_or.mpr ⟨hrefused, hnot⟩)⟩
      · exact ⟨fun h => absurd h (hbroken _ (findNextEnemy_sameSides _ m c)),
          fun h => absurd (h.imp_left hrefuses.mpr) (not_or.mpr ⟨hrefused, hnot⟩)⟩

/-- When a tag is removed, the enemy list keeps the monster. -/
theorem not_symmetric_of_filter (hw : Symmetric w) (hmem : u ∈ w.hate m)
    (hhate : w'.hate = Function.update w.hate m ((w.hate m).filter (· ≠ u))) (henemy : w'.enemy = w.enemy) :
    ¬Symmetric w' := by
  refine not_symmetric' (m := m) (u := u) ?_ ?_
  · rw [henemy]
    exact (hw.iff m u).mp hmem
  · rw [hhate, Function.update_self, List.mem_filter]
    exact fun h => absurd (of_decide_eq_true h.2) (not_not.mpr rfl)

theorem symmetric_removeHate_iff (hw : Symmetric w) (m u : Handle) (pt : Int) (c : Sight) :
    Symmetric (w.removeHate m u pt c) ↔ ∀ n ∈ w.hateValue m u, pt < n := by
  obtain ⟨hunits, henemy, hcase⟩ := removeHate_spec (hw.hateNodup m) u pt c
  obtain ⟨hkept, hhate⟩ | ⟨⟨n, hn, hle⟩, hmem, hhate⟩ := hcase
  · refine ⟨fun _ n hn => ?_, fun _ => hw.of_sameSides ⟨hunits, hhate, henemy⟩⟩
    obtain hnone | ⟨n', hn', hlow⟩ := hkept
    · exfalso
      obtain ⟨p, hp, hfor⟩ := Option.bind_eq_some_iff.mp hn
      rw [hate_of_monster hp] at hnone
      exact hnone (mem_of_hateFor hfor)
    · rw [← Option.some.inj (hn'.symm.trans hn)]
      exact hlow
  · exact ⟨fun h => absurd h (not_symmetric_of_filter hw hmem hhate henemy),
      fun h => absurd (h n hn) (not_lt.mpr hle)⟩

theorem symmetric_processAttack_iff (hw : Symmetric w) (m : Handle) (c : Sight) :
    Symmetric (w.processAttack m c) ↔ w.targetLost m = false ∨ w.GetTargetHandle m ∉ w.hate m := by
  unfold processAttack
  split_ifs with hlost
  · obtain ⟨hunits, henemy, hhate⟩ := removeFromHateList_spec (hw.hateNodup m) (w.GetTargetHandle m)
    have hnext := findNextEnemy_sameSides (w.removeFromHateList m (w.GetTargetHandle m)) m c
    by_cases hmem : w.GetTargetHandle m ∈ w.hate m
    · refine ⟨fun h => absurd h (not_symmetric_of_filter hw hmem (hnext.hate.trans hhate)
        (hnext.enemy.trans henemy)), fun h => ?_⟩
      rw [hlost] at h
      exact absurd hmem (h.resolve_left (fun h => Bool.noConfusion h))
    · have hfilter : (w.hate m).filter (· ≠ w.GetTargetHandle m) = w.hate m :=
        List.filter_eq_self.mpr fun x hx => decide_eq_true fun heq => hmem (heq ▸ hx)
      rw [hfilter, Function.update_eq_self] at hhate
      exact ⟨fun _ => .inr hmem, fun _ => hw.of_sameSides (SameSides.trans ⟨hunits, hhate, henemy⟩ hnext)⟩
  · rw [Bool.not_eq_true] at hlost
    exact ⟨fun _ => .inl hlost, fun _ => hw⟩

theorem giveUp_sameSides (w : Units) (m : Handle) (c : Sight) : SameSides w (w.giveUp m c) := by
  unfold giveUp
  cases hp : w.monster m with
  | none => exact .refl w
  | some p =>
    refine SameSides.trans (updMonster_sameSides_of hp ?_) (findNextEnemy_sameSides _ m c)
    have huid : ∀ ht : HateTag, ht.deactivate.uid = ht.uid := fun _ => rfl
    refine (map_uid_updTag _ _ huid).trans ?_
    rw [map_uid_getHateTag, map_uid_getHateTag]

theorem symmetric_onDead_iff (hw : Symmetric w) (h : Handle) (c : Sight) :
    Symmetric (w.onDead h c) ↔ ∀ u ∈ w.hate h, u = h := by
  obtain ⟨-, hhate, henemy⟩ := onDead_spec hw.hateNodup hw.enemyNodup h c
  have hself : ∀ u, u ∈ (w.onDead h c).hate h ↔ u ∈ w.hate h ∧ u ≠ h := fun u => by
    rw [hhate]
    dsimp only
    split_ifs with hmem
    · rw [List.mem_filter, decide_eq_true_iff]
    · exact ⟨fun hu => ⟨hu, fun heq => hmem ((hw.iff h h).mp (heq ▸ hu))⟩, And.left⟩
  constructor
  · intro hsymm u hu
    by_contra hne
    -- the dead monster goes on hating the unit, which has been told of its death
    have hstays := (hself u).mpr ⟨hu, hne⟩
    refine not_symmetric hstays ?_ hsymm
    rw [henemy]
    dsimp only
    rw [if_pos hstays, List.mem_filter, decide_eq_true_iff]
    exact fun hmem => hmem.2 rfl
  · intro halone
    have hnone : ∀ u, u ∉ (w.onDead h c).hate h := fun u hu => ((hself u).mp hu).2 (halone u ((hself u).mp hu).1)
    have henemy' : (w.onDead h c).enemy = Function.update w.enemy h [] := by
      rw [henemy]
      funext u
      rw [if_neg (hnone u)]
    refine ⟨fun m u => ?_, fun m => ?_, fun u => ?_⟩
    · rw [henemy', Function.update_apply, hhate]
      dsimp only
      by_cases hu : u = h
      · rw [if_pos hu, hu]
        refine ⟨fun hmem => ?_, fun hmem => absurd hmem List.not_mem_nil⟩
        split_ifs at hmem with hm
        · exact absurd rfl (of_decide_eq_true (List.mem_filter.mp hmem).2)
        · exact absurd ((hw.iff m h).mp hmem) hm
      · rw [if_neg hu, ← hw.iff m u]
        split_ifs
        · rw [List.mem_filter, decide_eq_true_iff]
          exact and_iff_left hu
        · exact Iff.rfl
    · rw [hhate]
      dsimp only
      split_ifs
      · exact (hw.hateNodup m).filter _
      · exact hw.hateNodup m
    · rw [henemy', Function.update_apply]
      split_ifs
      · exact List.nodup_nil
      · exact hw.enemyNodup u

/-- If the dead monster hated nobody, nobody has an entry for it, or for the dead unit. -/
theorem cleared_onDead (hw : Symmetric w) (h : Handle) (c : Sight) (hsymm : Symmetric (w.onDead h c)) (x : Handle)
    (hx : x ≠ h) : h ∉ (w.onDead h c).hate x ∧ h ∉ (w.onDead h c).enemy x := by
  obtain ⟨-, hhate, henemy⟩ := onDead_spec hw.hateNodup hw.enemyNodup h c
  have halone := (symmetric_onDead_iff hw h c).mp hsymm
  constructor
  · intro hmem
    rw [hhate] at hmem
    dsimp only at hmem
    split_ifs at hmem with hm
    · exact absurd rfl (of_decide_eq_true (List.mem_filter.mp hmem).2)
    · exact hm ((hw.iff x h).mp hmem)
  · intro hmem
    have hstill := (hsymm.iff h x).mpr hmem
    rw [hhate] at hstill
    dsimp only at hstill
    split_ifs at hstill
    · exact hx (halone x (List.mem_filter.mp hstill).1)
    · exact hx (halone x hstill)

/-- A unit leaves no entry behind exactly if it is alone. -/
theorem noEntry_iff_alone (hw : Symmetric w) (h : Handle) :
    (∀ x, x ≠ h → h ∉ w.hate x ∧ h ∉ w.enemy x) ↔ w.alone h := by
  constructor
  · intro hnone
    refine ⟨fun m hm => ?_, fun u hu => ?_⟩
    · by_contra hne
      exact (hnone m hne).1 ((hw.iff m h).mpr hm)
    · by_contra hne
      exact (hnone u hne).2 ((hw.iff h u).mp hu)
  · rintro ⟨henemy, hhate⟩ x hx
    exact ⟨fun hmem => hx (henemy x ((hw.iff x h).mp hmem)), fun hmem => hx (hhate x ((hw.iff h x).mpr hmem))⟩

theorem hate_update (w : Units) (h : Handle) (x : Option CombatUnit) :
    hate (Function.update w h x) = Function.update w.hate h ((x.map CombatUnit.hate).getD []) := by
  funext h'
  unfold hate
  by_cases hh : h' = h
  · rw [hh, Function.update_self, Function.update_self]
  · rw [Function.update_of_ne hh, Function.update_of_ne hh]

theorem enemy_update (w : Units) (h : Handle) (x : Option CombatUnit) :
    enemy (Function.update w h x) = Function.update w.enemy h ((x.map CombatUnit.m_vEnemyList).getD []) := by
  funext h'
  unfold enemy
  by_cases hh : h' = h
  · rw [hh, Function.update_self, Function.update_self]
  · rw [Function.update_of_ne hh, Function.update_of_ne hh]

theorem newUnit_hate (monster : Option MonsterPart) : (newUnit monster).hate = [] := by
  cases monster with
  | none => rfl
  | some p => rfl

theorem symmetric_enter (hw : Symmetric w) (hnone : ¬(w h).isSome = true) (monster : Option MonsterPart) :
    Symmetric (Function.update w h (some (newUnit monster))) := by
  have hh : w h = none := Option.not_isSome_iff_eq_none.mp hnone
  have hhate : hate (Function.update w h (some (newUnit monster))) = w.hate := by
    rw [hate_update, Option.map_some, Option.getD_some, newUnit_hate]
    refine Eq.trans ?_ (Function.update_eq_self h w.hate)
    rw [show w.hate h = [] by rw [hate, hh]; rfl]
  have henemy : enemy (Function.update w h (some (newUnit monster))) = w.enemy := by
    rw [enemy_update]
    refine Eq.trans ?_ (Function.update_eq_self h w.enemy)
    rw [show w.enemy h = [] by rw [enemy, hh]; rfl]
    rfl
  exact hw.congr hhate henemy

theorem symmetric_delete (hw : Symmetric w) (halone : w.alone h) : Symmetric (Function.update w h none) := by
  have hnone := (noEntry_iff_alone hw h).mpr halone
  refine ⟨fun m u => ?_, fun m => ?_, fun u => ?_⟩
  · rw [hate_update, enemy_update, Function.update_apply, Function.update_apply]
    by_cases hm : m = h <;> by_cases hu : u = h
    · rw [if_pos hm, if_pos hu]
      exact ⟨fun h => absurd h List.not_mem_nil, fun h => absurd h List.not_mem_nil⟩
    · rw [if_pos hm, if_neg hu, hm]
      exact ⟨fun h => absurd h List.not_mem_nil, fun h => absurd h (hnone u hu).2⟩
    · rw [if_neg hm, if_pos hu, hu]
      exact ⟨fun h => absurd h (hnone m hm).1, fun h => absurd h List.not_mem_nil⟩
    · rw [if_neg hm, if_neg hu]
      exact hw.iff m u
  · rw [hate_update, Function.update_apply]
    split_ifs
    · exact List.nodup_nil
    · exact hw.hateNodup m
  · rw [enemy_update, Function.update_apply]
    split_ifs
    · exact List.nodup_nil
    · exact hw.enemyNodup u

/-! ## Runs -/

theorem cleared_of_departs_none (h : e.departs = none) : Cleared ⟨w, e, w'⟩ := fun x hx => by
  rw [h] at hx
  cases hx

theorem cleared_iff (h : e.departs = some u) :
    Cleared ⟨w, e, w'⟩ ↔ ∀ x, x ≠ u → u ∉ w'.hate x ∧ u ∉ w'.enemy x := by
  unfold Cleared
  rw [h]
  exact ⟨fun hall => hall u rfl, fun hall v hv => Option.some.inj hv ▸ hall⟩

/-- A careful step keeps the symmetry and clears what departs, and only a careful one does. -/
theorem symmetric_step_iff (hw : Symmetric w) (hs : w.handleHate e = some w') :
    Symmetric w' ∧ Cleared ⟨w, e, w'⟩ ↔ Careful w e := by
  cases e with
  | enter h monster =>
    simp only [handleHate] at hs
    split_ifs at hs with hnone
    cases hs
    exact ⟨fun _ => trivial, fun _ => ⟨symmetric_enter hw hnone monster, cleared_of_departs_none rfl⟩⟩
  | addHate m u pt c =>
    cases hs
    rw [symmetric_addHate_iff hw]
    exact and_iff_left (cleared_of_departs_none rfl)
  | removeHate m u pt c =>
    cases hs
    rw [symmetric_removeHate_iff hw]
    exact and_iff_left (cleared_of_departs_none rfl)
  | processAttack m c =>
    cases hs
    rw [symmetric_processAttack_iff hw]
    exact and_iff_left (cleared_of_departs_none rfl)
  | giveUp m c =>
    cases hs
    exact ⟨fun _ => trivial, fun _ => ⟨hw.of_sameSides (giveUp_sameSides w m c), cleared_of_departs_none rfl⟩⟩
  | setModifiers m l =>
    cases hs
    exact ⟨fun _ => trivial, fun _ => ⟨hw.of_sameSides (updMonster_sameSides w m fun _ => rfl),
      cleared_of_departs_none rfl⟩⟩
  | die h c =>
    cases hs
    obtain ⟨hhate, henemy⟩ := upd_sides w h (f := fun u => { u with isDead := true }) (fun _ => rfl) fun _ => rfl
    have hw' := hw.congr hhate henemy
    have hiff := symmetric_onDead_iff hw' h c
    rw [hhate] at hiff
    rw [cleared_iff (u := h) rfl, hiff]
    exact and_iff_left_of_imp fun halone => cleared_onDead hw' h c (hiff.mpr halone)
  | resurrect h =>
    cases hs
    obtain ⟨hhate, henemy⟩ := upd_sides w h (f := fun u => { u with isDead := false }) (fun _ => rfl) fun _ => rfl
    exact ⟨fun _ => trivial, fun _ => ⟨hw.congr hhate henemy, cleared_of_departs_none rfl⟩⟩
  | addToWorld h =>
    cases hs
    obtain ⟨hhate, henemy⟩ := upd_sides w h (f := fun u => { u with isInWorld := true }) (fun _ => rfl) fun _ => rfl
    exact ⟨fun _ => trivial, fun _ => ⟨hw.congr hhate henemy, cleared_of_departs_none rfl⟩⟩
  | removeFromWorld h =>
    cases hs
    obtain ⟨hhate, henemy⟩ := upd_sides w h (f := fun u => { u with isInWorld := false }) (fun _ => rfl) fun _ => rfl
    rw [cleared_iff (u := h) rfl, hhate, henemy, noEntry_iff_alone hw]
    exact and_iff_right (hw.congr hhate henemy)
  | delete h =>
    cases hs
    rw [cleared_iff (u := h) rfl]
    have hothers : (∀ x, x ≠ h → h ∉ hate (Function.update w h none) x ∧ h ∉ enemy (Function.update w h none) x) ↔
        w.alone h := by
      rw [← noEntry_iff_alone hw]
      refine forall_congr' fun x => forall_congr' fun hx => ?_
      rw [hate_update, enemy_update, Function.update_of_ne hx, Function.update_of_ne hx]
    rw [hothers]
    exact ⟨And.right, fun halone => ⟨symmetric_delete hw halone, halone⟩⟩

theorem claimed_step_iff (hc : Claimed hist w) (hs : w.handleHate e = some w') :
    Claimed (⟨w, e, w'⟩ :: hist) w' ↔ Careful w e := by
  rw [← symmetric_step_iff hc.symmetric hs]
  constructor
  · exact fun hc' => ⟨hc'.symmetric, hc'.cleared _ List.mem_cons_self⟩
  · exact fun ⟨hsymm, hcleared⟩ => ⟨hsymm, List.forall_mem_cons.mpr ⟨hcleared, hc.cleared⟩⟩

/-- The runs that begin with units whose lists agree; no units at all are one case. -/
def hateSystem : System Units HateEvent := System.ofFun Symmetric handleHate

theorem claimed_of_run (hrun : hateSystem.RunWhere (fun _ w e => Careful w e) hist w) : Claimed hist w := by
  refine hrun.invariant (I := Claimed) ?_ ?_
  · exact fun w hw => ⟨hw, fun _ h => absurd h List.not_mem_nil⟩
  · exact fun hist w e w' _ hc he hs => (claimed_step_iff hc hs).mpr he

/-- In every run of careful steps the two sides agree and what dies or leaves is forgotten, and the next step keeps
it so if and only if it is careful. -/
theorem hateSymmetry_of_run (hrun : hateSystem.RunWhere (fun _ w e => Careful w e) hist w) :
    Claimed hist w ∧ ∀ e w', w.handleHate e = some w' → (Claimed (⟨w, e, w'⟩ :: hist) w' ↔ Careful w e) :=
  ⟨claimed_of_run hrun, fun _ _ hs => claimed_step_iff (claimed_of_run hrun) hs⟩

/-- The monster 2 hates the player 1, who has it on his list. -/
def duel : Units := fun h =>
  if h = 1 then some { m_vEnemyList := [2] }
  else if h = 2 then some { monster := some { m_vHateList := [{ uid := 1, nTime := 0, nHate := 5 }] } }
  else none

theorem duel_symmetric : Symmetric duel := by
  have hhate : ∀ m, duel.hate m = if m = 2 then [1] else [] := fun m => by
    unfold hate duel
    by_cases h1 : m = 1
    · rw [h1]
      rfl
    · rw [if_neg h1]
      split_ifs
      · rfl
      · rfl
  have henemy : ∀ u, duel.enemy u = if u = 1 then [2] else [] := fun u => by
    unfold enemy duel
    split_ifs <;> rfl
  refine ⟨fun m u => ?_, fun m => ?_, fun u => ?_⟩
  · rw [hhate, henemy]
    split_ifs with hm hu hu
    · rw [hm, hu]
      decide
    · exact ⟨fun h => absurd (List.mem_singleton.mp h) hu, fun h => absurd h List.not_mem_nil⟩
    · exact ⟨fun h => absurd h List.not_mem_nil, fun h => absurd (List.mem_singleton.mp h) hm⟩
    · exact ⟨fun h => absurd h List.not_mem_nil, fun h => absurd h List.not_mem_nil⟩
  · rw [hhate]
    split_ifs <;> simp
  · rw [henemy]
    split_ifs <;> simp

def calm : Sight where
  now := 100
  visible _ _ := true
  feared _ := false

/-- The hated player hits again, dies and leaves. -/
theorem hateSymmetry_of_run_duel : ∃ hist w, hateSystem.RunWhere (fun _ w e => Careful w e) hist w ∧
    (Claimed hist w ∧ ∀ e w', w.handleHate e = some w' → (Claimed (⟨w, e, w'⟩ :: hist) w' ↔ Careful w e)) ∧
    w.hate 2 = [] ∧ (w 1).isNone = true := by
  have hex : (System.exec (fun _ w e => Careful w e) handleHate [.addHate 2 1 7 calm, die 1 calm, removeFromWorld 1,
      delete 1] [] duel).map (fun x => (x.2.hate 2, (x.2 1).isNone)) = some ([], true) := by decide +kernel
  obtain ⟨hist, w, hrun, hend⟩ := System.exists_run_exec (fun w : Units => (w.hate 2, (w 1).isNone)) _
    (System.RunWhere.init (S := hateSystem) duel_symmetric) hex
  obtain ⟨hhate, hgone⟩ := Prod.mk.inj hend
  exact ⟨hist, w, hrun, hateSymmetry_of_run hrun, hhate, hgone⟩

/-- A monster that is hit gets the player into its hate list, and the player does not get the monster. -/
theorem not_claimed_hate : ¬ ∀ (hist : History Units HateEvent) (w : Units),
    (System.ofFun (fun w : Units => ∀ h, w h = none) handleHate).Run hist w → Claimed hist w := by
  intro hall
  have hex : (System.exec (fun _ _ _ => True) handleHate [enter 1 none, enter 2 (some {}), .addHate 2 1 7 calm] []
      fun _ => none).map (fun x => (x.2.hate 2, x.2.enemy 1)) = some ([1], []) := by decide +kernel
  obtain ⟨hist, w, hrun, hend⟩ := System.exists_run_exec (fun w : Units => (w.hate 2, w.enemy 1)) _
    (System.RunWhere.init (S := System.ofFun (fun w : Units => ∀ h, w h = none) handleHate) fun _ => rfl) hex
  obtain ⟨hhate, henemy⟩ := Prod.mk.inj hend
  have hiff := (hall hist w hrun).symmetric.iff 2 1
  rw [hhate, henemy] at hiff
  exact absurd hiff (by decide)

end Units

end RZEmulator.Chihiro
