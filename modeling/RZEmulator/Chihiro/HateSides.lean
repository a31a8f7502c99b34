import Mathlib.Logic.Function.Basic
import RZEmulator.Chihiro.Hate
import RZEmulator.Lib.Keyed

/-!
# The two sides of the hate relation

`hate w m` are the units that the monster `m` hates, `enemy w u` the monsters that the unit `u` has on its
enemy list. For each function of the model one lemma says what it does to the two sides, and that it leaves
alone which units there are, which of them are dead and which are in the world (`SameUnits`).
-/

namespace RZEmulator.Chihiro

open Lib

def CombatUnit.hate (u : CombatUnit) : List Handle :=
  (u.monster.map fun p => p.m_vHateList.map HateTag.uid).getD []

namespace Units

def hate (w : Units) (m : Handle) : List Handle := ((w m).map CombatUnit.hate).getD []

def enemy (w : Units) (u : Handle) : List Handle := ((w u).map CombatUnit.m_vEnemyList).getD []

/-- What no function of the model changes. -/
structure SameUnits (w w' : Units) : Prop where
  isSome : ∀ h, (w' h).isSome = (w h).isSome
  isMonster : ∀ h, (w'.monster h).isSome = (w.monster h).isSome
  isDead : ∀ h, w'.isDead h = w.isDead h
  isInWorld : ∀ h, (w' h).map CombatUnit.isInWorld = (w h).map CombatUnit.isInWorld

/-- Both sides are the same. -/
structure SameSides (w w' : Units) : Prop extends SameUnits w w' where
  hate : w'.hate = w.hate
  enemy : w'.enemy = w.enemy

variable {w w' w'' : Units} {h m u : Handle} {c : Sight}

theorem SameUnits.refl (w : Units) : SameUnits w w := ⟨fun _ => rfl, fun _ => rfl, fun _ => rfl, fun _ => rfl⟩

theorem SameUnits.trans (hw : SameUnits w w') (hw' : SameUnits w' w'') : SameUnits w w'' where
  isSome h := (hw'.isSome h).trans (hw.isSome h)
  isMonster h := (hw'.isMonster h).trans (hw.isMonster h)
  isDead h := (hw'.isDead h).trans (hw.isDead h)
  isInWorld h := (hw'.isInWorld h).trans (hw.isInWorld h)

theorem SameSides.refl (w : Units) : SameSides w w := ⟨.refl w, rfl, rfl⟩

theorem SameSides.trans (hw : SameSides w w') (hw' : SameSides w' w'') : SameSides w w'' where
  toSameUnits := hw.toSameUnits.trans hw'.toSameUnits
  hate := hw'.hate.trans hw.hate
  enemy := hw'.enemy.trans hw.enemy

/-! ## Changes of one unit -/

theorem upd_self (w : Units) (h : Handle) (f : CombatUnit → CombatUnit) : w.upd h f h = (w h).map f := if_pos rfl

theorem upd_of_ne (w : Units) {h h' : Handle} (f : CombatUnit → CombatUnit) (hne : h' ≠ h) :
    w.upd h f h' = w h' := if_neg hne

theorem upd_sameUnits (w : Units) (h : Handle) {f : CombatUnit → CombatUnit}
    (hf : ∀ u, (f u).monster.isSome = u.monster.isSome ∧ (f u).isDead = u.isDead ∧
      (f u).isInWorld = u.isInWorld) : SameUnits w (w.upd h f) := by
  refine ⟨fun h' => ?_, fun h' => ?_, fun h' => ?_, fun h' => ?_⟩ <;> by_cases hh : h' = h
  · rw [hh, upd_self, Option.isSome_map]
  · rw [upd_of_ne w f hh]
  · unfold monster
    rw [hh, upd_self]
    cases w h with
    | none => rfl
    | some u => exact (hf u).1
  · unfold monster
    rw [upd_of_ne w f hh]
  · unfold isDead
    rw [hh, upd_self]
    cases w h with
    | none => rfl
    | some u => exact (hf u).2.1
  · unfold isDead
    rw [upd_of_ne w f hh]
  · rw [hh, upd_self]
    cases w h with
    | none => rfl
    | some u => exact congrArg some (hf u).2.2
  · rw [upd_of_ne w f hh]

theorem hate_upd (w : Units) (h : Handle) (f : CombatUnit → CombatUnit) :
    (w.upd h f).hate = Function.update w.hate h (((w h).map fun u => (f u).hate).getD []) := by
  funext h'
  by_cases hh : h' = h
  · rw [hh, Function.update_self, hate, upd_self, Option.map_map]
    rfl
  · rw [Function.update_of_ne hh, hate, upd_of_ne w f hh]
    rfl

theorem enemy_upd (w : Units) (h : Handle) (f : CombatUnit → CombatUnit) :
    (w.upd h f).enemy = Function.update w.enemy h (((w h).map fun u => (f u).m_vEnemyList).getD []) := by
  funext h'
  by_cases hh : h' = h
  · rw [hh, Function.update_self, enemy, upd_self, Option.map_map]
    rfl
  · rw [Function.update_of_ne hh, enemy, upd_of_ne w f hh]
    rfl

theorem upd_sides (w : Units) (h : Handle) {f : CombatUnit → CombatUnit} (hhate : ∀ u, (f u).hate = u.hate)
    (henemy : ∀ u, (f u).m_vEnemyList = u.m_vEnemyList) :
    (w.upd h f).hate = w.hate ∧ (w.upd h f).enemy = w.enemy := by
  constructor
  · rw [hate_upd]
    simp only [hhate]
    exact Function.update_eq_self h w.hate
  · rw [enemy_upd]
    simp only [henemy]
    exact Function.update_eq_self h w.enemy

theorem upd_sameSides (w : Units) (h : Handle) {f : CombatUnit → CombatUnit}
    (hf : ∀ u, (f u).monster.isSome = u.monster.isSome ∧ (f u).isDead = u.isDead ∧ (f u).isInWorld = u.isInWorld)
    (hhate : ∀ u, (f u).hate = u.hate) (henemy : ∀ u, (f u).m_vEnemyList = u.m_vEnemyList) :
    SameSides w (w.upd h f) :=
  ⟨upd_sameUnits w h hf, (upd_sides w h hhate henemy).1, (upd_sides w h hhate henemy).2⟩

theorem updMonster_sameUnits (w : Units) (m : Handle) (f : MonsterPart → MonsterPart) :
    SameUnits w (w.updMonster m f) :=
  upd_sameUnits w m fun _ => ⟨Option.isSome_map, rfl, rfl⟩

theorem updMonster_enemy (w : Units) (m : Handle) (f : MonsterPart → MonsterPart) :
    (w.updMonster m f).enemy = w.enemy := by
  unfold updMonster
  rw [enemy_upd]
  exact Function.update_eq_self m w.enemy

/-- A change of a monster whose hate list is known. -/
theorem updMonster_hate {p : MonsterPart} (hm : w.monster m = some p) (f : MonsterPart → MonsterPart) :
    (w.updMonster m f).hate = Function.update w.hate m ((f p).m_vHateList.map HateTag.uid) := by
  unfold updMonster
  rw [hate_upd]
  congr 1
  obtain ⟨u, hu, hp⟩ := Option.bind_eq_some_iff.mp hm
  simp only [hu, Option.map_some, Option.getD_some, CombatUnit.hate, hp]

theorem updMonster_sameSides (w : Units) (m : Handle) {f : MonsterPart → MonsterPart}
    (hf : ∀ p, (f p).m_vHateList.map HateTag.uid = p.m_vHateList.map HateTag.uid) :
    SameSides w (w.updMonster m f) := by
  refine upd_sameSides w m (fun _ => ⟨Option.isSome_map, rfl, rfl⟩) (fun u => ?_) fun _ => rfl
  unfold CombatUnit.hate
  cases u.monster with
  | none => rfl
  | some p => exact hf p

theorem hate_of_monster {p : MonsterPart} (hm : w.monster m = some p) :
    w.hate m = p.m_vHateList.map HateTag.uid := by
  obtain ⟨u, hu, hp⟩ := Option.bind_eq_some_iff.mp hm
  simp only [hate, hu, Option.map_some, Option.getD_some, CombatUnit.hate, hp]

/-- A change of a known monster that does not touch whom it hates. -/
theorem updMonster_sameSides_of {p : MonsterPart} (hm : w.monster m = some p) {f : MonsterPart → MonsterPart}
    (hf : (f p).m_vHateList.map HateTag.uid = p.m_vHateList.map HateTag.uid) :
    SameSides w (w.updMonster m f) := by
  refine ⟨updMonster_sameUnits w m f, ?_, updMonster_enemy w m f⟩
  rw [updMonster_hate hm, hf, ← hate_of_monster hm]
  exact Function.update_eq_self m w.hate

theorem hate_of_not_monster (hm : w.monster m = none) : w.hate m = [] := by
  unfold hate
  cases hu : w m with
  | none => rfl
  | some u =>
    have hp : u.monster = none := by simpa [monster, hu] using hm
    simp only [Option.map_some, Option.getD_some, CombatUnit.hate, hp, Option.map_none, Option.getD_none]

/-- There is nothing to change in a unit that is no monster. -/
theorem updMonster_sameSides_of_none (hm : w.monster m = none) (f : MonsterPart → MonsterPart) :
    SameSides w (w.updMonster m f) := by
  refine ⟨updMonster_sameUnits w m f, ?_, updMonster_enemy w m f⟩
  unfold updMonster
  rw [hate_upd]
  have hself : ((w m).map fun u => CombatUnit.hate { u with monster := u.monster.map f }).getD [] = w.hate m := by
    rw [hate_of_not_monster hm]
    cases hu : w m with
    | none => rfl
    | some u =>
      have hp : u.monster = none := by simpa [monster, hu] using hm
      simp only [Option.map_some, Option.getD_some, CombatUnit.hate, hp, Option.map_none, Option.getD_none]
  rw [hself]
  exact Function.update_eq_self m w.hate

theorem updMonster_monster (w : Units) (m : Handle) (f : MonsterPart → MonsterPart) :
    (w.updMonster m f).monster m = (w.monster m).map f := by
  unfold monster updMonster
  rw [upd_self]
  cases w m with
  | none => rfl
  | some u => rfl

/-! ## Targets -/

theorem setTarget_sameSides (w : Units) (h target : Handle) : SameSides w (w.setTarget h target) :=
  upd_sameSides w h (fun _ => ⟨rfl, rfl, rfl⟩) (fun _ => rfl) fun _ => rfl

theorem setMaxHate_sameSides (w : Units) (m : Handle) (n : Int) :
    SameSides w (w.updMonster m fun p => { p with m_nMaxHate := n }) :=
  updMonster_sameSides w m fun _ => rfl

theorem comeBackHome_sameSides (w : Units) (m : Handle) (c : Sight) : SameSides w (w.comeBackHome m c) := by
  unfold comeBackHome
  split_ifs
  · exact .refl w
  · exact (setTarget_sameSides w m 0).trans (setMaxHate_sameSides _ m 0)

theorem findNextEnemy_sameSides (w : Units) (m : Handle) (c : Sight) : SameSides w (w.findNextEnemy m c) := by
  unfold findNextEnemy
  cases w.monster m with
  | none => exact .refl w
  | some p =>
    dsimp only
    split_ifs
    · exact comeBackHome_sameSides w m c
    · exact (setMaxHate_sameSides w m _).trans (setTarget_sameSides _ m _)

theorem retarget_sameSides (w : Units) (m h : Handle) (nMaxHate nHate : Int) :
    SameSides w (w.retarget m h nMaxHate nHate) := by
  unfold retarget
  dsimp only
  split_ifs
  · exact (setMaxHate_sameSides w m nHate).trans (setTarget_sameSides _ m h)
  · exact setMaxHate_sameSides w m nHate
  · exact (setMaxHate_sameSides w m nHate).trans (setTarget_sameSides _ m h)
  · exact setMaxHate_sameSides w m nHate
  · exact .refl w

/-! ## Tags -/

/-- The hate in the tag of the unit. -/
def hateFor (l : List HateTag) (u : Handle) : Option Int :=
  (l.find? fun ht => decide (ht.uid = u)).map HateTag.nHate

theorem map_uid_modify (l : List HateTag) (i : Nat) {f : HateTag → HateTag} (hf : ∀ ht, (f ht).uid = ht.uid) :
    (l.modify i f).map HateTag.uid = l.map HateTag.uid := by
  refine List.ext_getElem? fun j => ?_
  rw [List.getElem?_map, List.getElem?_map, List.getElem?_modify]
  cases l[j]? with
  | none => rfl
  | some ht =>
    show some (if i = j then f ht else ht).uid = some ht.uid
    split_ifs
    · rw [hf]
    · rfl

theorem map_uid_updTag (l : List HateTag) (u : Handle) {f : HateTag → HateTag} (hf : ∀ ht, (f ht).uid = ht.uid) :
    (updTag l u f).map HateTag.uid = l.map HateTag.uid := by
  unfold updTag
  cases l.findIdx? fun ht => decide (ht.uid = u) with
  | none => rfl
  | some i => exact map_uid_modify l i hf

theorem mem_of_hateFor {l : List HateTag} {u : Handle} {n : Int} (h : hateFor l u = some n) :
    u ∈ l.map HateTag.uid := by
  obtain ⟨ht, hfind, -⟩ := Option.map_eq_some_iff.mp h
  have huid := List.find?_some hfind
  exact List.mem_map.mpr ⟨ht, List.mem_of_find?_eq_some hfind, of_decide_eq_true huid⟩

theorem hateFor_modify {l : List HateTag} {u : Handle} {i : Nat}
    (hfind : l.findIdx? (fun ht => decide (ht.uid = u)) = some i) {f : HateTag → HateTag}
    (hf : ∀ ht, (f ht).uid = ht.uid) : hateFor (l.modify i f) u = (l[i]?).map fun ht => (f ht).nHate := by
  obtain ⟨hi, huid, hfirst⟩ := List.findIdx?_eq_some_iff_getElem.mp hfind
  have hi' : i < (l.modify i f).length := by
    rw [List.length_modify]
    exact hi
  have hfound : (l.modify i f).find? (fun ht => decide (ht.uid = u)) = some (f l[i]) := by
    refine List.find?_eq_some_iff_getElem.mpr ⟨decide_eq_true ((hf _).trans (of_decide_eq_true huid)), i, hi', ?_, ?_⟩
    · rw [List.getElem_modify, if_pos rfl]
    · intro j hj
      have hne : i ≠ j := by omega
      simpa [List.getElem_modify, hne] using hfirst j hj
  rw [hateFor, hfound, List.getElem?_eq_getElem hi]
  rfl

/-- There is no tag of the unit, or it is found, with its hate, and only its time is changed. -/
theorem getHateTag_cases (l : List HateTag) (u : Handle) (t : Nat) :
    u ∉ l.map HateTag.uid ∧ getHateTag l u t = (none, l) ∨
      u ∈ l.map HateTag.uid ∧ ∃ ht l', getHateTag l u t = (some ht, l') ∧ hateFor l u = some ht.nHate ∧
        hateFor l' u = some ht.nHate ∧ l'.map HateTag.uid = l.map HateTag.uid := by
  unfold getHateTag
  cases hfind : l.findIdx? fun ht => decide (ht.uid = u) with
  | none =>
    refine .inl ⟨fun hmem => ?_, rfl⟩
    obtain ⟨ht, hht, huid⟩ := List.mem_map.mp hmem
    exact absurd huid (of_decide_eq_false (List.findIdx?_eq_none_iff.mp hfind ht hht))
  | some i =>
    obtain ⟨hi, huid, hfirst⟩ := List.findIdx?_eq_some_iff_getElem.mp hfind
    have hfound : l.find? (fun ht => decide (ht.uid = u)) = some l[i] :=
      List.find?_eq_some_iff_getElem.mpr ⟨huid, i, hi, rfl, fun j hj => by simpa using hfirst j hj⟩
    refine .inr ⟨List.mem_map.mpr ⟨l[i], List.getElem_mem hi, of_decide_eq_true huid⟩, l[i].setTime t,
      l.modify i (·.setTime t), ?_, ?_, ?_, ?_⟩
    · dsimp only
      rw [List.getElem?_modify_eq, List.getElem?_eq_getElem hi]
      rfl
    · rw [hateFor, hfound]
      rfl
    · have htime : ∀ ht : HateTag, (ht.setTime t).uid = ht.uid := fun _ => rfl
      rw [hateFor_modify hfind htime, List.getElem?_eq_getElem hi]
      rfl
    · exact map_uid_modify l i fun _ => rfl

theorem map_uid_getHateTag (l : List HateTag) (u : Handle) (t : Nat) :
    (getHateTag l u t).2.map HateTag.uid = l.map HateTag.uid := by
  obtain ⟨-, hget⟩ | ⟨-, ht, l', hget, -, -, hmap⟩ := getHateTag_cases l u t
  · rw [hget]
  · rw [hget]
    exact hmap

/-- Erasing the last tag of a unit, if there is only one. -/
theorem map_uid_eraseLast {l : List HateTag} (hl : (l.map HateTag.uid).Nodup) (u : Handle) :
    (eraseLast l u).map HateTag.uid = (l.map HateTag.uid).filter (· ≠ u) := by
  have hrev : (l.reverse.map HateTag.uid).Nodup := by
    rw [List.map_reverse]
    exact List.nodup_reverse.mpr hl
  have herase := eraseP_key_eq_filter (k := u) hrev (q := fun ht => decide (ht.uid = u)) fun ht _ => by
    rw [decide_eq_true_iff]
  unfold eraseLast
  rw [herase, List.filter_reverse, List.reverse_reverse, List.filter_map]
  rfl

/-! ## What the functions do to the sides -/

theorem addToEnemyList_sides (w : Units) (u m : Handle) :
    SameUnits w (w.addToEnemyList u m) ∧ (w.addToEnemyList u m).hate = w.hate ∧
      (w.addToEnemyList u m).enemy = Function.update w.enemy u
        (if m ∈ w.enemy u then w.enemy u ++ [m] else w.enemy u) := by
  refine ⟨upd_sameUnits w u fun x => ?_, ?_, ?_⟩
  · split_ifs <;> exact ⟨rfl, rfl, rfl⟩
  · have hsame : ∀ x : CombatUnit, (if m ∈ x.m_vEnemyList then
        { x with m_vEnemyList := x.m_vEnemyList ++ [m] } else x).hate = x.hate := fun x => by
      split_ifs
      · rfl
      · rfl
    unfold addToEnemyList
    rw [hate_upd]
    simp only [hsame]
    exact Function.update_eq_self u w.hate
  · unfold addToEnemyList
    rw [enemy_upd]
    congr 1
    unfold enemy
    cases w u with
    | none =>
      exact (if_neg List.not_mem_nil).symm
    | some x =>
      simp only [Option.map_some, Option.getD_some]
      split_ifs <;> rfl

/-- A new tag is put into the hate list; the enemy list gets the monster only if it has it already. -/
theorem addHate_spec {p : MonsterPart} (hm : w.monster m = some p) (u : Handle) (nHate : Int) (t : Nat) :
    SameUnits w (w.addHate m u p nHate t) ∧
      (u ∈ w.hate m ∧ SameSides w (w.addHate m u p nHate t) ∨
        u ∉ w.hate m ∧ (w.addHate m u p nHate t).hate = Function.update w.hate m (w.hate m ++ [u]) ∧
          (w.addHate m u p nHate t).enemy = Function.update w.enemy u
            (if m ∈ w.enemy u then w.enemy u ++ [m] else w.enemy u)) := by
  unfold addHate
  obtain ⟨hnot, hget⟩ | ⟨hmem, ht, l', hget, -, -, hmap⟩ := getHateTag_cases p.m_vHateList u t
  · simp only [hget]
    have hpush := updMonster_hate hm fun p' => { p' with
      m_vHateList := p.m_vHateList ++ [HateTag.raise { uid := u, nTime := t, nHate := 0 } nHate] }
    have henemy := updMonster_enemy w m fun p' => { p' with
      m_vHateList := p.m_vHateList ++ [HateTag.raise { uid := u, nTime := t, nHate := 0 } nHate] }
    obtain ⟨hunits, hhate, hadd⟩ := addToEnemyList_sides (w.updMonster m fun p' => { p' with
      m_vHateList := p.m_vHateList ++ [HateTag.raise { uid := u, nTime := t, nHate := 0 } nHate] }) u m
    have hretarget := retarget_sameSides ((w.updMonster m fun p' => { p' with
      m_vHateList := p.m_vHateList ++ [HateTag.raise { uid := u, nTime := t, nHate := 0 } nHate] }).addToEnemyList
      u m) m u p.m_nMaxHate (HateTag.raise { uid := u, nTime := t, nHate := 0 } nHate).nHate
    refine ⟨((updMonster_sameUnits w m _).trans hunits).trans hretarget.toSameUnits, .inr ⟨?_, ?_, ?_⟩⟩
    · rw [hate_of_monster hm]
      exact hnot
    · rw [hretarget.hate, hhate, hpush, hate_of_monster hm, List.map_append]
      rfl
    · rw [hretarget.enemy, hadd, henemy]
  · simp only [hget]
    have hsame : SameSides w ((w.updMonster m fun p' => { p' with
        m_vHateList := updTag l' u (HateTag.raise · nHate) }).retarget m u p.m_nMaxHate (ht.raise nHate).nHate) := by
      have huid : (updTag l' u (HateTag.raise · nHate)).map HateTag.uid = p.m_vHateList.map HateTag.uid :=
        (map_uid_updTag l' u (fun _ => rfl : ∀ x : HateTag, (x.raise nHate).uid = x.uid)).trans hmap
      exact (updMonster_sameSides_of hm huid).trans (retarget_sameSides _ m u _ _)
    refine ⟨hsame.toSameUnits, .inl ⟨?_, hsame⟩⟩
    rw [hate_of_monster hm]
    exact hmem

theorem removeFromHateList_spec (hm : (w.hate m).Nodup) (u : Handle) :
    SameUnits w (w.removeFromHateList m u) ∧ (w.removeFromHateList m u).enemy = w.enemy ∧
      (w.removeFromHateList m u).hate = Function.update w.hate m ((w.hate m).filter (· ≠ u)) := by
  refine ⟨updMonster_sameUnits w m _, updMonster_enemy w m _, ?_⟩
  unfold removeFromHateList
  cases hp : w.monster m with
  | none =>
    rw [(updMonster_sameSides_of_none hp _).hate, hate_of_not_monster hp, List.filter_nil, ← hate_of_not_monster hp]
    exact (Function.update_eq_self m w.hate).symm
  | some p =>
    rw [hate_of_monster hp] at hm
    rw [updMonster_hate hp, hate_of_monster hp, ← map_uid_eraseLast hm]

/-- What is known of the hate of a monster for a unit. -/
def hateValue (w : Units) (m u : Handle) : Option Int := (w.monster m).bind fun p => hateFor p.m_vHateList u

/-- The hate is only lowered, or the tag is removed. -/
theorem removeHate_spec (hm : (w.hate m).Nodup) (u : Handle) (pt : Int) (c : Sight) :
    SameUnits w (w.removeHate m u pt c) ∧ (w.removeHate m u pt c).enemy = w.enemy ∧
      ((u ∉ w.hate m ∨ ∃ n, w.hateValue m u = some n ∧ pt < n) ∧ (w.removeHate m u pt c).hate = w.hate ∨
        (∃ n, w.hateValue m u = some n ∧ n ≤ pt) ∧ u ∈ w.hate m ∧
          (w.removeHate m u pt c).hate = Function.update w.hate m ((w.hate m).filter (· ≠ u))) := by
  unfold removeHate
  cases hp : w.monster m with
  | none =>
    have hnot : u ∉ w.hate m := by
      rw [hate_of_not_monster hp]
      exact List.not_mem_nil
    exact ⟨.refl w, rfl, .inl ⟨.inl hnot, rfl⟩⟩
  | some p =>
    dsimp only
    obtain ⟨hnot, hget⟩ | ⟨hmem, ht, l', hget, hvalue, -, hmap⟩ := getHateTag_cases p.m_vHateList u c.now
    · rw [← hate_of_monster hp] at hnot
      rw [hget]
      exact ⟨.refl w, rfl, .inl ⟨.inl hnot, rfl⟩⟩
    · rw [← hate_of_monster hp] at hmem
      rw [hget]
      dsimp only
      have hvalue' : w.hateValue m u = some ht.nHate := by rw [hateValue, hp, Option.bind_some, hvalue]
      have htouch : SameSides w (w.updMonster m fun p => { p with m_vHateList := l' }) :=
        updMonster_sameSides_of hp hmap
      have hp' := updMonster_monster w m fun p => { p with m_vHateList := l' }
      rw [hp, Option.map_some] at hp'
      have hlower : SameSides w ((w.updMonster m fun p => { p with m_vHateList := l' }).updMonster m fun p =>
          { p with m_vHateList := updTag l' u fun ht => { ht with nHate := ht.nHate - pt } }) :=
        htouch.trans (updMonster_sameSides_of hp' (map_uid_updTag l' u fun _ => rfl))
      split_ifs with hlow htarget htarget'
      · have hnext := hlower.trans (findNextEnemy_sameSides _ m c)
        exact ⟨hnext.toSameUnits, hnext.enemy, .inl ⟨.inr ⟨_, hvalue', hlow⟩, hnext.hate⟩⟩
      · exact ⟨hlower.toSameUnits, hlower.enemy, .inl ⟨.inr ⟨_, hvalue', hlow⟩, hlower.hate⟩⟩
      · obtain ⟨hunits, henemy, hhate⟩ := removeFromHateList_spec (htouch.hate ▸ hm) u
        have hrest := (setTarget_sameSides ((w.updMonster m fun p => { p with m_vHateList := l'
          }).removeFromHateList m u) m 0).trans (findNextEnemy_sameSides _ m c)
        refine ⟨(htouch.toSameUnits.trans hunits).trans hrest.toSameUnits,
          hrest.enemy.trans (henemy.trans htouch.enemy), .inr ⟨⟨_, hvalue', not_lt.mp hlow⟩, hmem, ?_⟩⟩
        rw [hrest.hate, hhate, htouch.hate]
      · obtain ⟨hunits, henemy, hhate⟩ := removeFromHateList_spec (htouch.hate ▸ hm) u
        refine ⟨htouch.toSameUnits.trans hunits, henemy.trans htouch.enemy,
          .inr ⟨⟨_, hvalue', not_lt.mp hlow⟩, hmem, ?_⟩⟩
        rw [hhate, htouch.hate]

/-- With all the hate that there is, the tag is removed. -/
theorem dropHate_spec (hm : (w.hate m).Nodup) (c : Sight) (u : Handle) :
    SameUnits w (dropHate c u w m) ∧ (dropHate c u w m).enemy = w.enemy ∧
      (dropHate c u w m).hate = Function.update w.hate m ((w.hate m).filter (· ≠ u)) := by
  unfold dropHate
  cases hp : w.monster m with
  | none =>
    refine ⟨.refl w, rfl, ?_⟩
    rw [hate_of_not_monster hp, List.filter_nil, ← hate_of_not_monster hp]
    exact (Function.update_eq_self m w.hate).symm
  | some p =>
    dsimp only
    have hget : SameSides w (w.getHate m u).2 := by
      unfold getHate
      rw [hp]
      exact updMonster_sameSides_of hp (map_uid_getHateTag p.m_vHateList u 0)
    have hvalue : ∀ n, (w.getHate m u).2.hateValue m u = some n → n = (w.getHate m u).1 := fun n hn => by
      unfold getHate at hn ⊢
      rw [hp] at hn ⊢
      dsimp only at hn ⊢
      rw [hateValue, updMonster_monster, hp, Option.map_some, Option.bind_some] at hn
      dsimp only at hn
      obtain ⟨hnot, hget⟩ | ⟨-, ht, l', hget, -, hvalue', -⟩ := getHateTag_cases p.m_vHateList u 0
      · rw [hget] at hn
        exact absurd (mem_of_hateFor hn) hnot
      · rw [hget] at hn ⊢
        exact Option.some.inj (hn.symm.trans hvalue')
    obtain ⟨hunits, henemy, hcase⟩ := removeHate_spec (hget.hate ▸ hm) u (w.getHate m u).1 c
    refine ⟨hget.toSameUnits.trans hunits, henemy.trans hget.enemy, ?_⟩
    obtain ⟨hnone | ⟨n, hn, hlow⟩, hhate⟩ | ⟨-, -, hhate⟩ := hcase
    · rw [hget.hate] at hnone
      have hfilter : (w.hate m).filter (· ≠ u) = w.hate m :=
        List.filter_eq_self.mpr fun x hx => decide_eq_true fun heq => hnone (heq ▸ hx)
      rw [hhate, hget.hate, hfilter]
      exact (Function.update_eq_self m w.hate).symm
    · rw [hvalue n hn] at hlow
      exact absurd hlow (lt_irrefl _)
    · rw [hhate, hget.hate]

/-- The loop of `RemoveAllHate` takes the unit out of the hate lists of all the monsters of the list. -/
theorem foldl_dropHate (l : List Handle) (hw : ∀ m, (w.hate m).Nodup) (c : Sight) (u : Handle) :
    SameUnits w (l.foldl (dropHate c u) w) ∧ (l.foldl (dropHate c u) w).enemy = w.enemy ∧
      (l.foldl (dropHate c u) w).hate = fun m => if m ∈ l then (w.hate m).filter (· ≠ u) else w.hate m := by
  induction l generalizing w with
  | nil => exact ⟨.refl w, rfl, by simp only [List.foldl_nil, List.not_mem_nil, if_false]⟩
  | cons it l ih =>
    obtain ⟨hunits, henemy, hhate⟩ := dropHate_spec (hw it) c u
    have hnodup : ∀ m, ((dropHate c u w it).hate m).Nodup := fun m => by
      rw [hhate, Function.update_apply]
      split_ifs
      · exact (hw it).filter _
      · exact hw m
    obtain ⟨hunits', henemy', hhate'⟩ := ih hnodup
    rw [List.foldl_cons]
    refine ⟨hunits.trans hunits', henemy'.trans henemy, ?_⟩
    rw [hhate']
    funext m
    rw [hhate, Function.update_apply]
    by_cases hm : m = it
    · rw [if_pos hm, hm, if_pos List.mem_cons_self, List.filter_filter]
      simp only [Bool.and_self, ite_self]
    · rw [if_neg hm]
      simp only [List.mem_cons, hm, false_or]

theorem removeAllHate_spec (hw : ∀ m, (w.hate m).Nodup) (h : Handle) (c : Sight) :
    SameUnits w (w.removeAllHate h c) ∧ (w.removeAllHate h c).enemy = Function.update w.enemy h [] ∧
      (w.removeAllHate h c).hate = fun m => if m ∈ w.enemy h then (w.hate m).filter (· ≠ h) else w.hate m := by
  unfold removeAllHate
  cases hu : w h with
  | none =>
    have hnil : w.enemy h = [] := by rw [enemy, hu]; rfl
    refine ⟨.refl w, ?_, ?_⟩
    · rw [← hnil]
      exact (Function.update_eq_self h w.enemy).symm
    · simp only [hnil, List.not_mem_nil, if_false]
  | some u =>
    have hlist : w.enemy h = u.m_vEnemyList := by rw [enemy, hu]; rfl
    obtain ⟨hunits, henemy, hhate⟩ := foldl_dropHate u.m_vEnemyList hw c h
    have hclear := upd_sameUnits (u.m_vEnemyList.foldl (dropHate c h) w) h
      (f := fun u => { u with m_vEnemyList := [] }) fun _ => ⟨rfl, rfl, rfl⟩
    refine ⟨hunits.trans hclear, ?_, ?_⟩
    · dsimp only
      rw [enemy_upd, henemy]
      congr 1
      cases (u.m_vEnemyList.foldl (dropHate c h) w) h with
      | none => rfl
      | some _ => rfl
    · dsimp only
      rw [hate_upd, hlist, ← hhate]
      exact Function.update_eq_self h _

theorem foldl_removeFromEnemyList (l : List Handle) (hw : ∀ u, (w.enemy u).Nodup) (h : Handle) :
    SameUnits w (l.foldl (fun w uid => w.removeFromEnemyList uid h) w) ∧
      (l.foldl (fun w uid => w.removeFromEnemyList uid h) w).hate = w.hate ∧
      (l.foldl (fun w uid => w.removeFromEnemyList uid h) w).enemy =
        fun u => if u ∈ l then (w.enemy u).filter (· ≠ h) else w.enemy u := by
  induction l generalizing w with
  | nil => exact ⟨.refl w, rfl, by simp only [List.foldl_nil, List.not_mem_nil, if_false]⟩
  | cons uid l ih =>
    have hunits : SameUnits w (w.removeFromEnemyList uid h) := upd_sameUnits w uid fun _ => ⟨rfl, rfl, rfl⟩
    have hhate : (w.removeFromEnemyList uid h).hate = w.hate := by
      unfold removeFromEnemyList
      rw [hate_upd]
      exact Function.update_eq_self uid w.hate
    have henemy : (w.removeFromEnemyList uid h).enemy =
        Function.update w.enemy uid ((w.enemy uid).filter (· ≠ h)) := by
      have herase : (w.enemy uid).filter (· ≠ h) = (w.enemy uid).erase h := by
        rw [(hw uid).erase_eq_filter]
        refine List.filter_congr fun x _ => ?_
        by_cases hx : x = h
        · simp [hx]
        · simp [hx]
      rw [herase]
      unfold removeFromEnemyList
      rw [enemy_upd]
      congr 1
      unfold enemy
      cases w uid with
      | none => rfl
      | some u => rfl
    have hnodup : ∀ u, ((w.removeFromEnemyList uid h).enemy u).Nodup := fun u => by
      rw [henemy, Function.update_apply]
      split_ifs
      · exact (hw uid).filter _
      · exact hw u
    obtain ⟨hunits', hhate', henemy'⟩ := ih hnodup
    rw [List.foldl_cons]
    refine ⟨hunits.trans hunits', hhate'.trans hhate, ?_⟩
    rw [henemy']
    funext u
    rw [henemy, Function.update_apply]
    by_cases hu : u = uid
    · rw [if_pos hu, hu, if_pos List.mem_cons_self, List.filter_filter]
      simp only [Bool.and_self, ite_self]
    · rw [if_neg hu]
      simp only [List.mem_cons, hu, false_or]

theorem leaveEnemyLists_spec (hw : ∀ u, (w.enemy u).Nodup) (h : Handle) :
    SameUnits w (w.leaveEnemyLists h) ∧ (w.leaveEnemyLists h).hate = w.hate ∧
      (w.leaveEnemyLists h).enemy =
        fun u => if u ∈ w.hate h then (w.enemy u).filter (· ≠ h) else w.enemy u := by
  unfold leaveEnemyLists
  cases hp : w.monster h with
  | none =>
    refine ⟨.refl w, rfl, ?_⟩
    rw [hate_of_not_monster hp]
    simp only [List.not_mem_nil, if_false]
  | some p =>
    rw [hate_of_monster hp]
    exact foldl_removeFromEnemyList (p.m_vHateList.map HateTag.uid) hw h

/-- A death clears the enemy list of the dead unit and takes it out of the hate lists of the monsters on it. The
dead monster is taken out of the enemy lists of the units that it hates, and goes on hating them. -/
theorem onDead_spec (hhate : ∀ m, (w.hate m).Nodup) (henemy : ∀ u, (w.enemy u).Nodup) (h : Handle) (c : Sight) :
    SameUnits w (w.onDead h c) ∧
      (w.onDead h c).hate = (fun m => if m ∈ w.enemy h then (w.hate m).filter (· ≠ h) else w.hate m) ∧
      (w.onDead h c).enemy = fun u => if u ∈ (w.onDead h c).hate h then
        (Function.update w.enemy h [] u).filter (· ≠ h) else Function.update w.enemy h [] u := by
  have htarget : SameSides w (if w.GetTargetHandle h ≠ 0 then w.setTarget h 0 else w) := by
    split_ifs
    · exact setTarget_sameSides w h 0
    · exact .refl w
  obtain ⟨hunits, hcleared, hdropped⟩ := removeAllHate_spec (htarget.hate ▸ hhate) h c
  rw [htarget.hate, htarget.enemy] at hdropped
  rw [htarget.enemy] at hcleared
  obtain ⟨hunits', hsame, hleft⟩ := leaveEnemyLists_spec (w := Units.removeAllHate _ h c) (fun u => by
    rw [hcleared, Function.update_apply]
    split_ifs
    · exact List.nodup_nil
    · exact henemy u) h
  refine ⟨(htarget.toSameUnits.trans hunits).trans hunits', hsame.trans hdropped, ?_⟩
  rw [hcleared, ← hsame] at hleft
  exact hleft

end Units

end RZEmulator.Chihiro
