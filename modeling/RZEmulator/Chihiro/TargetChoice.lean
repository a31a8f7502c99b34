import RZEmulator.Chihiro.HateSymmetry

/-!
# The choice of a target

A monster is to aim at the most hated of the entries that are active and whose units it sees, and `m_nMaxHate` is to be what it
hates that one. `findNextEnemy` finds it by a scan that counts the modifiers of the states; `addHate` moves the target by the bare
hate of one entry, whether the unit is seen or not. `Watches` is what a step needs for the target to stay right.
-/

namespace RZEmulator.Chihiro

open Lib

/-- What `RemoveHate` does with an entry that has more. -/
def HateTag.lower (ht : HateTag) (pt : Int) : HateTag := { ht with nHate := ht.nHate - pt }

namespace Units

variable {w w' : Units} {m u : Handle} {c : Sight} {p p' : MonsterPart} {visible : Handle → Handle → Bool}

/-! ## The right target -/

/-- What the states add to the hate of a unit. -/
def modifier (p : MonsterPart) (u : Handle) : Int := ((p.m_vHateModifierByState.find? fun mit => mit.1 = u).map Prod.snd).getD 0

/-- The entry can be aimed at: it is active, and its unit is there and is seen. -/
def Eligible (w : Units) (visible : Handle → Handle → Bool) (m : Handle) (ht : HateTag) : Prop :=
  ht.bIsActive = true ∧ (w ht.uid).isSome = true ∧ visible m ht.uid = true

/-- The entry is the one that the monster aims at, as the scan would choose it. -/
structure MostHated (w : Units) (visible : Handle → Handle → Bool) (m : Handle) (p : MonsterPart) (ht : HateTag) : Prop where
  mem : ht ∈ p.m_vHateList
  uid : ht.uid = w.GetTargetHandle m
  eligible : w.Eligible visible m ht
  most : ∀ ht' ∈ p.m_vHateList, w.Eligible visible m ht' → hateOfTag p ht' ≤ hateOfTag p ht
  max : p.m_nMaxHate = hateOfTag p ht

/-- There is no target, or it is the most hated. -/
def TargetRight (visible : Handle → Handle → Bool) (m : Handle) (w : Units) : Prop :=
  ∀ p, w.monster m = some p → w.GetTargetHandle m ≠ 0 → ∃ ht, w.MostHated visible m p ht

/-- A monster that lives, with one entry for each unit; no unit has the handle 0. -/
structure Hating (m : Handle) (w : Units) : Prop where
  none : w 0 = none
  monster : (w.monster m).isSome = true
  isDead : w.isDead m = false
  nodup : (w.hate m).Nodup

/-! ## The steps -/

/-- How the target of a monster is lost. -/
inductive Loss
  | dies
  | leavesWorld
  | isDeleted

def lose (w : Units) (target : Handle) : Loss → Units
  | .dies => w.upd target fun u => { u with isDead := true }
  | .leavesWorld => w.upd target fun u => { u with isInWorld := false }
  | .isDeleted => Function.update w target none

inductive TargetEvent
  | addHate (u : Handle) (pt : Int) (now : Nat)
  | removeHate (u : Handle) (pt : Int) (now : Nat)
  /-- the target is lost, and `AI_processAttack` notices -/
  | targetLost (loss : Loss) (now : Nat)
  /-- the target is too far away -/
  | giveUp (now : Nat)
  /-- the target is in no region that the monster sees -/
  | comeBackHome (now : Nat)

/-- A monster that is not feared. -/
def sight (visible : Handle → Handle → Bool) (now : Nat) : Sight := ⟨now, visible, fun _ => false⟩

def handleTarget (visible : Handle → Handle → Bool) (m : Handle) (w : Units) : TargetEvent → Option Units
  | .addHate u pt now => some (w.AddHate m u pt (sight visible now))
  | .removeHate u pt now => some (w.removeHate m u pt (sight visible now))
  | .targetLost loss now =>
    if w.GetTargetHandle m = m then none
    else some ((w.lose (w.GetTargetHandle m) loss).processAttack m (sight visible now))
  | .giveUp now => some (w.giveUp m (sight visible now))
  | .comeBackHome now => some (w.comeBackHome m (sight visible now))

/-- The hate for a unit after points that are not negative in all have been added. -/
def hateAfter (p : MonsterPart) (u : Handle) (pt : Int) : Int := max 0 ((hateFor p.m_vHateList u).getD 0 + pt)

/-- What the points may do to the target: a unit that becomes or stays the target has no modifier and is seen, and is the most hated
where there was no target; one that does not is not hated more than the target, or is not seen. -/
def GoodPoints (w : Units) (visible : Handle → Handle → Bool) (m : Handle) (p : MonsterPart) (u : Handle) (pt : Int) : Prop :=
  if w.GetTargetHandle m = 0 then
    modifier p u = 0 ∧ visible m u = true ∧
      ∀ ht ∈ p.m_vHateList, ht.uid ≠ u → w.Eligible visible m ht → hateOfTag p ht ≤ hateAfter p u pt
  else if w.GetTargetHandle m ≠ u ∧ hateAfter p u pt > p.m_nMaxHate then modifier p u = 0 ∧ visible m u = true
  else if w.GetTargetHandle m = u then modifier p u = 0
  else visible m u = true → hateAfter p u pt + modifier p u ≤ p.m_nMaxHate

/-- The steps that keep the target right: points that are not negative are good, and no hate is raised by removing negative points
above that of the target. -/
def Watches (visible : Handle → Handle → Bool) (m : Handle) (w : Units) : TargetEvent → Prop
  | .addHate u pt _ =>
    ∀ p, w.monster m = some p → p.isEnvironmentMonster = false → (w u).isSome = true → 0 ≤ pt → w.GoodPoints visible m p u pt
  | .removeHate u pt _ =>
    ∀ p, w.monster m = some p → w.GetTargetHandle m ≠ 0 → w.GetTargetHandle m ≠ u → ∀ ht ∈ p.m_vHateList, ht.uid = u →
      w.Eligible visible m ht → pt < ht.nHate → hateOfTag p ht - pt ≤ p.m_nMaxHate
  | _ => True

/-- Every hate list and every set of modifiers whose target is right, or missing. -/
def targetSystem (visible : Handle → Handle → Bool) (m : Handle) : System Units TargetEvent :=
  System.ofFun (fun w => Hating m w ∧ TargetRight visible m w) (handleTarget visible m)

/-! ## The scan -/

theorem mostHated_cons (w : Units) (m : Handle) (c : Sight) (p : MonsterPart) (ht : HateTag) (l : List HateTag) (best : Int × Handle) :
    mostHated w m c p (ht :: l) best =
      mostHated w m c p l (if ht.bIsActive = true ∧ hateOfTag p ht > best.1 ∧ (w ht.uid).isSome = true ∧ c.visible m ht.uid = true
        then (hateOfTag p ht, ht.uid) else best) := by
  rw [mostHated]
  split_ifs <;> rfl

/-- The scan keeps what it starts with or ends with an entry that can be aimed at, and none that can be aimed at is hated more. -/
theorem mostHated_spec (w : Units) (m : Handle) (c : Sight) (p : MonsterPart) (l : List HateTag) (best : Int × Handle) :
    (mostHated w m c p l best = best ∨
        ∃ ht ∈ l, w.Eligible c.visible m ht ∧ mostHated w m c p l best = (hateOfTag p ht, ht.uid)) ∧
      best.1 ≤ (mostHated w m c p l best).1 ∧
      ∀ ht ∈ l, w.Eligible c.visible m ht → hateOfTag p ht ≤ (mostHated w m c p l best).1 := by
  induction l generalizing best with
  | nil => exact ⟨.inl rfl, le_refl _, fun ht hht => by cases hht⟩
  | cons x l ih =>
    rw [mostHated_cons]
    split_ifs with hx
    · obtain ⟨hactive, hmore, hunit, hvisible⟩ := hx
      obtain ⟨hwhich, hbest, hmost⟩ := ih (hateOfTag p x, x.uid)
      refine ⟨.inr ?_, hmore.le.trans hbest, fun ht hht heligible => ?_⟩
      · obtain hkept | ⟨ht, hht, heligible, heq⟩ := hwhich
        · exact ⟨x, List.mem_cons_self, ⟨hactive, hunit, hvisible⟩, hkept⟩
        · exact ⟨ht, List.mem_cons_of_mem x hht, heligible, heq⟩
      · obtain rfl | hht := List.mem_cons.mp hht
        · exact hbest
        · exact hmost ht hht heligible
    · obtain ⟨hwhich, hbest, hmost⟩ := ih best
      refine ⟨hwhich.imp_right fun ⟨ht, hht, h⟩ => ⟨ht, List.mem_cons_of_mem x hht, h⟩, hbest, fun ht hht heligible => ?_⟩
      obtain rfl | hht := List.mem_cons.mp hht
      · have hless : hateOfTag p ht ≤ best.1 := by
          by_contra hmore
          exact hx ⟨heligible.1, not_le.mp hmore, heligible.2⟩
        exact hless.trans hbest
      · exact hmost ht hht heligible

theorem setTarget_monster (w : Units) (m target : Handle) : (w.setTarget m target).monster m = w.monster m := by
  unfold monster setTarget
  rw [upd_self]
  cases w m <;> rfl

theorem setTarget_target (hm : (w.monster m).isSome = true) (target : Handle) : (w.setTarget m target).GetTargetHandle m = target := by
  unfold GetTargetHandle setTarget
  rw [upd_self]
  unfold monster at hm
  cases hw : w m with
  | none =>
    rw [hw] at hm
    exact absurd hm Bool.false_ne_true
  | some x => rfl

theorem updMonster_target (w : Units) (m : Handle) (f : MonsterPart → MonsterPart) :
    (w.updMonster m f).GetTargetHandle m = w.GetTargetHandle m := by
  unfold GetTargetHandle updMonster
  rw [upd_self]
  cases w m <;> rfl

theorem eligible_congr (hunits : ∀ h, (w' h).isSome = (w h).isSome) (ht : HateTag) :
    w'.Eligible visible m ht ↔ w.Eligible visible m ht := by
  unfold Eligible
  rw [hunits]

/-- **A scan leaves the target right.** -/
theorem findNextEnemy_targetRight (w : Units) (hfeared : c.feared m = false) : TargetRight c.visible m (w.findNextEnemy m c) := by
  have hsides := findNextEnemy_sameSides w m c
  intro p' hp' htarget
  cases hp : w.monster m with
  | none =>
    have := hsides.isMonster m
    rw [hp', hp] at this
    exact nomatch this
  | some p =>
    have hm : (w.monster m).isSome = true := by rw [hp]; rfl
    have hisSome := hsides.isSome
    unfold findNextEnemy at hp' htarget hisSome ⊢
    rw [hp] at hp' htarget hisSome ⊢
    dsimp only at hp' htarget hisSome ⊢
    obtain ⟨hwhich, -, hmost⟩ := mostHated_spec w m c p p.m_vHateList (-1, 0)
    split_ifs at hp' htarget hisSome ⊢ with hnone
    · -- there is nobody to aim at
      refine absurd ?_ htarget
      rw [comeBackHome, if_neg (by rw [hfeared]; exact Bool.false_ne_true), updMonster_target, setTarget_target hm]
    · have hm' : ((w.updMonster m fun p' => { p' with m_nMaxHate := (mostHated w m c p p.m_vHateList (-1, 0)).1 }).monster m).isSome =
          true := by
        rw [updMonster_monster, hp]
        rfl
      rw [setTarget_monster, updMonster_monster, hp] at hp'
      obtain rfl := Option.some.inj hp'
      obtain hkept | ⟨ht, hht, heligible, heq⟩ := hwhich
      · exact absurd (congrArg Prod.fst hkept) hnone
      · refine ⟨ht, hht, ?_, (eligible_congr hisSome ht).mpr heligible, fun ht' hht' h => ?_, ?_⟩
        · rw [setTarget_target hm', heq]
        · exact (hmost ht' hht' ((eligible_congr hisSome ht').mp h)).trans (congrArg Prod.fst heq).le
        · exact congrArg Prod.fst heq

/-! ## The entry of one unit -/

theorem updTag_eq_map {l : List HateTag} (hl : (l.map HateTag.uid).Nodup) (u : Handle) (f : HateTag → HateTag) :
    updTag l u f = l.map fun ht => if ht.uid = u then f ht else ht := by
  unfold updTag
  cases hfind : l.findIdx? fun ht => decide (ht.uid = u) with
  | none =>
    have hnone := List.findIdx?_eq_none_iff.mp hfind
    refine (List.map_id l).symm.trans (List.map_congr_left fun ht hht => ?_)
    exact (if_neg (of_decide_eq_false (hnone ht hht))).symm
  | some i =>
    obtain ⟨hi, huid, -⟩ := List.findIdx?_eq_some_iff_getElem.mp hfind
    refine List.ext_getElem? fun j => ?_
    rw [List.getElem?_modify, List.getElem?_map]
    by_cases hj : j < l.length
    · rw [List.getElem?_eq_getElem hj]
      refine congrArg some ?_
      by_cases hij : i = j
      · subst hij
        show (if i = i then f l[i] else l[i]) = if l[i].uid = u then f l[i] else l[i]
        rw [if_pos rfl, if_pos (of_decide_eq_true huid)]
      · have hne : l[j].uid ≠ u := by
          intro h
          have hi' : i < (l.map HateTag.uid).length := by rwa [List.length_map]
          have hj' : j < (l.map HateTag.uid).length := by rwa [List.length_map]
          have hsame : (l.map HateTag.uid)[i] = (l.map HateTag.uid)[j] := by
            rw [List.getElem_map, List.getElem_map, of_decide_eq_true huid, h]
          exact hij ((List.Nodup.getElem_inj_iff hl).mp hsame)
        show (if i = j then f l[j] else l[j]) = if l[j].uid = u then f l[j] else l[j]
        rw [if_neg hij, if_neg hne]
    · rw [List.getElem?_eq_none (not_lt.mp hj)]
      rfl

section

variable {l : List HateTag} {f : HateTag → HateTag}

theorem mem_updTag_of_ne (hl : (l.map HateTag.uid).Nodup) (hf : ∀ ht, (f ht).uid = ht.uid) {y : HateTag} (hy : y.uid ≠ u) :
    y ∈ updTag l u f ↔ y ∈ l := by
  rw [updTag_eq_map hl, List.mem_map]
  constructor
  · rintro ⟨ht, hht, rfl⟩
    by_cases hu : ht.uid = u
    · rw [if_pos hu, hf] at hy
      exact absurd hu hy
    · rwa [if_neg hu]
  · exact fun h => ⟨y, h, if_neg hy⟩

theorem mem_updTag_self (hl : (l.map HateTag.uid).Nodup) (hf : ∀ ht, (f ht).uid = ht.uid) {y : HateTag} :
    y ∈ updTag l u f ∧ y.uid = u ↔ ∃ ht ∈ l, ht.uid = u ∧ y = f ht := by
  rw [updTag_eq_map hl, List.mem_map]
  constructor
  · rintro ⟨⟨ht, hht, rfl⟩, huid⟩
    by_cases hu : ht.uid = u
    · exact ⟨ht, hht, hu, if_pos hu⟩
    · rw [if_neg hu] at huid
      exact absurd huid hu
  · rintro ⟨ht, hht, huid, rfl⟩
    exact ⟨⟨ht, hht, if_pos huid⟩, (hf ht).trans huid⟩

theorem setTime_nodup (hl : (l.map HateTag.uid).Nodup) (u : Handle) (t : Nat) :
    ((updTag l u (·.setTime t)).map HateTag.uid).Nodup := by
  rw [map_uid_updTag _ _ fun x : HateTag => show (x.setTime t).uid = x.uid from rfl]
  exact hl

/-- An entry that is stamped with the time and then changed; `f` does not change the unit of an entry. -/
theorem mem_updTag_setTime (hl : (l.map HateTag.uid).Nodup) (hf : ∀ ht, (f ht).uid = ht.uid) {ht : HateTag} (hmem : ht ∈ l)
    (huid : ht.uid = u) {t : Nat} {y : HateTag} :
    y ∈ updTag (updTag l u (·.setTime t)) u f ∧ y.uid = u ↔ y = f (ht.setTime t) := by
  have htime : ∀ x : HateTag, (x.setTime t).uid = x.uid := fun _ => rfl
  rw [mem_updTag_self (setTime_nodup hl u t) hf]
  constructor
  · rintro ⟨x, hx, hxu, rfl⟩
    obtain ⟨ht', hht', huid', rfl⟩ := (mem_updTag_self hl htime).mp ⟨hx, hxu⟩
    rw [List.inj_on_of_nodup_map hl hht' hmem (huid'.trans huid.symm)]
  · rintro rfl
    obtain ⟨hx, hxu⟩ := (mem_updTag_self hl htime).mpr ⟨ht, hmem, huid, rfl⟩
    exact ⟨_, hx, hxu, rfl⟩

theorem getHateTag_eq (l : List HateTag) (u : Handle) (t : Nat) :
    getHateTag l u t = ((l.find? fun ht => ht.uid = u).map (·.setTime t), updTag l u (·.setTime t)) := by
  unfold getHateTag updTag
  cases hfind : l.findIdx? fun ht => decide (ht.uid = u) with
  | none =>
    have hnone : l.find? (fun ht => decide (ht.uid = u)) = none :=
      List.find?_eq_none.mpr fun ht hht => by rw [List.findIdx?_eq_none_iff.mp hfind ht hht]; exact Bool.false_ne_true
    rw [hnone]
    rfl
  | some i =>
    obtain ⟨hi, huid, hfirst⟩ := List.findIdx?_eq_some_iff_getElem.mp hfind
    have hfound : l.find? (fun ht => decide (ht.uid = u)) = some l[i] :=
      List.find?_eq_some_iff_getElem.mpr ⟨huid, i, hi, rfl, fun j hj => by simpa using hfirst j hj⟩
    dsimp only
    rw [hfound, List.getElem?_modify_eq, List.getElem?_eq_getElem hi]
    rfl

end

/-- `p'` is `p` with another entry for the unit, or none. -/
structure OthersSame (p p' : MonsterPart) (u : Handle) : Prop where
  modifiers : p'.m_vHateModifierByState = p.m_vHateModifierByState
  max : p'.m_nMaxHate = p.m_nMaxHate
  others : ∀ ht, ht.uid ≠ u → (ht ∈ p'.m_vHateList ↔ ht ∈ p.m_vHateList)

theorem hateOfTag_eq (p : MonsterPart) (ht : HateTag) : hateOfTag p ht = ht.nHate + modifier p ht.uid := rfl

theorem OthersSame.hateOfTag (h : OthersSame p p' u) (ht : HateTag) : hateOfTag p' ht = hateOfTag p ht := by
  unfold Units.hateOfTag
  rw [h.modifiers]

theorem othersSame_updTag (hl : (p.m_vHateList.map HateTag.uid).Nodup) (u : Handle) (t : Nat) {f : HateTag → HateTag}
    (hf : ∀ ht, (f ht).uid = ht.uid) :
    OthersSame p { p with m_vHateList := updTag (updTag p.m_vHateList u (·.setTime t)) u f } u := by
  have htime : ∀ x : HateTag, (x.setTime t).uid = x.uid := fun _ => rfl
  exact ⟨rfl, rfl, fun y hy => (mem_updTag_of_ne (setTime_nodup hl u t) hf hy).trans (mem_updTag_of_ne hl htime hy)⟩

theorem othersSame_eraseLast (hl : (p.m_vHateList.map HateTag.uid).Nodup) (u : Handle) (t : Nat) :
    OthersSame p { p with m_vHateList := eraseLast (updTag p.m_vHateList u (·.setTime t)) u } u := by
  refine ⟨rfl, rfl, fun y hy => ?_⟩
  rw [← mem_updTag_of_ne (f := (·.setTime t)) hl (fun _ => rfl) hy]
  unfold eraseLast
  rw [List.mem_reverse, List.mem_eraseP_of_neg (by rw [decide_eq_true_eq]; exact hy), List.mem_reverse]

/-- The target stays right where the entry that has changed is not that of the target, and not hated more. -/
theorem TargetRight.of_others (hw : TargetRight visible m w) (hp : w.monster m = some p) (hp' : w'.monster m = some p')
    (hunits : ∀ h, (w' h).isSome = (w h).isSome) (htarget : w'.GetTargetHandle m = w.GetTargetHandle m)
    (hothers : OthersSame p p' u) (hne : w.GetTargetHandle m ≠ u)
    (hless : ∀ ht ∈ p'.m_vHateList, ht.uid = u → w.Eligible visible m ht → hateOfTag p ht ≤ p.m_nMaxHate) :
    TargetRight visible m w' := by
  intro q hq hnone
  obtain rfl := Option.some.inj (hq.symm.trans hp')
  rw [htarget] at hnone
  obtain ⟨ht, hmem, huid, heligible, hmost, hmax⟩ := hw p hp hnone
  refine ⟨ht, (hothers.others ht (huid ▸ hne)).mpr hmem, huid.trans htarget.symm, (eligible_congr hunits ht).mpr heligible, fun ht' hht' h => ?_, ?_⟩
  · rw [hothers.hateOfTag, hothers.hateOfTag, ← hmax]
    rw [eligible_congr hunits] at h
    by_cases hu : ht'.uid = u
    · exact hless ht' hht' hu h
    · rw [hmax]
      exact hmost ht' ((hothers.others ht' hu).mp hht') h
  · rw [hothers.max, hothers.hateOfTag, hmax]

/-- The entry for the unit has become active with the hate `n`. -/
structure Raised (p p' : MonsterPart) (u : Handle) (n : Int) : Prop extends OthersSame p p' u where
  entry : ∃ x ∈ p'.m_vHateList, x.uid = u ∧ x.bIsActive = true ∧ x.nHate = n ∧ ∀ y ∈ p'.m_vHateList, y.uid = u → y = x

/-- The unit of the raised entry is aimed at, rightly. -/
theorem TargetRight.of_raised (hp' : w'.monster m = some p') {q : MonsterPart} {n : Int} (hraised : Raised p q u n)
    (hlist : p'.m_vHateList = q.m_vHateList) (hmodifiers : p'.m_vHateModifierByState = q.m_vHateModifierByState)
    (hmax : p'.m_nMaxHate = n) (htarget : w'.GetTargetHandle m = u)
    (hunit : (w' u).isSome = true) (hmodifier : modifier p u = 0) (hvisible : visible m u = true)
    (hless : ∀ ht ∈ p.m_vHateList, ht.uid ≠ u → w'.Eligible visible m ht → hateOfTag p ht ≤ n) : TargetRight visible m w' := by
  intro r hr _
  obtain rfl := Option.some.inj (hr.symm.trans hp')
  obtain ⟨x, hx, huid, hactive, hn, hunique⟩ := hraised.entry
  have hhate : ∀ ht, hateOfTag r ht = hateOfTag p ht := by
    intro ht
    rw [← hraised.hateOfTag]
    unfold Units.hateOfTag
    rw [hmodifiers]
  have hxn : hateOfTag p x = n := by rw [hateOfTag_eq, huid, hmodifier, hn, add_zero]
  refine ⟨x, hlist ▸ hx, huid.trans htarget.symm, ⟨hactive, huid ▸ hunit, huid ▸ hvisible⟩, fun ht hht h => ?_, ?_⟩
  · rw [hhate, hhate, hxn]
    rw [hlist] at hht
    by_cases hu : ht.uid = u
    · rw [hunique ht hht hu, hxn]
    · exact hless ht ((hraised.others ht hu).mp hht) hu h
  · rw [hhate, hmax, hxn]

/-! ## Points -/

/-- The entry that is appended for a unit. -/
def newTag (u : Handle) (t : Nat) : HateTag := { uid := u, nTime := t, nHate := 0 }

theorem addToEnemyList_part (w : Units) (u m : Handle) (h : Handle) :
    (w.addToEnemyList u m).monster h = w.monster h ∧ (w.addToEnemyList u m).GetTargetHandle h = w.GetTargetHandle h := by
  unfold monster GetTargetHandle addToEnemyList
  by_cases hu : h = u
  · subst hu
    rw [upd_self]
    cases w h with
    | none => exact ⟨rfl, rfl⟩
    | some x =>
      simp only [Option.map_some, Option.bind_some]
      split_ifs <;> exact ⟨rfl, rfl⟩
  · rw [upd_of_ne _ _ hu]
    exact ⟨rfl, rfl⟩

theorem raise_nHate (ht : HateTag) (pt : Int) : (ht.raise pt).nHate = max 0 (ht.nHate + pt) := by
  show (if ht.nHate + pt < 0 then 0 else ht.nHate + pt) = _
  split_ifs <;> omega

theorem hateFor_of_mem {l : List HateTag} (hl : (l.map HateTag.uid).Nodup) {ht : HateTag} (hmem : ht ∈ l) (huid : ht.uid = u) :
    hateFor l u = some ht.nHate := by
  rw [hateFor, (find?_key_eq_some_iff hl).mpr ⟨hmem, huid⟩]
  rfl

/-- The entry that `addHate` leaves, before it looks for the target. -/
theorem addHate_parts (hp : w.monster m = some p) (hl : (p.m_vHateList.map HateTag.uid).Nodup) (u : Handle) (pt : Int) (t : Nat) :
    ∃ w₁ p₁, w.addHate m u p pt t = w₁.retarget m u p.m_nMaxHate (hateAfter p u pt) ∧ w₁.monster m = some p₁ ∧
      Raised p p₁ u (hateAfter p u pt) ∧ SameUnits w w₁ ∧ w₁.GetTargetHandle m = w.GetTargetHandle m := by
  have hraise : ∀ x : HateTag, (x.raise pt).uid = x.uid := fun _ => rfl
  unfold addHate
  rw [getHateTag_eq]
  cases hfind : p.m_vHateList.find? fun ht => ht.uid = u with
  | none =>
    have hnot := find?_key_eq_none_iff.mp hfind
    have hhate : hateAfter p u pt = ((newTag u t).raise pt).nHate := by
      rw [raise_nHate, hateAfter, hateFor, hfind]
      rfl
    have hkept : updTag p.m_vHateList u (·.setTime t) = p.m_vHateList := by
      rw [updTag_eq_map hl]
      exact (List.map_congr_left fun ht hht => if_neg (hnot ht hht)).trans (List.map_id _)
    dsimp only
    rw [hkept, hhate]
    refine ⟨_, { p with m_vHateList := p.m_vHateList ++ [(newTag u t).raise pt] }, rfl, ?_, ⟨⟨rfl, rfl, fun ht hht => ?_⟩, ?_⟩,
      (updMonster_sameUnits w m _).trans (addToEnemyList_sides _ u m).1, ?_⟩
    · rw [(addToEnemyList_part _ u m m).1, updMonster_monster, hp]
      rfl
    · rw [List.mem_append, List.mem_singleton]
      exact or_iff_left fun h => hht (by rw [h]; rfl)
    · refine ⟨_, List.mem_append_right _ (List.mem_singleton_self _), rfl, rfl, rfl, fun y hy huid => ?_⟩
      obtain hy | hy := List.mem_append.mp hy
      · exact absurd huid (hnot y hy)
      · exact List.mem_singleton.mp hy
    · rw [(addToEnemyList_part _ u m m).2, updMonster_target]
  | some ht =>
    obtain ⟨hmem, huid⟩ := (find?_key_eq_some_iff hl).mp hfind
    have hhate : hateAfter p u pt = ((ht.setTime t).raise pt).nHate := by
      rw [raise_nHate, hateAfter, hateFor, hfind]
      rfl
    have hentry : ∀ y, y ∈ updTag (updTag p.m_vHateList u (·.setTime t)) u (HateTag.raise · pt) ∧ y.uid = u ↔
        y = (ht.setTime t).raise pt := fun y => mem_updTag_setTime hl hraise hmem huid
    rw [hhate]
    refine ⟨_, { p with m_vHateList := updTag (updTag p.m_vHateList u (·.setTime t)) u (HateTag.raise · pt) }, rfl, ?_,
      ⟨othersSame_updTag hl u t hraise, ?_⟩, updMonster_sameUnits w m _, updMonster_target w m _⟩
    · rw [updMonster_monster, hp]
      rfl
    · obtain ⟨hx, hxu⟩ := (hentry _).mpr rfl
      exact ⟨_, hx, hxu, rfl, rfl, fun y hy hyu => (hentry y).mp ⟨hy, hyu⟩⟩

theorem setMaxHate_part (hp : w.monster m = some p) (n : Int) :
    (w.updMonster m fun p => { p with m_nMaxHate := n }).monster m = some { p with m_nMaxHate := n } := by
  rw [updMonster_monster, hp]
  rfl

/-- The monster aims at the unit of the raised entry. -/
theorem aim_targetRight (hp : w.monster m = some p) {q : MonsterPart} {n : Int} (hraised : Raised q p u n)
    (hunit : (w u).isSome = true) (hmodifier : modifier q u = 0) (hvisible : visible m u = true)
    (hless : ∀ ht ∈ q.m_vHateList, ht.uid ≠ u → w.Eligible visible m ht → hateOfTag q ht ≤ n) :
    TargetRight visible m ((w.updMonster m fun p => { p with m_nMaxHate := n }).setTarget m u) := by
  have hp' := setMaxHate_part hp n
  have hunits : ∀ h, ((w.updMonster m fun p => { p with m_nMaxHate := n }).setTarget m u h).isSome = (w h).isSome :=
    ((setMaxHate_sameSides w m n).trans (setTarget_sameSides _ m u)).isSome
  refine TargetRight.of_raised ((setTarget_monster _ m u).trans hp') hraised rfl rfl rfl
    (setTarget_target (by rw [hp']; rfl) u) ((hunits u).trans hunit) hmodifier hvisible fun ht hht hu h => ?_
  exact hless ht hht hu ((eligible_congr hunits ht).mp h)

theorem Hating.list_nodup (hw : Hating m w) (hp : w.monster m = some p) : (p.m_vHateList.map HateTag.uid).Nodup := by
  rw [← hate_of_monster hp]
  exact hw.nodup

/-- **Good points leave the target right.** -/
theorem addHate_targetRight (hw : Hating m w) (hright : TargetRight visible m w) (hp : w.monster m = some p)
    (hunit : (w u).isSome = true) {pt : Int} (hpt : 0 ≤ pt) (hgood : w.GoodPoints visible m p u pt) (t : Nat) :
    TargetRight visible m (w.addHate m u p pt t) := by
  have hl := hw.list_nodup hp
  obtain ⟨w₁, p₁, heq, hp₁, hraised, hunits, htarget⟩ := addHate_parts hp hl u pt t
  have hunit₁ : (w₁ u).isSome = true := (hunits.isSome u).trans hunit
  have hmax := setMaxHate_sameSides w₁ m (hateAfter p u pt)
  rw [heq]
  unfold retarget
  rw [htarget]
  unfold GoodPoints at hgood
  dsimp only
  split_ifs at hgood ⊢ with hnone hall hswitch hsame
  · -- there was no target
    exact aim_targetRight hp₁ hraised hunit₁ hgood.1 hgood.2.1 fun ht hht hu h =>
      hgood.2.2 ht hht hu ((eligible_congr hunits.isSome ht).mp h)
  · refine absurd ⟨(hmax.isSome u).trans hunit₁, ?_⟩ hall
    rw [hmax.isDead, hunits.isDead, hw.isDead]
  · -- the unit is hated more than the target
    obtain ⟨ht₀, -, -, -, hmost, heqMax⟩ := hright p hp hnone
    refine aim_targetRight hp₁ hraised hunit₁ hgood.1 hgood.2 fun ht hht _ h => ?_
    have := hmost ht hht ((eligible_congr hunits.isSome ht).mp h)
    rw [← heqMax] at this
    exact this.trans hswitch.2.le
  · -- the unit is the target
    obtain ⟨ht₀, hmem, huid, heligible, hmost, -⟩ := hright p hp hnone
    have hu : ht₀.uid = u := huid.trans hsame
    have hraise : hateOfTag p ht₀ ≤ hateAfter p u pt := by
      rw [hateOfTag_eq, hu, hgood, add_zero, hateAfter, hateFor_of_mem hl hmem hu]
      show ht₀.nHate ≤ max 0 (ht₀.nHate + pt)
      omega
    refine TargetRight.of_raised (setMaxHate_part hp₁ _) hraised rfl rfl rfl ((updMonster_target w₁ m _).trans (htarget.trans hsame))
      ((hmax.isSome u).trans hunit₁) hgood (hu ▸ heligible.2.2) fun ht hht _ h => ?_
    exact (hmost ht hht ((eligible_congr hunits.isSome ht).mp ((eligible_congr hmax.isSome ht).mp h))).trans hraise
  · -- another unit stays the target
    refine hright.of_others hp hp₁ hunits.isSome htarget hraised.toOthersSame hsame fun ht hht hu h => ?_
    obtain ⟨x, hx, hxu, -, hn, hunique⟩ := hraised.entry
    rw [hateOfTag_eq, hunique ht hht hu, hn, hxu]
    exact hgood (hu ▸ h.2.2)

/-! ## Hate that is removed -/

/-- **Removing hate leaves the target right**, if negative points do not raise another entry above it. -/
theorem removeHate_targetRight (hw : Hating m w) (hright : TargetRight visible m w) {pt : Int} {now : Nat}
    (hgood : w.Watches visible m (.removeHate u pt now)) : TargetRight visible m (w.removeHate m u pt (sight visible now)) := by
  obtain ⟨p, hp⟩ := Option.isSome_iff_exists.mp hw.monster
  have hl := hw.list_nodup hp
  have hlower : ∀ x : HateTag, (x.lower pt).uid = x.uid := fun _ => rfl
  unfold removeHate
  rw [hp]
  dsimp only
  rw [show (sight visible now).now = now from rfl, getHateTag_eq]
  cases hfind : p.m_vHateList.find? fun ht => ht.uid = u with
  | none => exact hright
  | some ht =>
    obtain ⟨hmem, huid⟩ := (find?_key_eq_some_iff hl).mp hfind
    have htouch := updMonster_sameUnits w m fun p' => { p' with m_vHateList := updTag p.m_vHateList u (·.setTime now) }
    have hp₁ : (w.updMonster m fun p' => { p' with m_vHateList := updTag p.m_vHateList u (·.setTime now) }).monster m =
        some { p with m_vHateList := updTag p.m_vHateList u (·.setTime now) } := by
      rw [updMonster_monster, hp]
      rfl
    dsimp only [Option.map_some]
    have hfeared : (sight visible now).feared m = false := rfl
    split_ifs with hless hscan hscan
    · exact findNextEnemy_targetRight _ hfeared
    · -- the entry of another unit is lowered
      by_cases hnone : w.GetTargetHandle m = 0
      · intro q _ htarget
        rw [updMonster_target, updMonster_target] at htarget
        exact absurd hnone htarget
      have hne : w.GetTargetHandle m ≠ u := by
        intro h
        refine hscan ⟨?_, ?_⟩
        · rw [updMonster_target, updMonster_target, h]
        · rw [(updMonster_sameUnits _ m _).isDead, htouch.isDead, hw.isDead]
      refine hright.of_others hp ?_ (htouch.trans (updMonster_sameUnits _ m _)).isSome ?_ (othersSame_updTag hl u now hlower) hne
        fun y hy hyu h => ?_
      · rw [updMonster_monster, hp₁]
        rfl
      · rw [updMonster_target, updMonster_target]
      · obtain rfl := (mem_updTag_setTime hl hlower hmem huid).mp ⟨hy, hyu⟩
        have := hgood p hp hnone hne ht hmem huid ⟨h.1, h.2⟩ hless
        rw [hateOfTag_eq] at this ⊢
        show ht.nHate - pt + modifier p ht.uid ≤ p.m_nMaxHate
        omega
    · exact findNextEnemy_targetRight _ hfeared
    · -- the entry of another unit is erased
      have hne : w.GetTargetHandle m ≠ u := by
        intro h
        refine hscan ?_
        unfold removeFromHateList
        rw [updMonster_target, updMonster_target, h]
      refine hright.of_others hp ?_ (htouch.trans (updMonster_sameUnits _ m _)).isSome ?_ (othersSame_eraseLast hl u now) hne
        fun y hy hyu h => ?_
      · unfold removeFromHateList
        rw [updMonster_monster, hp₁]
        rfl
      · unfold removeFromHateList
        rw [updMonster_target, updMonster_target]
      · have hgone : u ∉ (eraseLast (updTag p.m_vHateList u (·.setTime now)) u).map HateTag.uid := by
          rw [map_uid_eraseLast (setTime_nodup hl u now), List.mem_filter]
          exact fun h => of_decide_eq_true h.2 rfl
        exact absurd (List.mem_map.mpr ⟨y, hy, hyu⟩) hgone

/-! ## Every step -/

theorem processAttack_targetRight (hfeared : c.feared m = false) (hlost : w.targetLost m = true) :
    TargetRight c.visible m (w.processAttack m c) := by
  rw [processAttack, if_pos hlost]
  exact findNextEnemy_targetRight _ hfeared

theorem giveUp_targetRight (w : Units) (hfeared : c.feared m = false) : TargetRight c.visible m (w.giveUp m c) := by
  unfold giveUp
  cases hp : w.monster m with
  | none => exact fun p hp' => by rw [hp] at hp'; cases hp'
  | some p => exact findNextEnemy_targetRight _ hfeared

theorem comeBackHome_targetRight (hm : (w.monster m).isSome = true) (hfeared : c.feared m = false) :
    TargetRight visible m (w.comeBackHome m c) := by
  intro p _ htarget
  refine absurd ?_ htarget
  rw [comeBackHome, if_neg (by rw [hfeared]; exact Bool.false_ne_true), updMonster_target, setTarget_target hm]

/-- The loss of a target changes no other unit. -/
theorem lose_of_ne {target : Handle} (hne : m ≠ target) (loss : Loss) : w.lose target loss m = w m := by
  cases loss with
  | dies => exact upd_of_ne w _ hne
  | leavesWorld => exact upd_of_ne w _ hne
  | isDeleted => exact Function.update_of_ne hne none w

theorem lose_zero (hnone : w 0 = none) (target : Handle) (loss : Loss) : w.lose target loss 0 = none := by
  by_cases h : 0 = target
  · subst h
    cases loss with
    | dies => exact (upd_self w 0 _).trans (by rw [hnone]; rfl)
    | leavesWorld => exact (upd_self w 0 _).trans (by rw [hnone]; rfl)
    | isDeleted => rw [lose, Function.update_self]
  · rw [lose_of_ne h, hnone]

theorem targetLost_of (h : ∀ u, w (w.GetTargetHandle m) = some u → u.isDead = true ∨ u.isInWorld = false) :
    w.targetLost m = true := by
  unfold targetLost
  cases hunit : w (w.GetTargetHandle m) with
  | none => rfl
  | some u =>
    rcases h u hunit with hu | hu
    · simp only [hu, Bool.true_or]
    · simp only [hu, Bool.not_false, Bool.or_true]

theorem targetLost_lose (hne : m ≠ w.GetTargetHandle m) (loss : Loss) :
    (w.lose (w.GetTargetHandle m) loss).targetLost m = true := by
  have htarget : (w.lose (w.GetTargetHandle m) loss).GetTargetHandle m = w.GetTargetHandle m := by
    rw [GetTargetHandle, lose_of_ne hne]
    rfl
  refine targetLost_of fun u hu => ?_
  rw [htarget] at hu
  cases loss with
  | dies =>
    rw [lose, upd_self] at hu
    obtain ⟨v, _, rfl⟩ := Option.map_eq_some_iff.mp hu
    exact .inl rfl
  | leavesWorld =>
    rw [lose, upd_self] at hu
    obtain ⟨v, _, rfl⟩ := Option.map_eq_some_iff.mp hu
    exact .inr rfl
  | isDeleted =>
    rw [lose, Function.update_self] at hu
    cases hu

theorem Hating.of_sameUnits (hw : Hating m w) (hunits : SameUnits w w') (hnodup : (w'.hate m).Nodup) : Hating m w' where
  none := by
    have := hunits.isSome 0
    rw [hw.none] at this
    exact Option.isSome_eq_false_iff.mp this |> Option.isNone_iff_eq_none.mp
  monster := (hunits.isMonster m).trans hw.monster
  isDead := (hunits.isDead m).trans hw.isDead
  nodup := hnodup

theorem Hating.of_sameSides (hw : Hating m w) (hsides : SameSides w w') : Hating m w' :=
  hw.of_sameUnits hsides.toSameUnits (hsides.hate ▸ hw.nodup)

theorem Hating.lose (hw : Hating m w) (hne : m ≠ w.GetTargetHandle m) (loss : Loss) :
    Hating m (w.lose (w.GetTargetHandle m) loss) := by
  have hself : w.lose (w.GetTargetHandle m) loss m = w m := lose_of_ne hne loss
  refine ⟨lose_zero hw.none _ loss, ?_, ?_, ?_⟩
  · rw [Units.monster, hself]
    exact hw.monster
  · rw [Units.isDead, hself]
    exact hw.isDead
  · rw [hate, hself]
    exact hw.nodup

theorem Hating.addHate (hw : Hating m w) (hp : w.monster m = some p) (u : Handle) (pt : Int) (t : Nat) :
    Hating m (w.addHate m u p pt t) := by
  obtain ⟨hunits, ⟨-, hsides⟩ | ⟨hnew, hhate, -⟩⟩ := addHate_spec hp u pt t
  · exact hw.of_sameSides hsides
  · refine hw.of_sameUnits hunits ?_
    rw [hhate, Function.update_self]
    exact List.nodup_append.mpr ⟨hw.nodup, List.nodup_singleton u, fun x hx y hy h =>
      hnew (by rw [← List.mem_singleton.mp hy, ← h]; exact hx)⟩

theorem Hating.removeHate (hw : Hating m w) (u : Handle) (pt : Int) (c : Sight) : Hating m (w.removeHate m u pt c) := by
  obtain ⟨hunits, -, ⟨-, hhate⟩ | ⟨-, -, hhate⟩⟩ := removeHate_spec hw.nodup u pt c
  · exact hw.of_sameUnits hunits (hhate ▸ hw.nodup)
  · refine hw.of_sameUnits hunits ?_
    rw [hhate, Function.update_self]
    exact hw.nodup.filter _

theorem Hating.processAttack (hw : Hating m w) (c : Sight) : Hating m (w.processAttack m c) := by
  unfold Units.processAttack
  split_ifs
  · obtain ⟨hunits, -, hhate⟩ := removeFromHateList_spec hw.nodup (w.GetTargetHandle m)
    have herased : Hating m (w.removeFromHateList m (w.GetTargetHandle m)) := by
      refine hw.of_sameUnits hunits ?_
      rw [hhate, Function.update_self]
      exact hw.nodup.filter _
    exact herased.of_sameSides (findNextEnemy_sameSides _ m c)
  · exact hw

/-- Every step that watches keeps the target right. -/
theorem targetRight_step {e : TargetEvent} (hw : Hating m w) (hright : TargetRight visible m w) (hgood : w.Watches visible m e)
    (hs : handleTarget visible m w e = some w') : Hating m w' ∧ TargetRight visible m w' := by
  have hfeared : ∀ now, (sight visible now).feared m = false := fun _ => rfl
  cases e with
  | addHate u pt now =>
    rw [handleTarget, Option.some.injEq] at hs
    subst hs
    obtain ⟨p, hp⟩ := Option.isSome_iff_exists.mp hw.monster
    unfold AddHate
    rw [hp]
    dsimp only
    split_ifs with hrefused hpt
    · exact ⟨hw, hright⟩
    · rw [not_or, not_or] at hrefused
      have hunit : (w u).isSome = true := Option.isSome_iff_ne_none.mpr fun h => hrefused.2.2 (by rw [h]; rfl)
      exact ⟨hw.addHate hp u pt now,
        addHate_targetRight hw hright hp hunit hpt (hgood p hp (Bool.eq_false_of_not_eq_true hrefused.2.1) hunit hpt) now⟩
    · exact ⟨(hw.addHate hp u pt now).of_sameSides (findNextEnemy_sameSides _ m _), findNextEnemy_targetRight _ (hfeared now)⟩
  | removeHate u pt now =>
    rw [handleTarget, Option.some.injEq] at hs
    subst hs
    exact ⟨hw.removeHate u pt _, removeHate_targetRight hw hright hgood⟩
  | targetLost loss now =>
    rw [handleTarget] at hs
    split_ifs at hs with hself
    obtain rfl := Option.some.inj hs
    exact ⟨(hw.lose (Ne.symm hself) loss).processAttack _,
      processAttack_targetRight (hfeared now) (targetLost_lose (Ne.symm hself) loss)⟩
  | giveUp now =>
    rw [handleTarget, Option.some.injEq] at hs
    subst hs
    exact ⟨hw.of_sameSides (giveUp_sameSides w m _), giveUp_targetRight w (hfeared now)⟩
  | comeBackHome now =>
    rw [handleTarget, Option.some.injEq] at hs
    subst hs
    exact ⟨hw.of_sameSides (comeBackHome_sameSides w m _), comeBackHome_targetRight hw.monster (hfeared now)⟩

variable {hist : History Units TargetEvent}

/-- The monster 1, whose states modify its hate, and the unit 2. -/
def hunt (modifiers : List (Handle × Int)) : Units := fun h =>
  if h = 1 then some { monster := some { m_vHateModifierByState := modifiers } } else if h = 2 then some {} else none

def everywhere (_ _ : Handle) : Bool := true

theorem hunt_start (modifiers : List (Handle × Int)) : Hating 1 (hunt modifiers) ∧ TargetRight everywhere 1 (hunt modifiers) :=
  ⟨⟨rfl, rfl, rfl, List.nodup_nil⟩, fun _ _ h => absurd rfl h⟩

end Units

end RZEmulator.Chihiro
