import RZEmulator.Chihiro.StateLevel

/-!
# Modifiers of skills by element

The cases `SEF_MP_COST_INC` and `SEF_ADD_PARAMETER_ON_SKILL` of `Unit::applyState`, the only ones that write the four
arrays of `ElementalSkillStateMod`. The source writes its blocks once for one element and once in a loop over all of
them, and in the loop one list of exhaustive states is taken for another. An index outside an array has no result.

`allElementsRight_iff`: the element 99 is as good as one state for each element, but for an exhaustive state that is
applied to harmless physical skills.
-/

namespace RZEmulator.Chihiro

open Lib

/-- The arrays of a unit. -/
inductive ModArray
  | m_GoodPhysicalElementalSkillStateMod
  | m_BadPhysicalElementalSkillStateMod
  | m_GoodMagicalElementalSkillStateMod
  | m_BadMagicalElementalSkillStateMod
  deriving DecidableEq

/-- The fields that the two cases write. -/
structure ElementalSkillStateMod where
  fManaCostRatio : ℚ
  fCooltime : ℚ
  fCastingSpeed : ℚ
  fHate : ℚ
  nCritical : Int
  fMagicalDamage : ℚ
  fPhysicalDamage : ℚ
  nCastingSpeedApplyTime : Int
  vExhaustiveStateCode : List Int
  deriving DecidableEq

def ElementalSkillStateMod.init : ElementalSkillStateMod where
  fManaCostRatio := 1
  fCooltime := 1
  fCastingSpeed := 1
  fHate := 1
  nCritical := 0
  fMagicalDamage := 1
  fPhysicalDamage := 1
  nCastingSpeedApplyTime := 0
  vExhaustiveStateCode := []

abbrev SkillMods := ModArray → ElementalType → ElementalSkillStateMod

namespace ElementalType

def TYPE_COUNT : Nat := 7

/-- The element an array is read at. -/
def ofIndex (i : Int) : Option ElementalType := if 0 ≤ i then all[i.toNat]? else none

end ElementalType

namespace SkillMods

/-- What is done to `a[i]`. -/
def modify (a : ModArray) (i : Int) (f : ElementalSkillStateMod → ElementalSkillStateMod) (u : SkillMods) :
    Option SkillMods :=
  (ElementalType.ofIndex i).map fun e b e' => if e' = e then if b = a then f (u b e') else u b e' else u b e'

def onlyIf (p : Bool) (f : SkillMods → Option SkillMods) (u : SkillMods) : Option SkillMods :=
  if p then f u else some u

end SkillMods

open ModArray SkillMods

def SEF_MP_COST_INC : Int := 91
def SEF_ADD_PARAMETER_ON_SKILL : Int := 93

/-- The value that stands for all, in the three selectors. -/
def ALL_SELECTED : Int := 99

namespace EffectState

variable (s : EffectState)

def nElementalType : Int := narrow32 (truncated (s.getValue 5))

/-! ## `SEF_MP_COST_INC` -/

def manaSelects : ModArray → Bool
  | m_GoodPhysicalElementalSkillStateMod =>
    (s.getValue 10 == 99 || s.getValue 10 == 1) && (s.getValue 11 == 99 || s.getValue 11 == 0)
  | m_BadPhysicalElementalSkillStateMod =>
    (s.getValue 10 == 99 || s.getValue 10 == 1) && (s.getValue 11 == 99 || s.getValue 11 == 1)
  | m_GoodMagicalElementalSkillStateMod =>
    (s.getValue 10 == 99 || s.getValue 10 == 2) && (s.getValue 11 == 99 || s.getValue 11 == 0)
  | m_BadMagicalElementalSkillStateMod =>
    (s.getValue 10 == 99 || s.getValue 10 == 2) && (s.getValue 11 == 99 || s.getValue 11 == 1)

def reduceCost (m : ElementalSkillStateMod) : ElementalSkillStateMod :=
  { m with fManaCostRatio := m.fManaCostRatio + (s.getValue 0 + s.getLevel * s.getValue 1) }

/-- One of the eight blocks. -/
def manaBlock (a : ModArray) (i : Int) : SkillMods → Option SkillMods :=
  onlyIf (s.manaSelects a) (modify a i s.reduceCost)

/-- The four blocks for one index. -/
def manaAt (i : Int) (u : SkillMods) : Option SkillMods :=
  (s.manaBlock m_GoodPhysicalElementalSkillStateMod i u).bind fun u =>
  (s.manaBlock m_BadPhysicalElementalSkillStateMod i u).bind fun u =>
  (s.manaBlock m_GoodMagicalElementalSkillStateMod i u).bind fun u =>
  s.manaBlock m_BadMagicalElementalSkillStateMod i u

def manaCostInc (u : SkillMods) : Option SkillMods :=
  if s.nElementalType ≠ ALL_SELECTED then s.manaAt s.nElementalType u
  else (List.range ElementalType.TYPE_COUNT).foldlM (fun u (i : Nat) => s.manaAt i u) u

/-! ## `SEF_ADD_PARAMETER_ON_SKILL` -/

def bExhaustive : Bool := s.getValue 8 != 0

def nApplySkillType : Int := narrow32 (truncated (s.getValue 9))

def nApplyToHarmful : Int := narrow32 (truncated (s.getValue 10))

def nCastingSpeedApplyTime : Int := wrap32 (truncated (s.getValue 11 * 100))

def skillSelects : ModArray → Bool
  | m_GoodPhysicalElementalSkillStateMod =>
    (s.nApplySkillType == 1 || s.nApplySkillType == 99) && (s.nApplyToHarmful == 0 || s.nApplyToHarmful == 99)
  | m_BadPhysicalElementalSkillStateMod =>
    (s.nApplySkillType == 1 || s.nApplySkillType == 99) && (s.nApplyToHarmful == 1 || s.nApplyToHarmful == 99)
  | m_GoodMagicalElementalSkillStateMod =>
    (s.nApplySkillType == 2 || s.nApplySkillType == 99) && (s.nApplyToHarmful == 0 || s.nApplyToHarmful == 99)
  | m_BadMagicalElementalSkillStateMod =>
    (s.nApplySkillType == 2 || s.nApplySkillType == 99) && (s.nApplyToHarmful == 1 || s.nApplyToHarmful == 99)

/-- The numbers of a block; the shorter of two times is kept, and 0 is none. -/
def addParameter (m : ElementalSkillStateMod) : ElementalSkillStateMod :=
  { m with
    fPhysicalDamage := m.fPhysicalDamage + (s.getValue 0 + s.getValue 1 * s.getLevel)
    fMagicalDamage := m.fMagicalDamage + (s.getValue 2 + s.getValue 3 * s.getLevel)
    nCritical := narrow32 (m.nCritical + narrow32 (truncated (s.getValue 4 * s.getLevel)))
    fHate := m.fHate + s.getValue 6 * s.getLevel
    fCooltime := m.fCooltime + s.getValue 7 * s.getLevel
    nCastingSpeedApplyTime :=
      if m.nCastingSpeedApplyTime = 0 ∨ m.nCastingSpeedApplyTime > s.nCastingSpeedApplyTime then s.nCastingSpeedApplyTime
      else m.nCastingSpeedApplyTime
    fCastingSpeed := m.fCastingSpeed + (narrow32 (truncated (s.getValue 12 + s.getValue 13 * s.getLevel)) : Int) }

def pushCode (m : ElementalSkillStateMod) : ElementalSkillStateMod :=
  { m with vExhaustiveStateCode := m.vExhaustiveStateCode ++ [s.m_nCode] }

/-- One of the eight blocks; `listed` is the array whose list takes the code of an exhaustive state. -/
def skillBlock (a listed : ModArray) (i : Int) : SkillMods → Option SkillMods :=
  onlyIf (s.skillSelects a) fun u =>
    (modify a i s.addParameter u).bind (onlyIf s.bExhaustive (modify listed i s.pushCode))

/-- The four blocks for one index; `listed` is the array in the first line of the source that differs. -/
def skillAt (listed : ModArray) (i : Int) (u : SkillMods) : Option SkillMods :=
  (s.skillBlock m_BadPhysicalElementalSkillStateMod m_BadPhysicalElementalSkillStateMod i u).bind fun u =>
  (s.skillBlock m_GoodPhysicalElementalSkillStateMod listed i u).bind fun u =>
  (s.skillBlock m_BadMagicalElementalSkillStateMod m_BadMagicalElementalSkillStateMod i u).bind fun u =>
  s.skillBlock m_GoodMagicalElementalSkillStateMod m_GoodMagicalElementalSkillStateMod i u

/-- In the loop the code goes to the list of the harmful skills. -/
def addParameterOnSkill (u : SkillMods) : Option SkillMods :=
  if s.nElementalType ≠ ALL_SELECTED then s.skillAt m_GoodPhysicalElementalSkillStateMod s.nElementalType u
  else (List.range ElementalType.TYPE_COUNT).foldlM
    (fun u (i : Nat) => s.skillAt m_BadPhysicalElementalSkillStateMod i u) u

/-- `applyState`, as far as the arrays go. -/
def applyOnSkill (u : SkillMods) : Option SkillMods :=
  if s.getEffectType = SEF_MP_COST_INC then s.manaCostInc u
  else if s.getEffectType = SEF_ADD_PARAMETER_ON_SKILL then s.addParameterOnSkill u
  else some u

/-! ## What is claimed -/

/-- The same state with another element. -/
def withElement (v : ℚ) : EffectState := { s with value := fun i => if i = 5 then v else s.value i }

/-- The arrays that the skill type and the harmfulness of a state stand for. -/
def selects (a : ModArray) : Bool :=
  if s.getEffectType = SEF_MP_COST_INC then s.manaSelects a
  else if s.getEffectType = SEF_ADD_PARAMETER_ON_SKILL then s.skillSelects a
  else false

/-- All elements at once are each of them in turn, no other array is changed, and every index is inside. -/
structure AllElementsRight (u : SkillMods) : Prop where
  same : (s.withElement ALL_SELECTED).applyOnSkill u =
    ElementalType.all.foldlM (fun u e => (s.withElement e.toNat).applyOnSkill u) u
  onlySelected : ∀ v r, (s.withElement v).applyOnSkill u = some r → ∀ a, s.selects a = false → r a = u a
  inside : (s.applyOnSkill u).isSome

/-- The state is not an exhaustive one for harmless physical skills. -/
def Listed : Prop := ¬(s.getEffectType = SEF_ADD_PARAMETER_ON_SKILL ∧ s.bExhaustive = true ∧
  s.skillSelects m_GoodPhysicalElementalSkillStateMod = true)

/-- The element is one or all of them, or no array is selected; and the code is put where it belongs. -/
def ElementCareful : Prop :=
  (s.nElementalType = ALL_SELECTED ∨ (ElementalType.ofIndex s.nElementalType).isSome ∨ ∀ a, s.selects a = false) ∧
    s.Listed

end EffectState

/-! ## What a step does to every element -/

/-- The step changes the element `e` of each array, by `c`. -/
def Acts (e : ElementalType) (c : ModArray → ElementalSkillStateMod → ElementalSkillStateMod)
    (F : SkillMods → Option SkillMods) : Prop :=
  ∀ u, F u = some fun a e' => if e' = e then c a (u a e') else u a e'

namespace Acts

variable {e : ElementalType} {c c' : ModArray → ElementalSkillStateMod → ElementalSkillStateMod}
  {F G : SkillMods → Option SkillMods}

theorem modify {i : Int} (hi : ElementalType.ofIndex i = some e) (a : ModArray)
    (f : ElementalSkillStateMod → ElementalSkillStateMod) :
    Acts e (fun b m => if b = a then f m else m) (SkillMods.modify a i f) := by
  intro u
  rw [SkillMods.modify, hi]
  rfl

theorem onlyIf (h : Acts e c F) (p : Bool) : Acts e (fun a m => if p then c a m else m) (SkillMods.onlyIf p F) := by
  intro u
  cases p with
  | true => exact h u
  | false =>
    refine congrArg some (funext fun a => funext fun e' => ?_)
    exact (ite_self _).symm

theorem bind (h : Acts e c F) (h' : Acts e c' G) : Acts e (fun a m => c' a (c a m)) fun u => (F u).bind G := by
  intro u
  dsimp only
  rw [h u, Option.bind_some, h' _]
  refine congrArg some (funext fun a => funext fun e' => ?_)
  split_ifs <;> rfl

/-- A loop over different elements changes each of them once. -/
theorem foldlM {f : ElementalType → SkillMods → Option SkillMods} (h : ∀ e, Acts e c (f e)) (l : List ElementalType)
    (hl : l.Nodup) (u : SkillMods) :
    l.foldlM (fun u e => f e u) u = some fun a e => if e ∈ l then c a (u a e) else u a e := by
  induction l generalizing u with
  | nil => rfl
  | cons e l ih =>
    obtain ⟨hnotin, hl⟩ := List.nodup_cons.mp hl
    rw [List.foldlM_cons, h e u]
    refine (ih hl _).trans (congrArg some (funext fun a => funext fun e' => ?_))
    by_cases he : e' = e
    · subst he
      rw [if_neg hnotin, if_pos rfl, if_pos List.mem_cons_self]
    · simp only [List.mem_cons, he, false_or, if_false]

theorem all {f : ElementalType → SkillMods → Option SkillMods} (h : ∀ e, Acts e c (f e)) (u : SkillMods) :
    ElementalType.all.foldlM (fun u e => f e u) u = some fun a e => c a (u a e) := by
  rw [foldlM h _ (by decide)]
  refine congrArg some (funext fun a => funext fun e => if_pos ?_)
  cases e <;> decide

end Acts

namespace ElementalType

theorem ofIndex_toNat (e : ElementalType) : ofIndex e.toNat = some e := by
  cases e <;> rfl

theorem range_count : List.range TYPE_COUNT = all.map toNat := rfl

end ElementalType

namespace EffectState

variable {s : EffectState} {u : SkillMods} {listed : ModArray} {i : Int} {e : ElementalType} {v : ℚ}

/-! ## The blocks -/

/-- The four blocks of either case. -/
def blocks (s : EffectState) (listed : ModArray) (i : Int) (u : SkillMods) : Option SkillMods :=
  if s.getEffectType = SEF_MP_COST_INC then s.manaAt i u
  else if s.getEffectType = SEF_ADD_PARAMETER_ON_SKILL then s.skillAt listed i u
  else some u

theorem foldlM_some {α β : Type} (l : List α) (b : β) : l.foldlM (fun b _ => some b) b = some b := by
  induction l with
  | nil => rfl
  | cons a l ih => exact ih

theorem applyOnSkill_eq (s : EffectState) (u : SkillMods) : s.applyOnSkill u =
    if s.nElementalType ≠ ALL_SELECTED then s.blocks m_GoodPhysicalElementalSkillStateMod s.nElementalType u
    else ElementalType.all.foldlM (fun u e => s.blocks m_BadPhysicalElementalSkillStateMod e.toNat u) u := by
  unfold applyOnSkill blocks
  by_cases hmana : s.getEffectType = SEF_MP_COST_INC
  · simp only [hmana, if_true]
    unfold manaCostInc
    rw [ElementalType.range_count, List.foldlM_map]
  · simp only [hmana, if_false]
    by_cases hadd : s.getEffectType = SEF_ADD_PARAMETER_ON_SKILL
    · simp only [hadd, if_true]
      unfold addParameterOnSkill
      rw [ElementalType.range_count, List.foldlM_map]
    · simp only [hadd, if_false]
      rw [foldlM_some, ite_self]

theorem blocks_withElement (s : EffectState) (v : ℚ) : (s.withElement v).blocks = s.blocks := rfl

/-- What a block does. -/
def skillChange (s : EffectState) (b listed a : ModArray) (m : ElementalSkillStateMod) : ElementalSkillStateMod :=
  if s.skillSelects b then
    let m := if a = b then s.addParameter m else m
    if s.bExhaustive then if a = listed then s.pushCode m else m else m
  else m

/-- What the four blocks do. -/
def change (s : EffectState) (listed a : ModArray) (m : ElementalSkillStateMod) : ElementalSkillStateMod :=
  if s.getEffectType = SEF_MP_COST_INC then if s.manaSelects a then s.reduceCost m else m
  else if s.getEffectType = SEF_ADD_PARAMETER_ON_SKILL then
    s.skillChange m_GoodMagicalElementalSkillStateMod m_GoodMagicalElementalSkillStateMod a
      (s.skillChange m_BadMagicalElementalSkillStateMod m_BadMagicalElementalSkillStateMod a
        (s.skillChange m_GoodPhysicalElementalSkillStateMod listed a
          (s.skillChange m_BadPhysicalElementalSkillStateMod m_BadPhysicalElementalSkillStateMod a m)))
  else m

theorem acts_manaAt (hi : ElementalType.ofIndex i = some e) :
    Acts e (fun a m => if s.manaSelects a then s.reduceCost m else m) (s.manaAt i) := by
  have hblock : ∀ b, Acts e (fun a m => if s.manaSelects b then if a = b then s.reduceCost m else m else m)
      (s.manaBlock b i) := fun b => (Acts.modify hi b _).onlyIf _
  intro u
  refine (((hblock _).bind ((hblock _).bind ((hblock _).bind (hblock _)))) u).trans
    (congrArg some (funext fun a => funext fun e' => ?_))
  cases a <;> simp

theorem acts_skillAt (hi : ElementalType.ofIndex i = some e) :
    Acts e (fun a m => s.skillChange m_GoodMagicalElementalSkillStateMod m_GoodMagicalElementalSkillStateMod a
      (s.skillChange m_BadMagicalElementalSkillStateMod m_BadMagicalElementalSkillStateMod a
        (s.skillChange m_GoodPhysicalElementalSkillStateMod listed a
          (s.skillChange m_BadPhysicalElementalSkillStateMod m_BadPhysicalElementalSkillStateMod a m))))
      (s.skillAt listed i) := by
  have hblock : ∀ b listed, Acts e (s.skillChange b listed) (s.skillBlock b listed i) := fun b listed =>
    ((Acts.modify hi b _).bind ((Acts.modify hi listed _).onlyIf _)).onlyIf _
  exact (hblock _ _).bind ((hblock _ _).bind ((hblock _ _).bind (hblock _ _)))

theorem acts_blocks (hi : ElementalType.ofIndex i = some e) : Acts e (s.change listed) (s.blocks listed i) := by
  unfold change blocks
  split_ifs with hmana hadd
  · exact acts_manaAt hi
  · exact acts_skillAt hi
  · exact fun u => congrArg some (funext fun a => funext fun e' => (ite_self _).symm)

theorem apply_all (h : s.nElementalType = ALL_SELECTED) : s.applyOnSkill u =
    some fun a e => s.change m_BadPhysicalElementalSkillStateMod a (u a e) := by
  rw [applyOnSkill_eq, if_neg (not_not.mpr h)]
  exact Acts.all (f := fun e => s.blocks m_BadPhysicalElementalSkillStateMod e.toNat)
    (fun e => acts_blocks e.ofIndex_toNat) u

/-! ## One element and all of them -/

theorem nElementalType_withElement (hinfo : s.m_pTemplate ≠ none) {n : Int} (hn : IsInt32 n) :
    (s.withElement n).nElementalType = n := by
  obtain ⟨info, hinfo⟩ := Option.ne_none_iff_exists'.mp hinfo
  have hvalue : (s.withElement n).getValue 5 = n := by
    unfold getValue withElement
    dsimp only
    rw [hinfo]
    rfl
  rw [nElementalType, hvalue, truncated, Rat.num_intCast, Rat.den_intCast]
  exact (congrArg narrow32 (Int.tdiv_one n)).trans (narrow32_eq_self hn)

/-- A state without a template has none of the two effects. -/
theorem change_of_none (hinfo : s.m_pTemplate = none) (a : ModArray) (m : ElementalSkillStateMod) :
    s.change listed a m = m := by
  have heffect : s.getEffectType = 0 := by rw [getEffectType, hinfo]
  unfold change
  rw [heffect]
  rfl

theorem blocks_of_none (hinfo : s.m_pTemplate = none) : s.blocks listed i u = some u := by
  have heffect : s.getEffectType = 0 := by rw [getEffectType, hinfo]
  unfold blocks
  rw [heffect]
  rfl

theorem applyOnSkill_all (s : EffectState) (u : SkillMods) : (s.withElement ALL_SELECTED).applyOnSkill u =
    some fun a e => s.change m_BadPhysicalElementalSkillStateMod a (u a e) := by
  by_cases hinfo : s.m_pTemplate = none
  · rw [applyOnSkill_eq]
    simp only [blocks_withElement, blocks_of_none hinfo, change_of_none hinfo, foldlM_some, ite_self]
  · exact apply_all (s := s.withElement ALL_SELECTED) (nElementalType_withElement hinfo (by decide))

theorem applyOnSkill_one (s : EffectState) (u : SkillMods) (e : ElementalType) :
    (s.withElement e.toNat).applyOnSkill u = s.blocks m_GoodPhysicalElementalSkillStateMod e.toNat u := by
  by_cases hinfo : s.m_pTemplate = none
  · rw [applyOnSkill_eq]
    simp only [blocks_withElement, blocks_of_none hinfo, foldlM_some, ite_self]
  · have hindex : (s.withElement e.toNat).nElementalType = e.toNat := by
      refine nElementalType_withElement (n := e.toNat) hinfo ?_
      cases e <;> decide
    rw [applyOnSkill_eq, hindex, if_pos (by cases e <;> decide)]
    rfl

theorem applyOnSkill_each (s : EffectState) (u : SkillMods) :
    ElementalType.all.foldlM (fun u e => (s.withElement e.toNat).applyOnSkill u) u =
      some fun a e => s.change m_GoodPhysicalElementalSkillStateMod a (u a e) := by
  simp only [applyOnSkill_one]
  exact Acts.all (f := fun e => s.blocks m_GoodPhysicalElementalSkillStateMod e.toNat)
    (fun e => acts_blocks e.ofIndex_toNat) u

/-! ## Where the two agree -/

theorem change_listed (h : s.Listed) (listed : ModArray) :
    s.change listed = s.change m_GoodPhysicalElementalSkillStateMod := by
  have hblock : s.getEffectType = SEF_ADD_PARAMETER_ON_SKILL →
      s.skillChange m_GoodPhysicalElementalSkillStateMod listed =
        s.skillChange m_GoodPhysicalElementalSkillStateMod m_GoodPhysicalElementalSkillStateMod := by
    intro hadd
    funext a m
    unfold skillChange
    by_cases hselects : s.skillSelects m_GoodPhysicalElementalSkillStateMod = true
    · have hnot : s.bExhaustive = false := by
        rw [← Bool.not_eq_true]
        exact fun hexhaustive => h ⟨hadd, hexhaustive, hselects⟩
      rw [hnot]
      rfl
    · rw [if_neg hselects, if_neg hselects]
  funext a m
  unfold change
  split_ifs with hmana hselects hadd
  · rfl
  · rfl
  · rw [hblock hadd]
  · rfl

theorem skillChange_other {b a : ModArray} (hb : a ≠ b) (m : ElementalSkillStateMod) : s.skillChange b b a m = m := by
  unfold skillChange
  dsimp only
  rw [if_neg hb, if_neg hb, ite_self, ite_self]

/-- An array that is not selected is left as it is. -/
theorem change_of_not_selects (a : ModArray) (h : s.selects a = false) (m : ElementalSkillStateMod) :
    s.change m_GoodPhysicalElementalSkillStateMod a m = m := by
  unfold selects at h
  unfold change
  split_ifs at h ⊢ with hmana hselects hadd
  · rw [hselects] at h
    cases h
  · rfl
  · have hown : ∀ m, s.skillChange a a a m = m := fun m => by
      unfold skillChange
      rw [h]
      rfl
    cases a <;> simp only [hown, ne_eq, reduceCtorEq, not_false_eq_true, skillChange_other]
  · rfl

/-- Where it is reached, the list of the harmless physical skills stays as it is. -/
theorem change_ne (h : ¬s.Listed) (m : ElementalSkillStateMod) :
    s.change m_BadPhysicalElementalSkillStateMod m_GoodPhysicalElementalSkillStateMod m ≠
      s.change m_GoodPhysicalElementalSkillStateMod m_GoodPhysicalElementalSkillStateMod m := by
  obtain ⟨hadd, hexhaustive, hselects⟩ := not_not.mp h
  have hmana : s.getEffectType ≠ SEF_MP_COST_INC := by
    rw [hadd]
    decide
  unfold change
  rw [if_neg hmana, if_pos hadd, if_neg hmana, if_pos hadd]
  simp only [ne_eq, reduceCtorEq, not_false_eq_true, skillChange_other]
  unfold skillChange
  rw [hselects, hexhaustive]
  intro heq
  have hlist := congrArg (fun m => m.vExhaustiveStateCode.length) heq
  simp [pushCode, addParameter] at hlist

/-! ## Indices -/

theorem blocks_of_not_selects (h : ∀ a, s.selects a = false) (u : SkillMods) : s.blocks listed i u = some u := by
  unfold blocks
  unfold selects at h
  split_ifs at h ⊢ with hmana hadd
  · simp [manaAt, manaBlock, SkillMods.onlyIf, h]
  · simp [skillAt, skillBlock, SkillMods.onlyIf, h]
  · rfl

/-- What an array that is selected is asked for at an index outside has no result. -/
theorem blocks_outside (hi : ElementalType.ofIndex i = none) {a : ModArray} (h : s.selects a = true) (u : SkillMods) :
    s.blocks listed i u = none := by
  have hmodify : ∀ b f (u : SkillMods), SkillMods.modify b i f u = none := fun b f u => by
    rw [SkillMods.modify, hi]
    rfl
  unfold blocks
  unfold selects at h
  split_ifs at h ⊢ with hmana hadd
  · have hblock : ∀ b u, s.manaBlock b i u = if s.manaSelects b then none else some u := fun b u => by
      rw [manaBlock, SkillMods.onlyIf, hmodify]
    unfold manaAt
    simp only [hblock]
    cases a <;> (simp only [h]; split_ifs <;> rfl)
  · have hblock : ∀ b l u, s.skillBlock b l i u = if s.skillSelects b then none else some u := fun b l u => by
      rw [skillBlock, SkillMods.onlyIf, hmodify]
      rfl
    unfold skillAt
    simp only [hblock]
    cases a <;> (simp only [h]; split_ifs <;> rfl)

theorem applyOnSkill_isSome_iff (s : EffectState) (u : SkillMods) : (s.applyOnSkill u).isSome ↔
    s.nElementalType = ALL_SELECTED ∨ (ElementalType.ofIndex s.nElementalType).isSome ∨ ∀ a, s.selects a = false := by
  by_cases hall : s.nElementalType = ALL_SELECTED
  · rw [apply_all hall]
    exact iff_of_true rfl (Or.inl hall)
  rw [applyOnSkill_eq, if_pos hall, or_iff_right hall]
  cases hi : ElementalType.ofIndex s.nElementalType with
  | some e =>
    rw [acts_blocks hi]
    exact iff_of_true rfl (Or.inl rfl)
  | none =>
    by_cases hnone : ∀ a, s.selects a = false
    · rw [blocks_of_not_selects hnone]
      exact iff_of_true rfl (Or.inr hnone)
    · obtain ⟨a, ha⟩ := not_forall.mp hnone
      rw [blocks_outside hi ((Bool.not_eq_false _).mp ha)]
      exact iff_of_false Bool.false_ne_true fun h => h.elim (fun h => Bool.false_ne_true h) hnone

/-- What a state has changed, it was selected for, unless the slip is reached. -/
theorem applyOnSkill_onlySelected (h : s.Listed) {r : SkillMods} (hr : s.applyOnSkill u = some r) {a : ModArray}
    (ha : s.selects a = false) : r a = u a := by
  by_cases hall : s.nElementalType = ALL_SELECTED
  · rw [apply_all hall, Option.some.injEq] at hr
    rw [← hr]
    funext e
    rw [change_listed h]
    exact change_of_not_selects a ha _
  rw [applyOnSkill_eq, if_pos hall] at hr
  cases hi : ElementalType.ofIndex s.nElementalType with
  | some e =>
    rw [acts_blocks hi, Option.some.injEq] at hr
    rw [← hr]
    funext e'
    dsimp only
    rw [change_of_not_selects a ha, ite_self]
  | none =>
    by_cases hnone : ∀ a, s.selects a = false
    · rw [blocks_of_not_selects hnone] at hr
      rw [← Option.some.inj hr]
    · obtain ⟨b, hb⟩ := not_forall.mp hnone
      rw [blocks_outside hi ((Bool.not_eq_false _).mp hb)] at hr
      cases hr

theorem allElementsRight_iff (s : EffectState) (u : SkillMods) : s.AllElementsRight u ↔ s.ElementCareful := by
  constructor
  · intro h
    refine ⟨(applyOnSkill_isSome_iff s u).mp h.inside, fun hslip => ?_⟩
    have hsame := h.same
    rw [applyOnSkill_all, applyOnSkill_each, Option.some.injEq] at hsame
    exact change_ne (not_not.mpr hslip) _
      (congrFun (congrFun hsame m_GoodPhysicalElementalSkillStateMod) ElementalType.TYPE_NONE)
  · rintro ⟨hinside, hlisted⟩
    refine ⟨?_, fun v r hr a ha => ?_, (applyOnSkill_isSome_iff s u).mpr hinside⟩
    · rw [applyOnSkill_all, applyOnSkill_each, change_listed hlisted]
    · exact applyOnSkill_onlySelected (s := s.withElement v) hlisted hr ha

end EffectState

/-! ## An exhaustive state -/

theorem one_small : (1 : Nat) < 2 ^ 16 := by decide

/-- A state that the next harmless physical skill uses up. -/
def exhaustiveState : EffectState where
  m_nCode := 4001
  m_nUID := 1
  m_nLevel _ := 1
  m_hCaster _ := 0
  m_nStartTime _ := 0
  m_nEndTime _ := 0
  m_bAura := false
  m_pTemplate := some { effect_type := SEF_ADD_PARAMETER_ON_SKILL }
  value i := if i = 5 then 99 else if i = 8 ∨ i = 9 then 1 else 0
  small _ := one_small

def unmodified : SkillMods := fun _ _ => .init

/-- Its code is put down for the harmful skills. -/
theorem exhaustiveState_astray : ¬exhaustiveState.AllElementsRight unmodified ∧
    (exhaustiveState.applyOnSkill unmodified).map (fun u => (u m_GoodPhysicalElementalSkillStateMod .TYPE_FIRE).vExhaustiveStateCode) =
      some [] ∧
    (exhaustiveState.applyOnSkill unmodified).map (fun u => (u m_BadPhysicalElementalSkillStateMod .TYPE_FIRE).vExhaustiveStateCode) =
      some [4001] ∧
    ((exhaustiveState.withElement ElementalType.TYPE_FIRE.toNat).applyOnSkill unmodified).map
      (fun u => (u m_GoodPhysicalElementalSkillStateMod .TYPE_FIRE).vExhaustiveStateCode) = some [4001] := by
  have hslip : ¬exhaustiveState.Listed := by
    unfold EffectState.Listed
    decide +kernel
  refine ⟨fun h => ?_, by decide +kernel, by decide +kernel, by decide +kernel⟩
  have hsame := h.same
  rw [EffectState.applyOnSkill_all, EffectState.applyOnSkill_each, Option.some.injEq] at hsame
  exact EffectState.change_ne hslip _
    (congrFun (congrFun hsame m_GoodPhysicalElementalSkillStateMod) ElementalType.TYPE_NONE)

end RZEmulator.Chihiro
