import RZEmulator.Chihiro.FieldProp

/-!
# Runs of the field props

A prop that is not for one time only is to be in one of two places, waiting or in the world. The uses move it from
the world back to the list, and `Update` from the list to the world. Only the props that have outlived their time
are in neither: `Update` takes them out of the world without telling the manager, which keeps a pointer to them.

`Accounted` is the invariant; `extra` are the entries that `Update` has taken off the list and not spawned yet.
-/

namespace RZEmulator.Chihiro

open Lib

namespace FieldPropManager

/-! ## The places of a prop -/

def waiting (s : FieldPropManager) (info : FieldPropRespawnInfo) : Nat :=
  s.m_vRespawnList.countP fun rg => decide (rg.pRespawnInfo = info)

def isPresent (info : FieldPropRespawnInfo) (p : FieldProp) : Bool := p.inWorld && decide (p.m_PropInfo = info)

def present (s : FieldPropManager) (info : FieldPropRespawnInfo) : Nat := s.props.countP (isPresent info)

/-- The transition is a use that succeeds, of the prop in the world. -/
def completes (tr : Transition FieldPropManager FieldPropEvent) (o : Nat) : Bool :=
  match tr.event with
  | .use o' ct => decide (o' = o) && (tr.before.prop o).any (·.inWorld) && (tr.before.useProp o' ct).any Prod.snd
  | _ => false

def uses (hist : History FieldPropManager FieldPropEvent) (o : Nat) : Nat := hist.countP (completes · o)

/-- Every prop is in one place, the expire list is that of the props with a life time, no prop has more uses than its
template says, and what is due is spawned. -/
structure Claimed (hist : History FieldPropManager FieldPropEvent) (s : FieldPropManager) : Prop where
  place : ∀ info ∈ s.m_vRespawnInfo, info.bOnce = false → s.waiting info + s.present info = 1
  expire : ∀ o, o ∈ s.m_vExpireObject ↔ ∃ p, s.prop o = some p ∧ p.inWorld = true ∧ p.nLifeTime ≠ 0
  nodup : s.m_vExpireObject.Nodup
  uses : ∀ o p, s.prop o = some p → 0 < p.m_PropInfo.base.nUseCount →
    uses hist o ≤ p.m_PropInfo.base.nUseCount ∧ (p.inWorld = true → uses hist o < p.m_PropInfo.base.nUseCount)
  due : ∀ tr ∈ hist, ∀ ct, tr.event = .update ct → ∀ rg ∈ tr.after.m_vRespawnList, ct ≤ rg.tNextRegen

/-- No life time is over in the update: not of a prop in the world, nor of one that it spawns. -/
def Careful (s : FieldPropManager) : FieldPropEvent → Prop
  | .update ct => (∀ p ∈ s.props, p.inWorld = true → p.nLifeTime ≠ 0 → ct ≤ (p.m_nRegenTime + p.nLifeTime) % 2 ^ 32) ∧
      ∀ rg ∈ s.m_vRespawnList, rg.tNextRegen < ct → rg.nLifeTime ≠ 0 → ct ≤ (ct + rg.nLifeTime) % 2 ^ 32
  | _ => True

instance (s : FieldPropManager) : (e : FieldPropEvent) → Decidable (Careful s e)
  | .update ct => inferInstanceAs (Decidable ((∀ p ∈ s.props, p.inWorld = true → p.nLifeTime ≠ 0 →
      ct ≤ (p.m_nRegenTime + p.nLifeTime) % 2 ^ 32) ∧
      ∀ rg ∈ s.m_vRespawnList, rg.tNextRegen < ct → rg.nLifeTime ≠ 0 → ct ≤ (ct + rg.nLifeTime) % 2 ^ 32))
  | .script _ _ _ | .register _ _ _ | .cast _ | .use _ _ | .free _ => .isTrue trivial

/-! ## The invariant -/

/-- A prop that has been used `u` times. -/
structure PropOk (u : Nat) (p : FieldProp) : Prop where
  live : p.inWorld = true → p.deleteRequest = false ∧ p.freed = false
  positive : p.inWorld = true → 0 < p.m_PropInfo.base.nUseCount →
    0 < p.m_nUseCount ∧ p.m_nUseCount + u = p.m_PropInfo.base.nUseCount
  negative : p.inWorld = true → p.m_PropInfo.base.nUseCount < 0 → p.m_nUseCount < 0
  gone : p.inWorld = false → 0 < p.m_PropInfo.base.nUseCount ∧ p.m_nUseCount ≤ 0 ∧ u = p.m_PropInfo.base.nUseCount

structure Accounted (u : Nat → Nat) (extra : List FieldPropRegenInfo) (s : FieldPropManager) : Prop where
  numbers : ∀ info ∈ s.m_vRespawnInfo, info.number < s.m_vRespawnInfo.length
  registered : ∀ rg ∈ s.m_vRespawnList ++ extra, rg.pRespawnInfo ∈ s.m_vRespawnInfo
  infos : ∀ p ∈ s.props, p.m_PropInfo ∈ s.m_vRespawnInfo
  place : ∀ info ∈ s.m_vRespawnInfo, info.bOnce = false →
    s.waiting info + extra.countP (fun rg => decide (rg.pRespawnInfo = info)) + s.present info = 1
  expire : ∀ o, o ∈ s.m_vExpireObject ↔ ∃ p, s.props[o]? = some p ∧ p.inWorld = true ∧ p.nLifeTime ≠ 0
  nodup : s.m_vExpireObject.Nodup
  props : ∀ o p, s.props[o]? = some p → PropOk (u o) p
  beyond : ∀ o, s.props.length ≤ o → u o = 0

variable {s s' : FieldPropManager} {u u' : Nat → Nat} {extra : List FieldPropRegenInfo} {o ct : Nat} {p : FieldProp}
  {info : FieldPropRespawnInfo} {rg : FieldPropRegenInfo} {hist : History FieldPropManager FieldPropEvent}
  {e : FieldPropEvent}

theorem prop_eq_some_iff : s.prop o = some p ↔ s.props[o]? = some p ∧ p.freed = false := by
  rw [prop, Option.filter_eq_some_iff, Bool.not_eq_true']

theorem accounted_init : Accounted (fun _ => 0) [] {} where
  numbers _ hinfo := nomatch hinfo
  registered _ hrg := nomatch hrg
  infos _ hp := nomatch hp
  place _ hinfo := nomatch hinfo
  expire o := by simp
  nodup := List.nodup_nil
  props _ _ hp := nomatch hp
  beyond _ _ := rfl

/-- The new prop has a number that no other one has. -/
theorem Accounted.register (hs : Accounted u [] s) (hnumber : info.number = s.m_vRespawnInfo.length)
    (tNextRegen lifeTime : Nat) : Accounted u [] ((s.addInfo info).addRegen info tNextRegen lifeTime) := by
  have hnew : ∀ info' ∈ s.m_vRespawnInfo, info' ≠ info := by
    rintro info' hinfo' rfl
    exact Nat.ne_of_lt (hs.numbers _ hinfo') hnumber
  refine ⟨?_, ?_, ?_, ?_, hs.expire, hs.nodup, hs.props, hs.beyond⟩
  · intro info' hinfo'
    show info'.number < (s.m_vRespawnInfo ++ [info]).length
    rw [List.length_append, List.length_singleton]
    rcases List.mem_append.mp hinfo' with hinfo' | hinfo'
    · exact Nat.lt_succ_of_lt (hs.numbers info' hinfo')
    · rw [List.mem_singleton.mp hinfo', hnumber]
      exact Nat.lt_succ_self _
  · intro rg hrg
    rw [List.append_nil] at hrg
    rcases List.mem_append.mp hrg with hrg | hrg
    · exact List.mem_append_left _ (hs.registered rg (List.mem_append_left _ hrg))
    · rw [List.mem_singleton.mp hrg]
      exact List.mem_append_right _ (List.mem_singleton.mpr rfl)
  · intro p hp
    exact List.mem_append_left _ (hs.infos p hp)
  · intro info' hinfo' hmany
    show (s.m_vRespawnList ++ [(⟨info, tNextRegen, lifeTime⟩ : FieldPropRegenInfo)]).countP _ + 0 + s.present info' = 1
    rw [List.countP_append, List.countP_singleton]
    rcases List.mem_append.mp hinfo' with hinfo' | hinfo'
    · have hplace := hs.place info' hinfo' hmany
      rw [if_neg (by simpa using (hnew info' hinfo').symm)]
      exact hplace
    · rw [List.mem_singleton.mp hinfo']
      have hwaiting : s.m_vRespawnList.countP (fun rg => decide (rg.pRespawnInfo = info)) = 0 := by
        rw [List.countP_eq_zero]
        intro rg hrg
        simpa using hnew _ (hs.registered rg (List.mem_append_left _ hrg))
      have hpresent : s.present info = 0 := by
        rw [present, List.countP_eq_zero]
        intro p hp
        simp [isPresent, hnew _ (hs.infos p hp)]
      rw [hwaiting, hpresent, if_pos (by simp)]

/-- A change of a prop that keeps it where it is. -/
theorem Accounted.modify (hs : Accounted u extra s) (hp : s.props[o]? = some p) {f : FieldProp → FieldProp}
    (hworld : (f p).inWorld = p.inWorld) (hinfo : (f p).m_PropInfo = p.m_PropInfo)
    (hlife : (f p).nLifeTime = p.nLifeTime) (hok : PropOk (u' o) (f p)) (hu : ∀ o', o' ≠ o → u' o' = u o') :
    Accounted u' extra (s.modify o f) := by
  have hlen : (s.props.modify o f).length = s.props.length := List.length_modify _ _ _
  have hget := getElem?_modify_of_getElem? hp f
  refine ⟨hs.numbers, hs.registered, ?_, ?_, ?_, hs.nodup, ?_, ?_⟩
  · intro q hq
    obtain ⟨o', ho'⟩ := List.mem_iff_getElem?.mp hq
    rw [FieldPropManager.modify, hget] at ho'
    split_ifs at ho' with h
    · rw [← Option.some.inj ho', hinfo]
      exact hs.infos p (List.mem_of_getElem? hp)
    · exact hs.infos q (List.mem_of_getElem? ho')
  · intro info hmem hmany
    have hcount := countP_modify hp f (isPresent info)
    have hsame : isPresent info (f p) = isPresent info p := by rw [isPresent, isPresent, hworld, hinfo]
    rw [hsame] at hcount
    have hpresent : (s.modify o f).present info = s.present info := Nat.add_right_cancel hcount
    rw [hpresent]
    exact hs.place info hmem hmany
  · intro o'
    show o' ∈ s.m_vExpireObject ↔ ∃ q, (s.props.modify o f)[o']? = some q ∧ _
    rw [hs.expire, hget]
    split_ifs with ho
    · subst ho
      rw [hp]
      simp [hworld, hlife]
    · rfl
  · intro o' q hq
    rw [FieldPropManager.modify, hget] at hq
    split_ifs at hq with ho
    · subst ho
      rw [← Option.some.inj hq]
      exact hok
    · rw [hu o' (Ne.symm ho)]
      exact hs.props o' q hq
  · intro o' ho'
    have hne : o' ≠ o := by
      rintro rfl
      have hlt := (List.getElem?_eq_some_iff.mp hp).1
      have hle : s.props.length ≤ o' := hlen ▸ ho'
      omega
    rw [hu o' hne]
    exact hs.beyond o' (hlen ▸ ho')

/-! ## Uses -/

theorem Accounted.prop_isSome (hs : Accounted u extra s) (ho : o ∈ s.m_vExpireObject) : (s.prop o).isSome := by
  obtain ⟨p, hp, hworld, -⟩ := (hs.expire o).mp ho
  rw [prop_eq_some_iff.mpr ⟨hp, ((hs.props o p hp).live hworld).2⟩]
  rfl

theorem Accounted.cast (hs : Accounted u extra s) (hp : s.props[o]? = some p) : Accounted u extra (s.cast o) := by
  have hok := hs.props o p hp
  exact hs.modify hp rfl rfl rfl ⟨hok.live, hok.positive, hok.negative, hok.gone⟩ fun _ _ => rfl

theorem Accounted.free (hs : Accounted u extra s) (h : s.free o = some s') : Accounted u extra s' := by
  obtain ⟨p, hp, h⟩ := Option.bind_eq_some_iff.mp h
  split_ifs at h with hdel
  obtain rfl := Option.some.inj h
  have hget := (prop_eq_some_iff.mp hp).1
  have hok := hs.props o p hget
  have hgone : p.inWorld = false := by
    by_contra hworld
    rw [(hok.live ((Bool.not_eq_false _).mp hworld)).1] at hdel
    cases hdel
  refine hs.modify hget rfl rfl rfl ⟨fun hworld => ?_, hok.positive, hok.negative, hok.gone⟩ fun _ _ => rfl
  have hworld : p.inWorld = true := hworld
  rw [hgone] at hworld
  cases hworld

/-- The props and the expire list after the last use. -/
def taken (s : FieldPropManager) (o : Nat) (q : FieldProp) : FieldPropManager :=
  { s with props := s.props.modify o fun _ => q, m_vExpireObject := s.m_vExpireObject.erase o }

/-- A use is refused, or counted, or it is the last one. -/
inductive Used (s : FieldPropManager) (o ct : Nat) (p : FieldProp) : FieldPropManager → Bool → Prop
  | refused : p.m_PropInfo.base.nUseCount ≠ 0 → p.m_nUseCount < 0 →
      Used s o ct p (s.modify o fun _ => { p with m_bIsCasting := false }) false
  | unlimited : p.m_PropInfo.base.nUseCount = 0 →
      Used s o ct p (s.modify o fun _ => { p with m_bIsCasting := false }) true
  | counted : p.m_PropInfo.base.nUseCount ≠ 0 → 0 ≤ p.m_nUseCount → p.m_nUseCount ≠ 1 →
      Used s o ct p (s.modify o fun _ => { p with m_bIsCasting := false, m_nUseCount := p.m_nUseCount - 1 }) true
  | last : p.m_PropInfo.base.nUseCount ≠ 0 → p.m_nUseCount = 1 →
      Used s o ct p ((s.taken o { p with
        m_bIsCasting := false, m_nUseCount := 0, inWorld := false, deleteRequest := true }).requeue p ct) true

theorem requeue_props (s : FieldPropManager) (p : FieldProp) (ct : Nat) : (s.requeue p ct).props = s.props := by
  unfold requeue
  split_ifs <;> rfl

theorem requeue_modify (s : FieldPropManager) (p : FieldProp) (o ct : Nat) (f : FieldProp → FieldProp) :
    (s.requeue p ct).modify o f = (s.modify o f).requeue p ct := by
  unfold requeue
  split_ifs <;> rfl

theorem requeue_congr (s : FieldPropManager) {p q : FieldProp} (hinfo : q.m_PropInfo = p.m_PropInfo)
    (hlife : q.nLifeTime = p.nLifeTime) (ct : Nat) : s.requeue q ct = s.requeue p ct := by
  rw [requeue, requeue, hinfo, hlife]

theorem useProp_cases {ok : Bool} (h : s.useProp o ct = some (s', ok)) : ∃ p, s.prop o = some p ∧ Used s o ct p s' ok := by
  obtain ⟨p, hp, h⟩ := Option.bind_eq_some_iff.mp h
  refine ⟨p, hp, ?_⟩
  unfold takeUse at h
  by_cases hzero : p.m_PropInfo.base.nUseCount = 0
  · rw [if_pos hzero] at h
    simp only [hzero, ne_eq, not_true_eq_false, false_and, and_false, if_false] at h
    cases h
    exact .unlimited hzero
  · rw [if_neg hzero] at h
    by_cases hneg : 0 ≤ p.m_nUseCount
    · rw [if_pos hneg] at h
      by_cases hlast : p.m_nUseCount = 1
      · have hcond : p.m_PropInfo.base.nUseCount ≠ 0 ∧ p.m_nUseCount - 1 = 0 := ⟨hzero, by omega⟩
        simp only [hcond, true_and, ne_eq, not_false_eq_true, if_true] at h
        obtain ⟨t, ht, heq⟩ := Option.map_eq_some_iff.mp h
        obtain ⟨t', ht', rfl⟩ := Option.map_eq_some_iff.mp ht
        unfold eraseExpire at ht'
        split_ifs at ht' with hlive
        cases ht'
        cases heq
        have hused : Used s o ct p _ true := .last hzero hlast
        refine (congrArg (fun t => Used s o ct p t true) ?_).mp hused
        rw [deleteThis, requeue_modify, requeue_congr _ (p := p) rfl rfl]
        simp only [taken, removeFromWorld, FieldPropManager.modify, List.modify_modify_eq]
        rfl
      · have hcond : ¬(p.m_nUseCount - 1 = 0) := by omega
        simp only [hcond, and_false, if_false] at h
        cases h
        exact .counted hzero hneg hlast
    · rw [if_neg hneg] at h
      simp only [Bool.false_eq_true, false_and, if_false] at h
      cases h
      exact .refused hzero (Int.not_le.mp hneg)

/-- The prop is taken out of the world, and waits if it is to come again. -/
theorem Accounted.place_requeue (hs : Accounted u [] s) (hp : s.props[o]? = some p) (hworld : p.inWorld = true) {q : FieldProp}
    (hgone : q.inWorld = false) (ct : Nat) (hinfo : info ∈ s.m_vRespawnInfo) (hmany : info.bOnce = false) :
    ((s.taken o q).requeue p ct).waiting info + ([] : List FieldPropRegenInfo).countP (fun rg => decide (rg.pRespawnInfo = info)) +
      ((s.taken o q).requeue p ct).present info = 1 := by
  have hplace := hs.place info hinfo hmany
  have hcount := countP_modify hp (fun _ => q) (isPresent info)
  have hbefore : isPresent info p = decide (p.m_PropInfo = info) := by rw [isPresent, hworld, Bool.true_and]
  have hafter : isPresent info q = false := by rw [isPresent, hgone, Bool.false_and]
  rw [hbefore, hafter] at hcount
  rw [present, requeue_props]
  have hpres : s.present info = s.props.countP (isPresent info) := rfl
  have hwait : s.waiting info = s.m_vRespawnList.countP fun rg => decide (rg.pRespawnInfo = info) := rfl
  show _ + _ + (s.props.modify o fun _ => q).countP (isPresent info) = 1
  unfold requeue waiting
  split_ifs with honce
  · have hne : p.m_PropInfo ≠ info := by
      rintro rfl
      rw [hmany] at honce
      cases honce
    rw [decide_eq_false hne] at hcount
    show s.m_vRespawnList.countP _ + _ + _ = 1
    simp only [Bool.toNat_false] at hcount
    omega
  · show (s.m_vRespawnList ++ [(⟨p.m_PropInfo, _, _⟩ : FieldPropRegenInfo)]).countP _ + _ + _ = 1
    rw [List.countP_append, List.countP_singleton]
    by_cases heq : p.m_PropInfo = info
    · rw [decide_eq_true heq] at hcount
      rw [if_pos (decide_eq_true heq)]
      simp only [Bool.toNat_true, Bool.toNat_false] at hcount
      omega
    · rw [decide_eq_false heq] at hcount
      rw [if_neg (by simpa using heq)]
      simp only [Bool.toNat_false] at hcount
      omega

/-- The last use puts a prop that is to come again on the list. -/
theorem Accounted.last (hs : Accounted u [] s) (hp : s.props[o]? = some p) (hworld : p.inWorld = true) {q : FieldProp}
    (hq : q.m_PropInfo = p.m_PropInfo) (hgone : q.inWorld = false) (hok : PropOk (u' o) q)
    (hu : ∀ o', o' ≠ o → u' o' = u o') (ct : Nat) : Accounted u' [] ((s.taken o q).requeue p ct) := by
  have hlen : (s.props.modify o fun _ => q).length = s.props.length := List.length_modify _ _ _
  have hget := getElem?_modify_of_getElem? hp fun _ => q
  have hmem : p.m_PropInfo ∈ s.m_vRespawnInfo := hs.infos p (List.mem_of_getElem? hp)
  have hinfos : ((s.taken o q).requeue p ct).m_vRespawnInfo = s.m_vRespawnInfo := by
    unfold requeue
    split_ifs <;> rfl
  have hexpire : ((s.taken o q).requeue p ct).m_vExpireObject = s.m_vExpireObject.erase o := by
    unfold requeue
    split_ifs <;> rfl
  have hprops : ((s.taken o q).requeue p ct).props = s.props.modify o fun _ => q := requeue_props _ _ _
  refine ⟨?_, ?_, ?_, ?_, ?_, ?_, ?_, ?_⟩
  · rw [hinfos]
    exact hs.numbers
  · rw [hinfos]
    intro rg hrg
    unfold requeue at hrg
    split_ifs at hrg
    · exact hs.registered rg hrg
    · rw [List.append_nil] at hrg
      rcases List.mem_append.mp hrg with hrg | hrg
      · exact hs.registered rg (List.mem_append_left _ hrg)
      · rw [List.mem_singleton.mp hrg]
        exact hmem
  · rw [hinfos, hprops]
    intro r hr
    obtain ⟨o', ho'⟩ := List.mem_iff_getElem?.mp hr
    rw [hget] at ho'
    split_ifs at ho' with h
    · rw [← Option.some.inj ho', hq]
      exact hmem
    · exact hs.infos r (List.mem_of_getElem? ho')
  · intro info hinfo hmany
    rw [hinfos] at hinfo
    exact hs.place_requeue hp hworld hgone ct hinfo hmany
  · intro o'
    rw [hexpire, hprops, hs.nodup.mem_erase_iff, hs.expire, hget]
    by_cases ho : o' = o
    · subst ho
      simp [hgone]
    · simp [ho, Ne.symm ho]
  · rw [hexpire]
    exact hs.nodup.erase o
  · rw [hprops]
    intro o' r hr
    rw [hget] at hr
    split_ifs at hr with ho
    · subst ho
      rw [← Option.some.inj hr]
      exact hok
    · rw [hu o' (Ne.symm ho)]
      exact hs.props o' r hr
  · rw [hprops, hlen]
    intro o' ho'
    have hne : o' ≠ o := by
      rintro rfl
      have hlt := (List.getElem?_eq_some_iff.mp hp).1
      omega
    rw [hu o' hne]
    exact hs.beyond o' ho'

/-! ## Updates -/

/-- A prop that has been created has not been used. -/
theorem propOk_create (info : FieldPropRespawnInfo) (lifeTime ct : Nat) : PropOk 0 (create info lifeTime ct) := by
  have hcount : info.base.nUseCount ≠ 0 → (create info lifeTime ct).m_nUseCount = info.base.nUseCount := fun hne => if_neg hne
  refine ⟨fun _ => ⟨rfl, rfl⟩, fun _ hpos => ?_, fun _ hneg => ?_, nofun⟩
  · have hne : info.base.nUseCount ≠ 0 := Int.ne_of_gt hpos
    rw [hcount hne]
    exact ⟨hpos, by simp [create, hne]⟩
  · rw [hcount (Int.ne_of_lt hneg)]
    exact hneg

theorem Accounted.spawn (hs : Accounted u (rg :: extra) s) (ct : Nat) : Accounted u extra (s.spawn ct rg) := by
  have hbeyond := hs.beyond s.props.length (Nat.le_refl _)
  have hget := getElem?_concat s.props (create rg.pRespawnInfo rg.nLifeTime ct)
  have hmem : rg.pRespawnInfo ∈ s.m_vRespawnInfo :=
    hs.registered rg (List.mem_append_right _ List.mem_cons_self)
  have hfresh : s.props.length ∉ s.m_vExpireObject := by
    intro h
    obtain ⟨p, hp, -⟩ := (hs.expire _).mp h
    rw [List.getElem?_eq_none (Nat.le_refl _)] at hp
    cases hp
  refine ⟨hs.numbers, ?_, ?_, ?_, ?_, ?_, ?_, ?_⟩
  · intro r hr
    apply hs.registered r
    rcases List.mem_append.mp hr with hr | hr
    · exact List.mem_append_left _ hr
    · exact List.mem_append_right _ (List.mem_cons_of_mem _ hr)
  · intro p hp
    rcases List.mem_append.mp hp with hp | hp
    · exact hs.infos p hp
    · rw [List.mem_singleton.mp hp]
      exact hmem
  · intro info hinfo hmany
    have hplace := hs.place info hinfo hmany
    rw [List.countP_cons] at hplace
    have hpresent : (s.spawn ct rg).present info =
        s.present info + if decide (rg.pRespawnInfo = info) = true then 1 else 0 := by
      show (s.props ++ [create rg.pRespawnInfo rg.nLifeTime ct]).countP _ = _
      rw [List.countP_append, List.countP_singleton]
      rfl
    have hwaiting : (s.spawn ct rg).waiting info = s.waiting info := rfl
    rw [hpresent, hwaiting]
    omega
  · intro o'
    show o' ∈ (if rg.nLifeTime = 0 then s.m_vExpireObject else s.m_vExpireObject ++ [s.props.length]) ↔
      ∃ p, (s.props ++ [create rg.pRespawnInfo rg.nLifeTime ct])[o']? = some p ∧ _
    rw [hget]
    by_cases ho : o' = s.props.length
    · subst ho
      by_cases hlife : rg.nLifeTime = 0
      · simp [hlife, hfresh, create]
      · simp [hlife, create]
    · by_cases hlife : rg.nLifeTime = 0
      · simp [hlife, ho, hs.expire]
      · simp [hlife, ho, hs.expire]
  · show (if rg.nLifeTime = 0 then s.m_vExpireObject else s.m_vExpireObject ++ [s.props.length]).Nodup
    split_ifs
    · exact hs.nodup
    · exact List.nodup_append.mpr ⟨hs.nodup, by simp, fun a ha b hb => by
        rw [List.mem_singleton.mp hb]
        rintro rfl
        exact hfresh ha⟩
  · intro o' p hp
    have hp : (s.props ++ [create rg.pRespawnInfo rg.nLifeTime ct])[o']? = some p := hp
    rw [hget] at hp
    split_ifs at hp with ho
    · rw [ho, hbeyond, ← Option.some.inj hp]
      exact propOk_create _ _ _
    · exact hs.props o' p hp
  · intro o' ho'
    have ho' : (s.props ++ [create rg.pRespawnInfo rg.nLifeTime ct]).length ≤ o' := ho'
    rw [List.length_append, List.length_singleton] at ho'
    exact hs.beyond o' (by omega)

theorem Accounted.spawnDue (hs : Accounted u [] s) (ct : Nat) : Accounted u [] (s.spawnDue ct) := by
  have hfold : ∀ (l : List FieldPropRegenInfo) (t : FieldPropManager), Accounted u l t →
      Accounted u [] (l.foldl (fun s rg => s.spawn ct rg) t) := by
    intro l
    induction l with
    | nil => exact fun t ht => ht
    | cons rg l ih => exact fun t ht => ih _ (ht.spawn ct)
  apply hfold
  refine ⟨hs.numbers, ?_, hs.infos, ?_, hs.expire, hs.nodup, hs.props, hs.beyond⟩
  · intro r hr
    apply hs.registered r
    rw [List.append_nil]
    rcases List.mem_append.mp hr with hr | hr
    · exact (List.mem_filter.mp hr).1
    · exact (List.mem_filter.mp hr).1
  · intro info hinfo hmany
    have hplace := hs.place info hinfo hmany
    have hsplit := List.countP_eq_countP_filter_add s.m_vRespawnList
      (fun rg => decide (rg.pRespawnInfo = info)) (fun rg => decide (rg.tNextRegen < ct))
    have hwaiting : s.waiting info = s.m_vRespawnList.countP fun rg => decide (rg.pRespawnInfo = info) := rfl
    have hpresent : s.present info = s.props.countP (isPresent info) := rfl
    rw [List.countP_nil] at hplace
    show (s.m_vRespawnList.filter fun rg => !decide (rg.tNextRegen < ct)).countP _ + _ + s.props.countP _ = 1
    omega

/-- What `spawnDue` leaves on the list is not due, and what it adds to the props is new. -/
theorem spawnDue_frame (s : FieldPropManager) (ct : Nat) :
    (s.spawnDue ct).m_vRespawnList = (s.m_vRespawnList.filter fun rg => !decide (rg.tNextRegen < ct)) ∧
      (s.spawnDue ct).props = s.props ++ (s.m_vRespawnList.filter fun rg => decide (rg.tNextRegen < ct)).map
        fun rg => create rg.pRespawnInfo rg.nLifeTime ct := by
  have hfold : ∀ (l : List FieldPropRegenInfo) (t : FieldPropManager),
      (l.foldl (fun s rg => s.spawn ct rg) t).m_vRespawnList = t.m_vRespawnList ∧
        (l.foldl (fun s rg => s.spawn ct rg) t).props = t.props ++ l.map fun rg => create rg.pRespawnInfo rg.nLifeTime ct := by
    intro l
    induction l with
    | nil => exact fun t => ⟨rfl, (List.append_nil _).symm⟩
    | cons rg l ih =>
      intro t
      obtain ⟨hlist, hprops⟩ := ih (t.spawn ct rg)
      refine ⟨hlist, hprops.trans ?_⟩
      rw [List.map_cons, List.append_cons]
      rfl
  exact hfold _ _

/-- In a careful update nothing is taken out of the world. -/
theorem Accounted.update (hs : Accounted u [] s) (hcareful : Careful s (.update ct)) :
    s.update ct = some (s.spawnDue ct) := by
  have hdue := hs.spawnDue ct
  obtain ⟨-, hprops⟩ := spawnDue_frame s ct
  have hover : ∀ o ∈ (s.spawnDue ct).m_vExpireObject, ¬((s.spawnDue ct).prop o).any (fun p => lifeOver p ct) = true := by
    intro o ho
    obtain ⟨p, hp, hworld, hlife⟩ := (hdue.expire o).mp ho
    have hlive := ((hdue.props o p hp).live hworld).2
    rw [prop_eq_some_iff.mpr ⟨hp, hlive⟩, Option.any_some, lifeOver, decide_eq_true_eq, Nat.not_lt]
    have hmem := List.mem_of_getElem? hp
    rw [hprops, List.mem_append, List.mem_map] at hmem
    rcases hmem with hmem | ⟨rg, hrg, rfl⟩
    · exact hcareful.1 p hmem hworld hlife
    · obtain ⟨hrg, htime⟩ := List.mem_filter.mp hrg
      exact hcareful.2 rg hrg (of_decide_eq_true htime) hlife
  rw [FieldPropManager.update, expireAll, if_pos fun o ho => hdue.prop_isSome ho, List.filter_eq_nil_iff.mpr hover]
  rfl

/-! ## Runs -/

theorem uses_cons (tr : Transition FieldPropManager FieldPropEvent) (hist : History FieldPropManager FieldPropEvent)
    (o : Nat) : uses (tr :: hist) o = uses hist o + (completes tr o).toNat := by
  rw [uses, List.countP_cons, uses]
  cases completes tr o <;> rfl

theorem completes_use {ok : Bool} (hp : s.prop o = some p) (h : s.useProp o ct = some (s', ok)) (t : FieldPropManager)
    (o' : Nat) : completes ⟨s, .use o ct, t⟩ o' = (decide (o = o') && p.inWorld && ok) := by
  show (decide (o = o') && (s.prop o').any (·.inWorld) && (s.useProp o ct).any Prod.snd) = _
  by_cases ho : o = o'
  · subst ho
    rw [hp, h]
    rfl
  · rw [decide_eq_false ho, Bool.false_and, Bool.false_and, Bool.false_and, Bool.false_and]

theorem Accounted.use (hs : Accounted (uses hist) [] s) {ok : Bool} (h : s.useProp o ct = some (s', ok)) :
    Accounted (uses (⟨s, .use o ct, s'⟩ :: hist)) [] s' := by
  obtain ⟨p, hp, hused⟩ := useProp_cases h
  have hget := (prop_eq_some_iff.mp hp).1
  have hok := hs.props o p hget
  have hother : ∀ o', o' ≠ o → uses (⟨s, .use o ct, s'⟩ :: hist) o' = uses hist o' := by
    intro o' ho'
    rw [uses_cons, completes_use hp h, decide_eq_false (Ne.symm ho')]
    rfl
  have hsame : uses (⟨s, .use o ct, s'⟩ :: hist) o = uses hist o + (p.inWorld && ok).toNat := by
    rw [uses_cons, completes_use hp h, decide_eq_true rfl, Bool.true_and]
  generalize uses (⟨s, .use o ct, s'⟩ :: hist) = u' at hother hsame ⊢
  cases hused with
  | refused hbase hneg =>
    rw [Bool.and_false] at hsame
    exact hs.modify hget rfl rfl rfl (hsame ▸ ⟨hok.live, hok.positive, hok.negative, hok.gone⟩) hother
  | unlimited hbase =>
    refine hs.modify hget rfl rfl rfl ⟨hok.live, fun _ hpos => ?_, hok.negative, fun hgone => ?_⟩ hother
    · exact absurd hbase (Int.ne_of_gt hpos)
    · exact absurd hbase (Int.ne_of_gt (hok.gone hgone).1)
  | counted hbase hnonneg hnot =>
    refine hs.modify hget rfl rfl rfl ⟨hok.live, fun hworld hpos => ?_, fun hworld hneg => ?_, fun hgone => ?_⟩ hother
    · obtain ⟨hcount, hsum⟩ := hok.positive hworld hpos
      have hworld : p.inWorld = true := hworld
      rw [hworld] at hsame
      simp only [Bool.and_self, Bool.toNat_true] at hsame
      rw [hsame]
      dsimp only
      omega
    · have := hok.negative hworld hneg
      omega
    · obtain ⟨hpos, hcount, hu⟩ := hok.gone hgone
      have hgone : p.inWorld = false := hgone
      rw [hgone] at hsame
      refine ⟨hpos, ?_, hsame ▸ hu⟩
      dsimp only
      omega
  | last hbase hone =>
    have hworld : p.inWorld = true := by
      by_contra hgone
      have := (hok.gone ((Bool.not_eq_true _).mp hgone)).2.1
      omega
    have hpos : 0 < p.m_PropInfo.base.nUseCount := by
      rcases Int.lt_or_gt_of_ne hbase with hneg | hpos
      · have := hok.negative hworld hneg
        omega
      · exact hpos
    have hsum := (hok.positive hworld hpos).2
    rw [hworld] at hsame
    simp only [Bool.and_self, Bool.toNat_true] at hsame
    apply hs.last hget hworld
    · rfl
    · rfl
    · refine ⟨nofun, nofun, nofun, fun _ => ⟨hpos, Int.le_refl 0, ?_⟩⟩
      rw [hsame]
      dsimp only
      omega
    · exact hother

/-- What a run keeps, besides the entries of the log of updates. -/
structure RunOk (hist : History FieldPropManager FieldPropEvent) (s : FieldPropManager) : Prop where
  accounted : Accounted (uses hist) [] s
  due : ∀ tr ∈ hist, ∀ ct, tr.event = .update ct → ∀ rg ∈ tr.after.m_vRespawnList, ct ≤ rg.tNextRegen

/-- An event that is neither a use nor an update completes no use and leaves nothing due. -/
theorem RunOk.cons (hs : RunOk hist s) (hs' : Accounted (uses hist) [] s') (huse : ∀ o ct, e ≠ .use o ct)
    (hupdate : ∀ ct, e ≠ .update ct) : RunOk (⟨s, e, s'⟩ :: hist) s' := by
  have huses : uses (⟨s, e, s'⟩ :: hist) = uses hist := by
    funext o
    rw [uses_cons]
    cases e with
    | use o' ct => exact absurd rfl (huse o' ct)
    | script _ _ _ | register _ _ _ | cast _ | update _ | free _ => rfl
  refine ⟨huses ▸ hs', fun tr htr => ?_⟩
  rcases List.mem_cons.mp htr with rfl | htr
  · intro ct hct
    exact absurd hct (hupdate ct)
  · exact hs.due tr htr

theorem RunOk.step (hs : RunOk hist s) (hcareful : Careful s e) (h : s.handle e = some s') :
    RunOk (⟨s, e, s'⟩ :: hist) s' := by
  cases e with
  | script base bOnce lifeTime =>
    obtain rfl := Option.some.inj h
    refine hs.cons ?_ (fun _ _ => nofun) (fun _ => nofun)
    cases base with
    | none => exact hs.accounted
    | some base => exact hs.accounted.register rfl _ _
  | register base bOnce ct =>
    obtain rfl := Option.some.inj h
    refine hs.cons ?_ (fun _ _ => nofun) (fun _ => nofun)
    cases base with
    | none => exact hs.accounted
    | some base => exact hs.accounted.register rfl _ _
  | cast o =>
    obtain ⟨p, hp, rfl⟩ := Option.map_eq_some_iff.mp h
    exact hs.cons (hs.accounted.cast (prop_eq_some_iff.mp hp).1) (fun _ _ => nofun) (fun _ => nofun)
  | use o ct =>
    obtain ⟨⟨t, ok⟩, ht, rfl⟩ := Option.map_eq_some_iff.mp h
    refine ⟨hs.accounted.use ht, fun tr htr => ?_⟩
    rcases List.mem_cons.mp htr with rfl | htr
    · exact nofun
    · exact hs.due tr htr
  | update ct =>
    have h : s.update ct = some s' := h
    rw [hs.accounted.update hcareful] at h
    obtain rfl := Option.some.inj h
    have huses : uses (⟨s, .update ct, s.spawnDue ct⟩ :: hist) = uses hist := by
      funext o
      rw [uses_cons]
      rfl
    refine ⟨huses ▸ hs.accounted.spawnDue ct, fun tr htr => ?_⟩
    rcases List.mem_cons.mp htr with rfl | htr
    · rintro ct' hct' rg hrg
      obtain rfl := FieldPropEvent.update.inj hct'
      have hrg : rg ∈ (s.spawnDue ct).m_vRespawnList := hrg
      rw [(spawnDue_frame s ct).1, List.mem_filter] at hrg
      simpa using hrg.2
    · exact hs.due tr htr
  | free o => exact hs.cons (hs.accounted.free h) (fun _ _ => nofun) (fun _ => nofun)

theorem runOk_of_run (hrun : system.RunWhere (fun _ s e => Careful s e) hist s) : RunOk hist s := by
  apply hrun.invariant
  · rintro s rfl
    exact ⟨accounted_init, fun tr htr => (nomatch htr)⟩
  · intro h s e t _ ih hcareful hstep
    exact ih.step hcareful hstep

theorem RunOk.claimed (hs : RunOk hist s) : Claimed hist s where
  place info hinfo hmany := hs.accounted.place info hinfo hmany
  expire o := by
    rw [hs.accounted.expire]
    constructor
    · rintro ⟨p, hp, hworld, hlife⟩
      exact ⟨p, prop_eq_some_iff.mpr ⟨hp, ((hs.accounted.props o p hp).live hworld).2⟩, hworld, hlife⟩
    · rintro ⟨p, hp, hworld, hlife⟩
      exact ⟨p, (prop_eq_some_iff.mp hp).1, hworld, hlife⟩
  nodup := hs.accounted.nodup
  uses o p hp hpos := by
    have hok := hs.accounted.props o p (prop_eq_some_iff.mp hp).1
    cases hworld : p.inWorld with
    | false =>
      have hu := (hok.gone hworld).2.2
      exact ⟨by omega, nofun⟩
    | true =>
      obtain ⟨hcount, hsum⟩ := hok.positive hworld hpos
      exact ⟨by omega, fun _ => by omega⟩
  due := hs.due

/-! ## What has outlived its time -/

/-- A prop that is in the pool, and in the world only as long as nothing has asked for its removal. -/
def Alive (s : FieldPropManager) : Prop :=
  ∀ (o : Nat) (p : FieldProp), s.props[o]? = some p → p.inWorld = true → p.deleteRequest = false ∧ p.freed = false

/-- A prop that has left the world stays out of it. -/
def Away (s : FieldPropManager) (o : Nat) : Prop := ∀ p, s.props[o]? = some p → p.inWorld = false

theorem Alive.expire (hs : Alive s) (o : Nat) : Alive (s.expire o) ∧ (s.expire o).Away o ∧
    (∀ o', s.Away o' → (s.expire o).Away o') ∧ (s.expire o).m_vExpireObject = s.m_vExpireObject := by
  unfold FieldPropManager.expire
  split_ifs with hany
  · have hget : ∀ o', ((s.removeFromWorld o).deleteThis o).props[o']? =
        (s.props[o']?).map fun p => if o = o' then { p with inWorld := false, deleteRequest := true } else p := by
      intro o'
      show ((s.props.modify o _).modify o _)[o']? = _
      rw [List.modify_modify_eq, List.getElem?_modify]
      cases s.props[o']? with
      | none => rfl
      | some p =>
        by_cases ho : o = o'
        · simp [ho]
        · simp [ho]
    refine ⟨fun o' q hq hworld => ?_, fun q hq => ?_, fun o' ho' q hq => ?_, rfl⟩
    · obtain ⟨p, hp, rfl⟩ := Option.map_eq_some_iff.mp ((hget o').symm.trans hq)
      split_ifs at hworld ⊢ with ho
      · exact hs o' p hp hworld
    · obtain ⟨p, hp, rfl⟩ := Option.map_eq_some_iff.mp ((hget o).symm.trans hq)
      rw [if_pos rfl]
    · obtain ⟨p, hp, rfl⟩ := Option.map_eq_some_iff.mp ((hget o').symm.trans hq)
      split_ifs with ho
      · rfl
      · exact ho' p hp
  · refine ⟨hs, fun p hp => ?_, fun _ ho' => ho', rfl⟩
    by_contra hworld
    obtain ⟨hdel, hfreed⟩ := hs o p hp ((Bool.not_eq_false _).mp hworld)
    apply hany
    rw [prop_eq_some_iff.mpr ⟨hp, hfreed⟩, Option.any_some, (Bool.not_eq_false _).mp hworld, hdel]
    rfl

theorem Alive.expireFold (l : List Nat) (hs : Alive s) : (∀ o ∈ l, (l.foldl FieldPropManager.expire s).Away o) ∧
    (∀ o, s.Away o → (l.foldl FieldPropManager.expire s).Away o) ∧
    (l.foldl FieldPropManager.expire s).m_vExpireObject = s.m_vExpireObject := by
  induction l generalizing s with
  | nil => exact ⟨fun o ho => (nomatch ho), fun _ h => h, rfl⟩
  | cons o l ih =>
    obtain ⟨halive, haway, hkeep, hexpire⟩ := hs.expire o
    obtain ⟨hl, hold, hlist⟩ := ih halive
    refine ⟨fun o' ho' => ?_, fun o' ho' => hold o' (hkeep o' ho'), hlist.trans hexpire⟩
    rcases List.mem_cons.mp ho' with rfl | ho'
    · exact hold o' haway
    · exact hl o' ho'

/-- A prop whose time is over leaves the world, and its pointer is kept. -/
theorem RunOk.not_claimed (hs : RunOk hist s) (hcareful : ¬Careful s (.update ct)) (h : s.update ct = some s')
    (hclaimed : Claimed (⟨s, .update ct, s'⟩ :: hist) s') : False := by
  have hdue := hs.accounted.spawnDue ct
  obtain ⟨-, hprops⟩ := spawnDue_frame s ct
  -- a prop of the careful condition that is over, at its place after the spawns
  have hover : ∃ p ∈ (s.spawnDue ct).props, p.inWorld = true ∧ p.nLifeTime ≠ 0 ∧ lifeOver p ct = true := by
    rw [hprops]
    by_contra hnone
    apply hcareful
    refine ⟨fun p hp hworld hlife => ?_, fun rg hrg htime hlife => ?_⟩
    · by_contra hlt
      exact hnone ⟨p, List.mem_append_left _ hp, hworld, hlife, decide_eq_true (Nat.lt_of_not_le hlt)⟩
    · by_contra hlt
      exact hnone ⟨create rg.pRespawnInfo rg.nLifeTime ct, List.mem_append_right _
        (List.mem_map_of_mem (List.mem_filter.mpr ⟨hrg, decide_eq_true htime⟩)), rfl, hlife,
        decide_eq_true (Nat.lt_of_not_le hlt)⟩
  obtain ⟨p, hp, hworld, hlife, htime⟩ := hover
  obtain ⟨o, ho⟩ := List.mem_iff_getElem?.mp hp
  have hmem : o ∈ (s.spawnDue ct).m_vExpireObject := (hdue.expire o).mpr ⟨p, ho, hworld, hlife⟩
  have halive : Alive (s.spawnDue ct) := fun o p hp => (hdue.props o p hp).live
  rw [FieldPropManager.update, expireAll, if_pos fun o ho => hdue.prop_isSome ho] at h
  obtain rfl := Option.some.inj h
  obtain ⟨haway, -, hlist⟩ := halive.expireFold
    ((s.spawnDue ct).m_vExpireObject.filter fun o => ((s.spawnDue ct).prop o).any fun p => lifeOver p ct)
  obtain ⟨q, hq, hin, -⟩ := (hclaimed.expire o).mp (hlist.symm ▸ hmem : o ∈ FieldPropManager.m_vExpireObject _)
  have hout := haway o (List.mem_filter.mpr ⟨hmem, by
    rw [prop_eq_some_iff.mpr ⟨ho, ((hdue.props o p ho).live hworld).2⟩]
    exact htime⟩) q (prop_eq_some_iff.mp hq).1
  rw [hin] at hout
  cases hout

/-- Of every set of registered props, and every run in which no life time is over; the first update in which one is
over breaks it. -/
theorem neverLost_of_run (hrun : system.RunWhere (fun _ s e => Careful s e) hist s) : Claimed hist s ∧
    ∀ e s', s.handle e = some s' → (Claimed (⟨s, e, s'⟩ :: hist) s' ↔ Careful s e) := by
  have hok := runOk_of_run hrun
  refine ⟨hok.claimed, fun e s' h => ⟨fun hclaimed => ?_, fun hcareful => (hok.step hcareful h).claimed⟩⟩
  by_contra hcareful
  cases e with
  | update ct => exact hok.not_claimed hcareful h hclaimed
  | script _ _ _ | register _ _ _ | cast _ | use _ _ | free _ => exact hcareful trivial

/-- A prop for two uses, that comes back after five units of time and stays for ten. -/
def chest : FieldPropTemplate where
  nCastingTime := 3
  nUseCount := 2
  nRegenTime := 5
  nLifeTime := 10
  nMinLevel := 1
  nMaxLevel := 100
  nLimit := 0
  nLimitJobID := 0
  nActivate := [⟨0, 0, 0⟩, ⟨0, 0, 0⟩]
  nActivateSkillID := 1

/-- It comes, is used twice, is deleted, and comes back. -/
theorem claimed_chest : ∃ hist s, system.RunWhere (fun _ s e => Careful s e) hist s ∧
    (s.props.map (·.inWorld), s.m_vExpireObject, s.m_vRespawnList.length) = ([false, true], [1], 0) ∧
    Claimed hist s := by
  obtain ⟨hist, s, hrun, hs⟩ := System.exists_run_exec
    (fun s : FieldPropManager => (s.props.map (·.inWorld), s.m_vExpireObject, s.m_vRespawnList.length))
    [.register (some chest) false 0, .update 6, .cast 0, .use 0 7, .cast 0, .use 0 8, .update 9, .free 0, .update 14]
    (System.RunWhere.init rfl : system.RunWhere (fun _ s e => Careful s e) [] {})
    (by decide +kernel : _ = some ([false, true], [1], 0))
  exact ⟨hist, s, hrun, hs, (neverLost_of_run hrun).1⟩

/-- A prop that has outlived its time is nowhere. -/
theorem not_neverLost : ¬∀ hist s, system.Run hist s → Claimed hist s := by
  intro h
  obtain ⟨hist, s, hrun, hs⟩ := System.exists_run_exec
    (fun s : FieldPropManager => (s.m_vRespawnInfo, s.m_vRespawnList, s.props.map (·.inWorld)))
    [.register (some chest) false 0, .update 6, .update 17]
    (System.RunWhere.init rfl : system.Run [] {})
    (by decide +kernel : _ = some ([⟨0, chest, false⟩], [], [false]))
  simp only [Prod.mk.injEq] at hs
  obtain ⟨hinfo, hlist, hprops⟩ := hs
  have hplace := (h hist s hrun).place ⟨0, chest, false⟩ (hinfo ▸ List.mem_singleton.mpr rfl) rfl
  have hpresent : s.present ⟨0, chest, false⟩ = 0 := by
    rw [present, List.countP_eq_zero]
    intro p hp
    have hworld : p.inWorld ∈ s.props.map (·.inWorld) := List.mem_map_of_mem hp
    rw [hprops, List.mem_singleton] at hworld
    rw [isPresent, hworld]
    exact Bool.false_ne_true
  rw [waiting, hlist, hpresent] at hplace
  cases hplace

end FieldPropManager

end RZEmulator.Chihiro
