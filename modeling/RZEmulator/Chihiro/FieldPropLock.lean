import RZEmulator.Chihiro.FieldPropCast
import RZEmulator.Chihiro.FieldPropRun

/-!
# The lock of a field prop

`m_bIsCasting` is to say whether a player is casting on the prop. A cast that is accepted takes the lock and the use
gives it back, but nothing does when the cast is interrupted: the prop then refuses everybody until it is removed.
-/

namespace RZEmulator.Chihiro

open Lib

/-! ## What the manager does to the locks -/

namespace FieldPropManager

/-- The lock and the count of a prop, and what it is, stay; a freed prop does not come back. -/
structure SameLock (p q : FieldProp) : Prop where
  casting : q.m_bIsCasting = p.m_bIsCasting
  count : q.m_nUseCount = p.m_nUseCount
  info : q.m_PropInfo = p.m_PropInfo
  freed : q.freed = false → p.freed = false

/-- A prop of an unlimited template has one use left, always. -/
def OneLeft (p : FieldProp) : Prop := p.m_PropInfo.base.nUseCount = 0 → p.m_nUseCount = 1

/-- No old prop is locked or unlocked, and a new one is not locked. -/
structure Quiet (s s' : FieldPropManager) : Prop where
  length_le : s.props.length ≤ s'.props.length
  old : ∀ (o : Nat) (p q : FieldProp), s.props[o]? = some p → s'.props[o]? = some q → SameLock p q
  new : ∀ (o : Nat) (q : FieldProp), s.props.length ≤ o → s'.props[o]? = some q → q.m_bIsCasting = false ∧ OneLeft q

variable {s s' t : FieldPropManager} {o ct : Nat} {p : FieldProp}

theorem Quiet.refl (s : FieldPropManager) : Quiet s s where
  length_le := Nat.le_refl _
  old o p q hp hq := by
    obtain rfl := Option.some.inj (hp.symm.trans hq)
    exact ⟨rfl, rfl, rfl, id⟩
  new o q ho hq := by
    rw [List.getElem?_eq_none ho] at hq
    cases hq

theorem Quiet.trans (h : Quiet s s') (h' : Quiet s' t) : Quiet s t where
  length_le := Nat.le_trans h.length_le h'.length_le
  old o p q hp hq := by
    have ho := Nat.lt_of_lt_of_le (List.getElem?_eq_some_iff.mp hp).1 h.length_le
    have hmid : s'.props[o]? = some s'.props[o] := List.getElem?_eq_getElem ho
    have h₁ := h.old o p _ hp hmid
    have h₂ := h'.old o _ q hmid hq
    exact ⟨h₂.casting.trans h₁.casting, h₂.count.trans h₁.count, h₂.info.trans h₁.info, fun hf => h₁.freed (h₂.freed hf)⟩
  new o q ho hq := by
    rcases Nat.lt_or_ge o s'.props.length with hlt | hge
    · have hmid : s'.props[o]? = some s'.props[o] := List.getElem?_eq_getElem hlt
      obtain ⟨hcast, hone⟩ := h.new o _ ho hmid
      have hsame := h'.old o _ q hmid hq
      refine ⟨hsame.casting.trans hcast, fun hbase => hsame.count.trans (hone ?_)⟩
      rw [← hsame.info]
      exact hbase
    · exact h'.new o q hge hq

theorem Quiet.of_props (h : s'.props = s.props) : Quiet s s' := by
  have hquiet := Quiet.refl s
  exact ⟨h ▸ hquiet.length_le, h ▸ hquiet.old, h ▸ hquiet.new⟩

theorem Quiet.modify {f : FieldProp → FieldProp} (hf : ∀ p, SameLock p (f p)) (s : FieldPropManager) (o : Nat) :
    Quiet s (s.modify o f) where
  length_le := Nat.le_of_eq (List.length_modify _ _ _).symm
  old o' p q hp hq := by
    have hq : (s.props.modify o f)[o']? = some q := hq
    rw [List.getElem?_modify, hp] at hq
    have hq : (if o = o' then f p else p) = q := Option.some.inj hq
    rw [← hq]
    split_ifs
    · exact hf p
    · exact ⟨rfl, rfl, rfl, id⟩
  new o' q ho' hq := by
    have hlt := (List.getElem?_eq_some_iff.mp hq).1
    have hlen : (s.modify o f).props.length = s.props.length := List.length_modify _ _ _
    omega

theorem create_oneLeft (info : FieldPropRespawnInfo) (lifeTime ct : Nat) : OneLeft (create info lifeTime ct) := by
  intro hbase
  exact if_pos hbase

theorem Quiet.spawn (s : FieldPropManager) (ct : Nat) (rg : FieldPropRegenInfo) : Quiet s (s.spawn ct rg) := by
  have hget := getElem?_concat s.props (create rg.pRespawnInfo rg.nLifeTime ct)
  refine ⟨?_, fun o p q hp hq => ?_, fun o q ho hq => ?_⟩
  · show s.props.length ≤ (s.props ++ [create rg.pRespawnInfo rg.nLifeTime ct]).length
    rw [List.length_append]
    exact Nat.le_add_right _ _
  · have hne := Nat.ne_of_lt (List.getElem?_eq_some_iff.mp hp).1
    have hq := (hget o).symm.trans hq
    rw [if_neg hne, hp] at hq
    rw [← Option.some.inj hq]
    exact ⟨rfl, rfl, rfl, id⟩
  · have hq := (hget o).symm.trans hq
    split_ifs at hq
    · rw [← Option.some.inj hq]
      exact ⟨rfl, create_oneLeft _ _ _⟩
    · rw [List.getElem?_eq_none ho] at hq
      cases hq

theorem Quiet.foldl {α : Type*} {f : FieldPropManager → α → FieldPropManager} (hf : ∀ s a, Quiet s (f s a)) (l : List α)
    (s : FieldPropManager) : Quiet s (l.foldl f s) := by
  induction l generalizing s with
  | nil => exact Quiet.refl s
  | cons a l ih => exact (hf s a).trans (ih (f s a))

theorem Quiet.expire (s : FieldPropManager) (o : Nat) : Quiet s (s.expire o) := by
  unfold FieldPropManager.expire
  split_ifs
  · have hremove : Quiet s (s.removeFromWorld o) := by
      apply Quiet.modify
      exact fun p => ⟨rfl, rfl, rfl, id⟩
    apply hremove.trans
    apply Quiet.modify
    exact fun p => ⟨rfl, rfl, rfl, id⟩
  · exact Quiet.refl s

theorem Quiet.update (h : s.update ct = some s') : Quiet s s' := by
  unfold FieldPropManager.update expireAll at h
  split_ifs at h
  obtain rfl := Option.some.inj h
  have hspawn : Quiet s (s.spawnDue ct) := by
    have hlist : Quiet s { s with m_vRespawnList := s.m_vRespawnList.filter fun rg => !decide (rg.tNextRegen < ct) } :=
      Quiet.of_props rfl
    exact hlist.trans (Quiet.foldl (fun s rg => Quiet.spawn s ct rg) _ _)
  exact hspawn.trans (Quiet.foldl Quiet.expire _ _)

theorem Quiet.free (h : s.free o = some s') : Quiet s s' := by
  obtain ⟨p, hp, h⟩ := Option.bind_eq_some_iff.mp h
  split_ifs at h
  obtain rfl := Option.some.inj h
  apply Quiet.modify
  exact fun p => ⟨rfl, rfl, rfl, nofun⟩

/-- A use unlocks the prop, and leaves the count of an unlimited one. -/
theorem useProp_unlocks {ok : Bool} (h : s.useProp o ct = some (s', ok)) : ∃ p q, s.prop o = some p ∧
    s'.props = s.props.modify o (fun _ => q) ∧ q.m_bIsCasting = false ∧ q.freed = p.freed ∧ (OneLeft p → OneLeft q) := by
  obtain ⟨p, hp, hused⟩ := useProp_cases h
  refine ⟨p, ?_⟩
  cases hused with
  | refused => exact ⟨_, hp, rfl, rfl, rfl, id⟩
  | unlimited => exact ⟨_, hp, rfl, rfl, rfl, id⟩
  | counted hbase => exact ⟨_, hp, rfl, rfl, rfl, fun _ hzero => absurd hzero hbase⟩
  | last hbase => exact ⟨_, hp, requeue_props _ _ _, rfl, rfl, fun _ hzero => absurd hzero hbase⟩

end FieldPropManager

namespace PropWorld

open FieldPropManager

/-! ## What is claimed -/

/-- The lock says whether somebody casts on the prop, and neither `Skill::Cast` nor `UseProp` refuses a prop without
limit for its count. -/
structure LockAgrees (w : PropWorld) : Prop where
  lock : ∀ o p, w.manager.prop o = some p → (p.m_bIsCasting = true ↔ ∃ i, w.target i = some o)
  unlimited : ∀ o p, w.manager.prop o = some p → p.m_PropInfo.base.nUseCount = 0 →
    ¬p.m_nUseCount < 1 ∧ (takeUse p).2 = true

/-- The player is casting on a prop that is in the pool. -/
def casting (w : PropWorld) (i : Nat) : Bool := (w.target i).any fun o => (w.manager.prop o).isSome

/-- The update of the player cancels its skill. -/
def cancels (w : PropWorld) (i : Nat) (dead : Bool) : Bool :=
  (w.target i).any fun o => dead || (w.propInWorld o).isNone

/-- Nothing interrupts the player while it casts on a prop. -/
def Careful (w : PropWorld) : PropCastEvent → Prop
  | .proc i dead _ _ => w.casting i = true → w.cancels i dead = false
  | .cancel i | .leave i => w.casting i = false
  | _ => True

instance (w : PropWorld) : (e : PropCastEvent) → Decidable (Careful w e)
  | .proc i dead _ _ => inferInstanceAs (Decidable (w.casting i = true → w.cancels i dead = false))
  | .cancel i | .leave i => inferInstanceAs (Decidable (w.casting i = false))
  | .manager _ | .join | .cast _ _ _ _ _ | .castOther _ | .completeOther _ => .isTrue trivial

/-! ## The invariant -/

structure LockOk (w : PropWorld) : Prop where
  lock : ∀ o p, w.manager.prop o = some p → (p.m_bIsCasting = true ↔ ∃ i, w.target i = some o)
  alone : ∀ i j o, w.target i = some o → w.target j = some o → i = j
  bound : ∀ i o, w.target i = some o → o < w.manager.props.length
  oneLeft : ∀ (o : Nat) (p : FieldProp), w.manager.props[o]? = some p → OneLeft p

variable {w w' : PropWorld} {m : FieldPropManager} {i o ct : Nat} {c c' : Caster} {p : FieldProp} {e : PropCastEvent}

theorem LockOk.agrees (hw : LockOk w) : LockAgrees w where
  lock := hw.lock
  unlimited o p hp hbase := by
    have hone := hw.oneLeft o p (prop_eq_some_iff.mp hp).1 hbase
    refine ⟨by omega, ?_⟩
    rw [takeUse, if_pos hbase]

theorem lockOk_init : LockOk {} where
  lock _ _ hp := nomatch hp
  alone _ _ _ hi := nomatch hi
  bound _ _ hi := nomatch hi
  oneLeft _ _ hp := nomatch hp

theorem target_modify (hc : w.players[i]? = some c) (f : Caster → Caster) (j : Nat) :
    ({ w with players := w.players.modify i f } : PropWorld).target j = if i = j then (f c).castTarget else w.target j := by
  show ((w.players.modify i f)[j]?).bind Caster.castTarget = _
  rw [getElem?_modify_of_getElem? hc]
  split_ifs <;> rfl

theorem target_eq (hc : w.players[i]? = some c) : w.target i = c.castTarget := by rw [target, hc, Option.bind_some]

theorem LockOk.quiet (hw : LockOk w) (hm : Quiet w.manager m) : LockOk (w.setManager m) where
  lock o q hq := by
    obtain ⟨hget, hfreed⟩ := prop_eq_some_iff.mp hq
    rcases Nat.lt_or_ge o w.manager.props.length with hlt | hge
    · have hold : w.manager.props[o]? = some w.manager.props[o] := List.getElem?_eq_getElem hlt
      have hsame := hm.old o _ q hold hget
      rw [hsame.casting]
      exact hw.lock o _ (prop_eq_some_iff.mpr ⟨hold, hsame.freed hfreed⟩)
    · rw [(hm.new o q hge hget).1]
      constructor
      · exact nofun
      · rintro ⟨i, hi⟩
        have := hw.bound i o hi
        omega
  alone := hw.alone
  bound i o hi := Nat.lt_of_lt_of_le (hw.bound i o hi) hm.length_le
  oneLeft o q hq := by
    rcases Nat.lt_or_ge o w.manager.props.length with hlt | hge
    · have hold : w.manager.props[o]? = some w.manager.props[o] := List.getElem?_eq_getElem hlt
      have hsame := hm.old o _ q hold hq
      intro hbase
      exact hsame.count.trans (hw.oneLeft o _ hold (hsame.info ▸ hbase))
    · exact (hm.new o q hge hq).2

/-- Nobody starts or ends a cast. -/
theorem LockOk.players (hw : LockOk w) {l : List Caster}
    (hl : ∀ j, ({ w with players := l } : PropWorld).target j = w.target j) : LockOk { w with players := l } := by
  refine ⟨fun o p hp => ?_, fun i j o => ?_, fun i o => ?_, hw.oneLeft⟩
  · rw [hw.lock o p hp]
    simp only [hl]
  · rw [hl, hl]
    exact hw.alone i j o
  · rw [hl]
    exact hw.bound i o

/-- A change of a player that does not touch its cast. -/
theorem LockOk.stay (hw : LockOk w) (hc : w.players[i]? = some c) {f : Caster → Caster}
    (hf : (f c).castTarget = c.castTarget) : LockOk { w with players := w.players.modify i f } := by
  apply hw.players
  intro j
  rw [target_modify hc]
  split_ifs with hij
  · rw [← hij, target_eq hc, hf]
  · rfl

/-! ## Casts -/

/-- The cast takes the lock, which nobody had. -/
theorem LockOk.start (hw : LockOk w) (hc : w.players[i]? = some c) (hfree : c.castTarget = none)
    (hp : w.manager.prop o = some p) (hlock : p.m_bIsCasting = false) {x : Option CastingSkill}
    (hx : ({ c with m_castingSkill := x } : Caster).castTarget = some o) :
    LockOk ((w.setManager (w.manager.cast o)).setCasting i x) := by
  obtain ⟨hget, hfreed⟩ := prop_eq_some_iff.mp hp
  have htarget := target_modify hc fun c => { c with m_castingSkill := x }
  have hprops := getElem?_modify_of_getElem? hget fun p => { p with m_bIsCasting := true }
  have hnobody : ∀ j, w.target j ≠ some o := by
    intro j hj
    have htrue := (hw.lock o p hp).mpr ⟨j, hj⟩
    rw [hlock] at htrue
    cases htrue
  have hnone : w.target i = none := (target_eq hc).trans hfree
  refine ⟨fun o' q hq => ?_, fun j k o' hj hk => ?_, fun j o' hj => ?_, fun o' q hq => ?_⟩
  · obtain ⟨hget', hqfreed⟩ := prop_eq_some_iff.mp hq
    have hq' := (hprops o').symm.trans hget'
    split_ifs at hq' with ho
    · subst ho
      rw [← Option.some.inj hq']
      exact ⟨fun _ => ⟨i, ((htarget i).trans (if_pos rfl)).trans hx⟩, fun _ => rfl⟩
    · rw [hw.lock o' q (prop_eq_some_iff.mpr ⟨hq', hqfreed⟩)]
      constructor
      · rintro ⟨j, hj⟩
        refine ⟨j, (htarget j).trans ?_⟩
        rw [if_neg, hj]
        rintro rfl
        rw [hnone] at hj
        cases hj
      · rintro ⟨j, hj⟩
        have hj := (htarget j).symm.trans hj
        split_ifs at hj with hij
        · exact absurd (Option.some.inj (hx.symm.trans hj)) ho
        · exact ⟨j, hj⟩
  · have hj := (htarget j).symm.trans hj
    have hk := (htarget k).symm.trans hk
    split_ifs at hj hk with hij hik hik
    · exact hij.symm.trans hik
    · rw [← Option.some.inj (hx.symm.trans hj)] at hk
      exact absurd hk (hnobody k)
    · rw [← Option.some.inj (hx.symm.trans hk)] at hj
      exact absurd hj (hnobody j)
    · exact hw.alone j k o' hj hk
  · have hj := (htarget j).symm.trans hj
    show o' < (w.manager.props.modify o _).length
    rw [List.length_modify]
    split_ifs at hj
    · rw [← Option.some.inj (hx.symm.trans hj)]
      exact (List.getElem?_eq_some_iff.mp hget).1
    · exact hw.bound j o' hj
  · have hq' := (hprops o').symm.trans hq
    split_ifs at hq' with ho
    · rw [← Option.some.inj hq']
      exact hw.oneLeft o p hget
    · exact hw.oneLeft o' q hq'

/-- The use gives the lock back, and ends the cast. -/
theorem LockOk.fire (hw : LockOk w) (hc : w.players[i]? = some c) (htarget : c.castTarget = some o) {ok : Bool}
    (huse : w.manager.useProp o ct = some (m, ok)) {x : Option CastingSkill}
    (hx : ({ c with m_castingSkill := x } : Caster).castTarget = none) :
    LockOk ((w.setManager m).setCasting i x) := by
  obtain ⟨p, q, hp, hm, hlock, hfreed, hone⟩ := useProp_unlocks huse
  obtain ⟨hget, -⟩ := prop_eq_some_iff.mp hp
  have htargets := target_modify hc fun c => { c with m_castingSkill := x }
  have hprops := getElem?_modify_of_getElem? hget fun _ => q
  have hi : w.target i = some o := (target_eq hc).trans htarget
  have hnot : ∀ j o', ((w.setManager m).setCasting i x).target j = some o' → j ≠ i ∧ w.target j = some o' := by
    intro j o' hj
    have hj := (htargets j).symm.trans hj
    split_ifs at hj with hij
    · rw [hx] at hj
      cases hj
    · exact ⟨Ne.symm hij, hj⟩
  refine ⟨fun o' r hr => ?_, fun j k o' hj hk => ?_, fun j o' hj => ?_, fun o' r hr => ?_⟩
  · obtain ⟨hget', hrfreed⟩ := prop_eq_some_iff.mp hr
    have hr' : m.props[o']? = some r := hget'
    rw [hm, hprops] at hr'
    split_ifs at hr' with ho
    · subst ho
      rw [← Option.some.inj hr', hlock]
      constructor
      · exact nofun
      · rintro ⟨j, hj⟩
        obtain ⟨hne, hj⟩ := hnot j o hj
        exact absurd (hw.alone j i o hj hi) hne
    · rw [hw.lock o' r (prop_eq_some_iff.mpr ⟨hr', hrfreed⟩)]
      constructor
      · rintro ⟨j, hj⟩
        refine ⟨j, (htargets j).trans ?_⟩
        rw [if_neg, hj]
        rintro rfl
        exact ho (Option.some.inj (hi.symm.trans hj))
      · rintro ⟨j, hj⟩
        exact ⟨j, (hnot j o' hj).2⟩
  · exact hw.alone j k o' (hnot j o' hj).2 (hnot k o' hk).2
  · show o' < m.props.length
    rw [hm, List.length_modify]
    exact hw.bound j o' (hnot j o' hj).2
  · have hr' : m.props[o']? = some r := hr
    rw [hm, hprops] at hr'
    split_ifs at hr' with ho
    · rw [← Option.some.inj hr']
      exact hone (hw.oneLeft o p hget)
    · exact hw.oneLeft o' r hr'

/-- A cast that ends without a use leaves a lock behind, if its prop is in the pool. -/
theorem LockOk.ended (hw : LockOk w) (hc : w.players[i]? = some c) {f : Caster → Caster} (hf : (f c).castTarget = none) :
    (w.casting i = false → LockOk { w with players := w.players.modify i f }) ∧
      (LockAgrees { w with players := w.players.modify i f } → w.casting i = false) := by
  have htargets := target_modify hc f
  have hnot : ∀ j o', ({ w with players := w.players.modify i f } : PropWorld).target j = some o' →
      j ≠ i ∧ w.target j = some o' := by
    intro j o' hj
    have hj := (htargets j).symm.trans hj
    split_ifs at hj with hij
    · rw [hf] at hj
      cases hj
    · exact ⟨Ne.symm hij, hj⟩
  constructor
  · intro hfree
    refine ⟨fun o' p hp => ?_, fun j k o' hj hk => hw.alone j k o' (hnot j o' hj).2 (hnot k o' hk).2,
      fun j o' hj => hw.bound j o' (hnot j o' hj).2, hw.oneLeft⟩
    rw [hw.lock o' p hp]
    constructor
    · rintro ⟨j, hj⟩
      refine ⟨j, (htargets j).trans ?_⟩
      rw [if_neg, hj]
      rintro rfl
      have hp : w.manager.prop o' = some p := hp
      rw [casting, hj, Option.any_some, hp] at hfree
      cases hfree
    · rintro ⟨j, hj⟩
      exact ⟨j, (hnot j o' hj).2⟩
  · intro hagrees
    by_contra hcast
    rw [Bool.not_eq_false] at hcast
    obtain ⟨o, ho, hp⟩ := (Option.any_eq_true _ _).mp hcast
    obtain ⟨p, hp⟩ := Option.isSome_iff_exists.mp hp
    have hlocked := (hw.lock o p hp).mpr ⟨i, ho⟩
    obtain ⟨j, hj⟩ := (hagrees.lock o p hp).mp hlocked
    obtain ⟨hne, hj⟩ := hnot j o hj
    exact hne (hw.alone j i o hj ho)

/-! ## Runs -/

theorem caster_eq_some (h : w.caster i = some c) : w.players[i]? = some c := (Option.filter_eq_some_iff.mp h).1

theorem LockOk.addPlayer (hw : LockOk w) : LockOk w.addPlayer := by
  apply hw.players
  intro j
  show ((w.players ++ [({} : Caster)])[j]?).bind Caster.castTarget = (w.players[j]?).bind Caster.castTarget
  rw [getElem?_concat]
  split_ifs with hj
  · rw [hj, List.getElem?_eq_none (Nat.le_refl _)]
    rfl
  · rfl

theorem LockOk.manager (hw : LockOk w) {e : FieldPropEvent} (h : w.handleManager e = some w') : LockOk w' := by
  cases e with
  | cast _ | use _ _ => cases h
  | script base bOnce lifeTime =>
    obtain rfl := Option.some.inj h
    apply hw.quiet
    cases base with
    | none => exact Quiet.refl _
    | some base => exact Quiet.of_props rfl
  | register base bOnce ct =>
    obtain rfl := Option.some.inj h
    apply hw.quiet
    cases base with
    | none => exact Quiet.refl _
    | some base => exact Quiet.of_props rfl
  | update ct =>
    obtain ⟨m, hm, rfl⟩ := Option.map_eq_some_iff.mp h
    exact hw.quiet (Quiet.update hm)
  | free o =>
    obtain ⟨m, hm, rfl⟩ := Option.map_eq_some_iff.mp h
    exact hw.quiet (Quiet.free hm)

theorem isUsable_casting {user : FieldPropUser} (h : p.isUsable user = true) : p.m_bIsCasting = false := by
  simp only [FieldProp.isUsable, Bool.and_eq_true, Bool.not_eq_true'] at h
  exact h.1.1.1.1.1.1

theorem LockOk.cast (hw : LockOk w) (hc : w.players[i]? = some c) (o : Nat) (skill : PropSkill) (user : FieldPropUser)
    (ct : Nat) : LockOk (w.castSkill i c o skill user ct) := by
  unfold castSkill
  split
  · exact hw
  · rename_i p hp
    split_ifs with haccept
    · obtain ⟨hnone, haccept⟩ := haccept
      rw [castAccepts, Bool.and_eq_true, Bool.and_eq_true] at haccept
      apply hw.start hc ?_ (Option.filter_eq_some_iff.mp hp).1 (isUsable_casting haccept.1.2)
      · rfl
      · rw [Caster.castTarget, hnone]
    · exact hw

theorem castTarget_complete (c : Caster) {o fireTime ct : Nat} : ({ c with
    m_castingSkill := if ct < fireTime then some (.onProp ⟨o, .complete, fireTime⟩) else none } : Caster).castTarget = none := by
  unfold Caster.castTarget
  split_ifs <;> rfl

/-- An update of a player that is not casting on a prop. -/
theorem LockOk.proc_idle (hw : LockOk w) (hc : w.players[i]? = some c) (hidle : c.castTarget = none) {dead : Bool}
    {commonDelay : Nat} (h : w.procSkill i c dead ct commonDelay = some w') : LockOk w' := by
  rcases hskill : c.m_castingSkill with _ | ⟨o, _ | _, fireTime⟩ | _
  · rw [procSkill, hskill] at h
    exact Option.some.inj h ▸ hw
  · rw [Caster.castTarget, hskill] at hidle
    cases hidle
  · rw [procSkill, hskill] at h
    dsimp only at h
    split_ifs at h
    · obtain rfl := Option.some.inj h
      exact hw.stay hc hidle.symm
    · exact Option.some.inj h ▸ hw
    · obtain rfl := Option.some.inj h
      exact hw.stay hc ((castTarget_complete c).trans hidle.symm)
  · rw [procSkill, hskill] at h
    exact Option.some.inj h ▸ hw

/-- An update of a player that is casting on a prop: the cast is cancelled, or goes on, or fires. -/
theorem LockOk.proc_cast (hw : LockOk w) (hc : w.players[i]? = some c) {fireTime : Nat}
    (hskill : c.m_castingSkill = some (.onProp ⟨o, .cast, fireTime⟩)) {dead : Bool} {commonDelay : Nat}
    (h : w.procSkill i c dead ct commonDelay = some w') :
    (Careful w (.proc i dead ct commonDelay) → LockOk w') ∧ (LockAgrees w' → Careful w (.proc i dead ct commonDelay)) := by
  have hcast : c.castTarget = some o := by rw [Caster.castTarget, hskill]
  have hcancels : w.cancels i dead = (dead || (w.propInWorld o).isNone) := by
    rw [cancels, target_eq hc, hcast, Option.any_some]
  rw [procSkill, hskill] at h
  dsimp only at h
  split_ifs at h with hcancel hearly
  · obtain rfl := Option.some.inj h
    obtain ⟨hkeep, hback⟩ := hw.ended hc (f := fun c => { c with m_castingSkill := none }) rfl
    have htrue : w.cancels i dead = true := by
      rw [hcancels, Bool.or_eq_true]
      exact hcancel
    constructor
    · intro hcareful
      apply hkeep
      by_contra hcasting
      have hfalse := hcareful ((Bool.not_eq_false _).mp hcasting)
      rw [htrue] at hfalse
      cases hfalse
    · intro hagrees hcasting
      rw [hback hagrees] at hcasting
      cases hcasting
  all_goals
    have hcareful : Careful w (.proc i dead ct commonDelay) := by
      intro _
      rw [hcancels, ← Bool.not_eq_true, Bool.or_eq_true]
      exact hcancel
  · exact ⟨fun _ => Option.some.inj h ▸ hw, fun _ => hcareful⟩
  · obtain ⟨⟨m, ok⟩, huse, rfl⟩ := Option.map_eq_some_iff.mp h
    exact ⟨fun _ => hw.fire hc hcast huse (castTarget_complete c), fun _ => hcareful⟩

/-- An event keeps the invariant if it is careful, and what is claimed only if it is. -/
theorem LockOk.step (hw : LockOk w) (h : w.handle e = some w') :
    (Careful w e → LockOk w') ∧ (LockAgrees w' → Careful w e) := by
  cases e with
  | manager e => exact ⟨fun _ => hw.manager h, fun _ => trivial⟩
  | join =>
    obtain rfl := Option.some.inj h
    exact ⟨fun _ => hw.addPlayer, fun _ => trivial⟩
  | cast i o skill user ct =>
    obtain ⟨c, hc, rfl⟩ := Option.map_eq_some_iff.mp h
    exact ⟨fun _ => hw.cast (caster_eq_some hc) o skill user ct, fun _ => trivial⟩
  | castOther i =>
    obtain ⟨c, hc, rfl⟩ := Option.map_eq_some_iff.mp h
    refine ⟨fun _ => ?_, fun _ => trivial⟩
    split_ifs with hnone
    · apply hw.stay (caster_eq_some hc)
      rw [Caster.castTarget, Caster.castTarget, hnone]
    · exact hw
  | completeOther i =>
    obtain ⟨c, hc, rfl⟩ := Option.map_eq_some_iff.mp h
    refine ⟨fun _ => ?_, fun _ => trivial⟩
    split_ifs with hother
    · apply hw.stay (caster_eq_some hc)
      rw [Caster.castTarget, Caster.castTarget, hother]
    · exact hw
  | proc i dead ct commonDelay =>
    obtain ⟨c, hc, h⟩ := Option.bind_eq_some_iff.mp h
    have hc := caster_eq_some hc
    cases hcast : c.castTarget with
    | none =>
      refine ⟨fun _ => hw.proc_idle hc hcast h, fun _ hcasting => ?_⟩
      rw [casting, target_eq hc, hcast] at hcasting
      cases hcasting
    | some o =>
      rcases hskill : c.m_castingSkill with _ | ⟨o', _ | _, fireTime⟩ | _
      · rw [Caster.castTarget, hskill] at hcast
        cases hcast
      · exact hw.proc_cast hc hskill h
      · rw [Caster.castTarget, hskill] at hcast
        cases hcast
      · rw [Caster.castTarget, hskill] at hcast
        cases hcast
  | cancel i =>
    obtain ⟨c, hc, rfl⟩ := Option.map_eq_some_iff.mp h
    exact hw.ended (caster_eq_some hc) rfl
  | leave i =>
    obtain ⟨c, hc, rfl⟩ := Option.map_eq_some_iff.mp h
    exact hw.ended (caster_eq_some hc) rfl

theorem lockOk_of_run {hist : History PropWorld PropCastEvent}
    (hrun : system.RunWhere (fun _ w e => Careful w e) hist w) : LockOk w := by
  apply hrun.invariant (I := fun _ w => LockOk w)
  · rintro w rfl
    exact lockOk_init
  · intro h w e w' _ ih hcareful hstep
    exact (ih.step hstep).1 hcareful

/-- Of every set of props and players and every run in which no cast on a prop is interrupted; the first interruption
breaks it. -/
theorem lockAgrees_of_run {hist : History PropWorld PropCastEvent}
    (hrun : system.RunWhere (fun _ w e => Careful w e) hist w) : LockAgrees w ∧
    ∀ e w', w.handle e = some w' → (LockAgrees w' ↔ Careful w e) := by
  have hok := lockOk_of_run hrun
  refine ⟨hok.agrees, fun e w' h => ?_⟩
  obtain ⟨hkeep, hback⟩ := hok.step h
  exact ⟨hback, fun hcareful => (hkeep hcareful).agrees⟩

def activateSkill : PropSkill := ⟨1, true, 0⟩

/-- A player whom no limit stops. -/
def anyone : FieldPropUser where
  level := 10
  isHunter := false
  isFighter := true
  isMagician := false
  isSummoner := false
  race := 4
  currentJob := 100
  itemCount := fun _ => none
  questProgress := fun _ => 0
  currentSkillLevel := fun _ => 0
  isWornByCode := fun _ => false

/-- A player is refused while another one casts on the prop, and gets it afterwards. -/
theorem lockAgrees_twoPlayers : ∃ hist w, system.RunWhere (fun _ w e => Careful w e) hist w ∧
    (w.target 0, w.target 1, w.manager.props.map (·.m_bIsCasting)) = (none, some 0, [true]) ∧ LockAgrees w := by
  obtain ⟨hist, w, hrun, hw⟩ := System.exists_run_exec
    (fun w : PropWorld => (w.target 0, w.target 1, w.manager.props.map (·.m_bIsCasting)))
    [.manager (.register (some chest) false 0), .manager (.update 6), .join, .join, .cast 0 0 activateSkill anyone 7,
      .cast 1 0 activateSkill anyone 8, .proc 0 false 10 5, .cast 1 0 activateSkill anyone 11]
    (System.RunWhere.init rfl : system.RunWhere (fun _ w e => Careful w e) [] {})
    (by decide +kernel : _ = some (none, some 0, [true]))
  exact ⟨hist, w, hrun, hw, (lockAgrees_of_run hrun).1⟩

/-- A cast that its player cancels locks the prop. -/
theorem not_lockAgrees : ¬∀ hist w, system.Run hist w → LockAgrees w := by
  intro h
  obtain ⟨hist, w, hrun, hw⟩ := System.exists_run_exec
    (fun w : PropWorld => (w.players, (w.manager.prop 0).map (·.m_bIsCasting)))
    [.manager (.register (some chest) false 0), .manager (.update 6), .join, .cast 0 0 activateSkill anyone 7, .cancel 0]
    (System.RunWhere.init rfl : system.Run [] {})
    (by decide +kernel : _ = some ([{}], some true))
  obtain ⟨hplayers, hprop⟩ := Prod.mk.inj hw
  obtain ⟨p, hp, hlock⟩ := Option.map_eq_some_iff.mp hprop
  obtain ⟨i, hi⟩ := ((h hist w hrun).lock 0 p hp).mp hlock
  rw [target, hplayers] at hi
  cases i with
  | zero => cases hi
  | succ i => cases hi

end PropWorld

end RZEmulator.Chihiro
