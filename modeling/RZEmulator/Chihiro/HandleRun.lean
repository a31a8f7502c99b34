import RZEmulator.Chihiro.HandleRegistry
import RZEmulator.Lib.Run

/-!
# Runs of the memory pool

What a handle is resolved to, at every moment of a run (`Claimed`). Every step keeps it, as long as the counter
that a handle is taken from has not left its range, except `AllocItemHandle`: `claimed_step_iff`.
-/

namespace RZEmulator.Chihiro

open Lib

namespace MemoryPool

/-- A handle is resolved to the one live object that carries it; two live objects have different handles; a handle
that some object has had is not resolved to one of another kind; an object stays registered while it is live. -/
structure Claimed (hist : History MemoryPool PoolEvent) (p : MemoryPool) : Prop where
  resolves : ∀ h o, p.getObjectInWorld h = some o ↔ p.Carries o h ∧ ∀ o', p.Carries o' h → o' = o
  distinct : ∀ h o o', p.Carries o h → p.Carries o' h → o = o'
  kinds : ∀ tr ∈ hist, ∀ o obj, tr.after.heap o = some obj → ∀ o' obj',
    p.getObjectInWorld obj.handle = some o' → p.heap o' = some obj' → o' = o ∨ obj'.kind = obj.kind
  stays : ∀ tr ∈ hist, ∀ k h o, (tr.before.holders k).lookup h = some o →
    (tr.after.heap o).isSome = true → (tr.after.holders k).lookup h = some o

/-- The next handle of the container lies in its range. -/
def Fits (p : MemoryPool) (k : Holder) : Prop := p.top k < k.base + 2 ^ 29

/-- No counter leaves its range, and no item gets a second handle. -/
def Careful (p : MemoryPool) : PoolEvent → Prop
  | .allocItem => p.Fits .item
  | .allocMiscHandle _ => p.Fits .object
  | .allocPlayer => p.Fits .player
  | .allocSummon => p.Fits .summon
  | .allocMonster => p.Fits .monster
  | .allocItemHandle _ => False
  | .deleteThis _ | .setInWorld _ _ | .update _ | .destroy => True

instance (p : MemoryPool) (k : Holder) : Decidable (p.Fits k) := inferInstanceAs (Decidable (_ < _))

instance (p : MemoryPool) : (e : PoolEvent) → Decidable (Careful p e)
  | .allocItem => inferInstanceAs (Decidable (p.Fits .item))
  | .allocMiscHandle _ => inferInstanceAs (Decidable (p.Fits .object))
  | .allocPlayer => inferInstanceAs (Decidable (p.Fits .player))
  | .allocSummon => inferInstanceAs (Decidable (p.Fits .summon))
  | .allocMonster => inferInstanceAs (Decidable (p.Fits .monster))
  | .allocItemHandle _ => .isFalse id
  | .deleteThis _ | .setInWorld _ _ | .update _ | .destroy => .isTrue trivial

variable {p p' : MemoryPool} {o o' h : Nat} {obj : PoolObject} {k : Holder} {kind : ObjKind} {e : PoolEvent}
  {hist : History MemoryPool PoolEvent}

/-! ## Careful steps -/

theorem next_eq {n : Nat} (hn : n < 2 ^ 32 - 1) : next n = n + 1 := Nat.mod_eq_of_lt (by omega)

theorem Counted.top_lt (hc : Counted p) (k : Holder) : p.top k < 2 ^ 32 - 1 := by
  have hmisc : p.m_nMiscTop ≤ 0x20000000 + 2 ^ 29 := hc.range .object (by decide)
  have hitems := hc.items
  cases k with
  | item =>
    show p.m_nItemTop < _
    omega
  | object =>
    show p.m_nMiscTop < _
    omega
  | monster =>
    have hrange : p.m_nMonsterTop ≤ 0x40000000 + 2 ^ 29 := hc.range .monster (by decide)
    show p.m_nMonsterTop < _
    omega
  | player =>
    have hrange : p.m_nPlayerTop ≤ 0x80000000 + 2 ^ 29 := hc.range .player (by decide)
    show p.m_nPlayerTop < _
    omega
  | summon =>
    have hrange : p.m_nSummonTop ≤ 0xC0000000 + 2 ^ 29 := hc.range .summon (by decide)
    show p.m_nSummonTop < _
    omega

/-- Only the counter of one container is raised. -/
theorem create_spec_of_bump (kind : ObjKind) (hr : Registered p) (hc : Counted p) (hsame : SameObjects p p')
    (hin : p.Fits kind.holder) (hbump : p'.top kind.holder = p.top kind.holder + 1)
    (hother : ∀ k, k ≠ kind.holder → p'.top k = p.top k) :
    Registered (p'.create kind (p.top kind.holder)) ∧ Counted (p'.create kind (p.top kind.holder)) ∧
      Evolves p (p'.create kind (p.top kind.holder)) := by
  have hmono : ∀ k, p.top k ≤ p'.top k := fun k => by
    by_cases hk : k = kind.holder
    · rw [hk, hbump]
      exact Nat.le_succ _
    · rw [hother k hk]
  refine create_spec hr hc hsame hin hbump hmono (fun k hk => ?_) ?_
  · by_cases hkk : k = kind.holder
    · rw [hkk, hbump]
      exact hin
    · rw [hother k hkk]
      exact hc.range k hk
  · have hmisc : p.m_nMiscTop ≤ p'.m_nMiscTop := hmono .object
    have hitems := hc.items
    have hbase : 0x20000000 < p.m_nMiscTop := hc.base .object
    by_cases hk : kind.holder = .item
    · rw [hk] at hbump hin
      have hup : p'.m_nItemTop = p.m_nItemTop + 1 := hbump
      have hlow : p.m_nItemTop < 0 + 2 ^ 29 := hin
      omega
    · have hitem : p'.m_nItemTop = p.m_nItemTop := hother .item (Ne.symm hk)
      omega

/-- `AllocMiscHandle` raises the counter of the items as well. -/
theorem allocMiscHandle_spec (hr : Registered p) (hc : Counted p) (hk : kind.holder = .object)
    (hin : p.Fits .object) :
    Registered (p.allocMiscHandle kind) ∧ Counted (p.allocMiscHandle kind) ∧ Evolves p (p.allocMiscHandle kind) := by
  have hmisc : next p.m_nMiscTop = p.m_nMiscTop + 1 := next_eq (hc.top_lt .object)
  have hitem : next p.m_nItemTop = p.m_nItemTop + 1 := next_eq (hc.top_lt .item)
  have hsame : SameObjects p { p with m_nMiscTop := next p.m_nMiscTop, m_nItemTop := next p.m_nItemTop } :=
    ⟨rfl, rfl, rfl, rfl, rfl⟩
  have hbump : ({ p with m_nMiscTop := next p.m_nMiscTop, m_nItemTop := next p.m_nItemTop } : MemoryPool).top
      kind.holder = p.top kind.holder + 1 := by
    rw [hk]
    exact hmisc
  have hspec := create_spec hr hc hsame (hk ▸ hin) hbump (fun k => ?_) (fun k hk' => ?_) ?_
  · rw [hk] at hspec
    exact hspec
  · cases k with
    | item => exact hitem ▸ Nat.le_succ p.m_nItemTop
    | object => exact hmisc ▸ Nat.le_succ p.m_nMiscTop
    | monster | player | summon => exact Nat.le_refl _
  · cases k with
    | item => exact absurd rfl hk'
    | object =>
      show next p.m_nMiscTop ≤ _
      rw [hmisc]
      exact hin
    | monster | player | summon => exact hc.range _ hk'
  · have hitems := hc.items
    show next p.m_nItemTop + 0x20000001 ≤ 2 ^ 29 + next p.m_nMiscTop
    omega

theorem careful_step (hr : Registered p) (hc : Counted p) (he : Careful p e) (hs : p.handlePool e = some p') :
    Registered p' ∧ Counted p' ∧ Evolves p p' := by
  cases e with
  | allocItem =>
    cases hs
    refine create_spec_of_bump .item hr hc ⟨rfl, rfl, rfl, rfl, rfl⟩ he (next_eq (hc.top_lt .item)) fun k hk => ?_
    cases k with
    | item => exact absurd rfl hk
    | object | monster | player | summon => rfl
  | allocMiscHandle kind =>
    simp only [handlePool] at hs
    split_ifs at hs with hk
    cases hs
    exact allocMiscHandle_spec hr hc hk he
  | allocPlayer =>
    cases hs
    refine create_spec_of_bump .player hr hc ⟨rfl, rfl, rfl, rfl, rfl⟩ he (next_eq (hc.top_lt .player)) fun k hk => ?_
    cases k with
    | player => exact absurd rfl hk
    | item | object | monster | summon => rfl
  | allocSummon =>
    cases hs
    refine create_spec_of_bump .summon hr hc ⟨rfl, rfl, rfl, rfl, rfl⟩ he (next_eq (hc.top_lt .summon)) fun k hk => ?_
    cases k with
    | summon => exact absurd rfl hk
    | item | object | monster | player => rfl
  | allocMonster =>
    cases hs
    refine create_spec_of_bump .monster hr hc ⟨rfl, rfl, rfl, rfl, rfl⟩ he (next_eq (hc.top_lt .monster)) fun k hk => ?_
    cases k with
    | monster => exact absurd rfl hk
    | item | object | player | summon => rfl
  | allocItemHandle o => exact absurd he id
  | deleteThis o =>
    obtain ⟨obj, ho, rfl⟩ := Option.map_eq_some_iff.mp hs
    exact setObject_spec hr hc ho rfl rfl
  | setInWorld o inWorld =>
    obtain ⟨obj, ho, rfl⟩ := Option.map_eq_some_iff.mp hs
    exact setObject_spec hr hc ho rfl rfl
  | update late => exact update_spec hr hc hs
  | destroy =>
    simp only [handlePool, destroy] at hs
    split_ifs at hs
    cases hs
    exact ⟨hr, hc, fun o obj ho => .inl ⟨obj, ho, rfl, rfl⟩, fun _ => Nat.le_refl _⟩

/-! ## The past -/

/-- Every handle that an object has had lies below its counter, and no other object has it now. -/
def Past (hist : History MemoryPool PoolEvent) (p : MemoryPool) : Prop :=
  ∀ tr ∈ hist, ∀ o obj, tr.after.heap o = some obj → p.Issued obj.kind.holder obj.handle ∧
    ∀ o' obj', p.heap o' = some obj' → obj'.handle = obj.handle → o' = o

theorem Past.step (hp : Past hist p) (hr' : Registered p') (hc' : Counted p') (hev : Evolves p p') :
    Past (⟨p, e, p'⟩ :: hist) p' := by
  intro tr htr o obj ho
  rcases List.mem_cons.mp htr with rfl | htr
  · exact ⟨hc'.issued o obj ho, fun o' obj' ho' hh => carries_unique hr' hc' ⟨obj', ho', hh⟩ ⟨obj, ho, rfl⟩⟩
  · obtain ⟨⟨hlow, hhigh, hlt⟩, hother⟩ := hp tr htr o obj ho
    refine ⟨⟨hlow, hhigh, Nat.lt_of_lt_of_le hlt (hev.top _)⟩, fun o' obj' ho' hh => ?_⟩
    obtain ⟨x, hx, -, hsame⟩ | ⟨-, hnew⟩ := hev.objects o' obj' ho'
    · exact hother o' x hx (hsame.symm.trans hh)
    · -- a new handle is not below the counter
      exfalso
      obtain ⟨hlow', hhigh', -⟩ := hc'.issued o' obj' ho'
      rw [hh] at hlow' hhigh' hnew
      have hk := holder_unique ⟨hlow, hhigh⟩ ⟨hlow', hhigh'⟩
      rw [hk] at hlt
      exact absurd hlt (Nat.not_lt.mpr hnew)

/-- What the claim is read off from. -/
structure PoolOk (hist : History MemoryPool PoolEvent) (p : MemoryPool) : Prop where
  registered : Registered p
  counted : Counted p
  past : Past hist p
  stays : ∀ tr ∈ hist, ∀ k h o, (tr.before.holders k).lookup h = some o →
    (tr.after.heap o).isSome = true → (tr.after.holders k).lookup h = some o

theorem PoolOk.claimed (h : PoolOk hist p) : Claimed hist p where
  resolves handle o := by
    rw [getObjectInWorld_eq_some_iff h.registered h.counted]
    exact (and_iff_left_of_imp fun ho o' ho' => carries_unique h.registered h.counted ho' ho).symm
  distinct _ _ _ h1 h2 := carries_unique h.registered h.counted h1 h2
  kinds tr htr o obj ho o' obj' hget ho' := by
    obtain ⟨x, hx, hh⟩ := (getObjectInWorld_eq_some_iff h.registered h.counted).mp hget
    exact .inl ((h.past tr htr o obj ho).2 o' x hx hh)
  stays := h.stays

theorem stays_step (hr : Registered p) (hr' : Registered p') (hev : Evolves p p')
    (ho : (p.holders k).lookup h = some o) (hlive : (p'.heap o).isSome = true) :
    (p'.holders k).lookup h = some o := by
  obtain ⟨obj, hobj, hk, hh⟩ := (hr.registered k h o).mp ho
  obtain ⟨obj', hobj'⟩ := Option.isSome_iff_exists.mp hlive
  obtain ⟨x, hx, hkind, hhandle⟩ | ⟨hnone, -⟩ := hev.objects o obj' hobj'
  · rw [hobj] at hx
    cases hx
    exact (hr'.registered k h o).mpr ⟨obj', hobj', hkind ▸ hk, hhandle.trans hh⟩
  · rw [hobj] at hnone
    cases hnone

theorem PoolOk.step (hp : PoolOk hist p) (he : Careful p e) (hs : p.handlePool e = some p') :
    PoolOk (⟨p, e, p'⟩ :: hist) p' := by
  obtain ⟨hr', hc', hev⟩ := careful_step hp.registered hp.counted he hs
  refine ⟨hr', hc', hp.past.step hr' hc' hev, List.forall_mem_cons.mpr ⟨fun k h o ho hlive => ?_, hp.stays⟩⟩
  exact stays_step hp.registered hr' hev ho hlive

/-! ## Steps that are not careful -/

/-- A handle beyond the range of its container is not resolved to the object that carries it. -/
theorem fits_of_claimed (kind : ObjKind) (hr : Registered p) (hc : Counted p) (hsame : SameObjects p p')
    (hclaim : Claimed hist (p'.create kind (p.top kind.holder))) : p.Fits kind.holder := by
  by_contra hfits
  have hheap := create_heap p' kind (p.top kind.holder) p.nextObj
  rw [hsame.nextObj, if_pos rfl] at hheap
  have hcarries : (p'.create kind (p.top kind.holder)).Carries p.nextObj (p.top kind.holder) := ⟨_, hheap, rfl⟩
  have hget := (hclaim.resolves _ _).mpr ⟨hcarries, fun o' ho' => hclaim.distinct _ _ _ ho' hcarries⟩
  obtain ⟨k, hk, hlookup⟩ := Option.bind_eq_some_iff.mp hget
  obtain ⟨hlow, hhigh⟩ := (holderOf_eq_some_iff (Nat.lt_of_lt_of_le (hc.top_lt _) (by decide)) k).mp hk
  by_cases hkk : k = kind.holder
  · exact hfits (hkk ▸ hhigh)
  · rw [create, addObject_holders, lookup_insert_holders, if_neg (fun h => hkk h.1)] at hlookup
    have hlookup' : (p'.holders k).lookup (p.top kind.holder) = some p.nextObj := hlookup
    rw [hsame.holders] at hlookup'
    obtain ⟨obj, ho, -⟩ := (hr.registered _ _ _).mp hlookup'
    rw [hr.fresh _ (Nat.le_refl _)] at ho
    cases ho

/-- An item with a second handle is still found under the first one. -/
theorem not_claimed_allocItemHandle (hr : Registered p) (hc : Counted p) (ho : p.heap o = some obj)
    (hitem : obj.kind = .item) : ¬Claimed hist (p.allocItemHandle o obj) := by
  intro hclaim
  obtain ⟨hlow, hhigh, hlt⟩ := hc.issued o obj ho
  rw [hitem] at hlow hhigh hlt
  have hold : (p.holders .item).lookup obj.handle = some o := (hr.registered _ _ o).mpr ⟨obj, ho, by rw [hitem]; rfl, rfl⟩
  have hne : obj.handle ≠ p.m_nItemTop := Nat.ne_of_lt hlt
  have hlookup : ((p.allocItemHandle o obj).holders .item).lookup obj.handle = some o := by
    rw [allocItemHandle, addObject_holders, lookup_insert_holders, if_neg (fun h => hne h.2)]
    exact hold
  have hk : holderOf obj.handle = some .item := (holderOf_eq_some_iff (hc.lt ho) _).mpr ⟨hlow, hhigh⟩
  have hget : (p.allocItemHandle o obj).getObjectInWorld obj.handle = some o :=
    Option.bind_eq_some_iff.mpr ⟨_, hk, hlookup⟩
  obtain ⟨⟨x, hx, hh⟩, -⟩ := (hclaim.resolves _ _).mp hget
  rw [allocItemHandle, addObject_heap] at hx
  cases (if_pos rfl).symm.trans hx
  exact hne hh.symm

theorem careful_of_claimed (hr : Registered p) (hc : Counted p) (hs : p.handlePool e = some p')
    (hclaim : Claimed hist p') : Careful p e := by
  cases e with
  | allocItem =>
    cases hs
    refine fits_of_claimed .item hr hc ?_ hclaim
    exact ⟨rfl, rfl, rfl, rfl, rfl⟩
  | allocMiscHandle kind =>
    simp only [handlePool] at hs
    split_ifs at hs with hk
    cases hs
    have hmisc : p.m_nMiscTop = p.top kind.holder := by
      rw [hk]
      rfl
    rw [allocMiscHandle, hmisc] at hclaim
    have hfits : p.Fits kind.holder := by
      refine fits_of_claimed kind hr hc ?_ hclaim
      exact ⟨rfl, rfl, rfl, rfl, rfl⟩
    rw [hk] at hfits
    exact hfits
  | allocPlayer =>
    cases hs
    refine fits_of_claimed .player hr hc ?_ hclaim
    exact ⟨rfl, rfl, rfl, rfl, rfl⟩
  | allocSummon =>
    cases hs
    refine fits_of_claimed .summon hr hc ?_ hclaim
    exact ⟨rfl, rfl, rfl, rfl, rfl⟩
  | allocMonster =>
    cases hs
    refine fits_of_claimed .monster hr hc ?_ hclaim
    exact ⟨rfl, rfl, rfl, rfl, rfl⟩
  | allocItemHandle o =>
    obtain ⟨obj, ho, hif⟩ := Option.bind_eq_some_iff.mp hs
    split_ifs at hif with hitem
    cases hif
    exact not_claimed_allocItemHandle hr hc ho hitem hclaim
  | deleteThis _ | setInWorld _ _ | update _ | destroy => trivial

/-! ## Runs -/

/-- The runs of the server, which starts without objects. -/
def poolSystem : System MemoryPool PoolEvent := System.ofFun (· = {}) handlePool

theorem registered_empty : Registered {} where
  fresh _ _ := rfl
  registered _ _ _ := ⟨fun h => (by cases h), fun ⟨_, h, _⟩ => (by cases h)⟩
  queue _ h := absurd h List.not_mem_nil
  toUpdate _ _ h := (by cases h)

theorem counted_empty : Counted {} where
  issued _ _ h := (by cases h)
  base k := by cases k <;> decide
  range k _ := by cases k <;> decide
  items := by decide

theorem poolOk_of_run (hrun : poolSystem.RunWhere (fun _ p e => Careful p e) hist p) : PoolOk hist p := by
  refine hrun.invariant (I := PoolOk) ?_ ?_
  · rintro p rfl
    exact ⟨registered_empty, counted_empty, fun _ h => absurd h List.not_mem_nil, fun _ h => absurd h List.not_mem_nil⟩
  · exact fun hist p e p' _ hp he hs => hp.step he hs

/-- In every run of careful steps each handle is resolved to the object that carries it, and the next step keeps it
so if and only if it is careful. -/
theorem handles_of_run (hrun : poolSystem.RunWhere (fun _ p e => Careful p e) hist p) :
    Claimed hist p ∧ ∀ e p', p.handlePool e = some p' → (Claimed (⟨p, e, p'⟩ :: hist) p' ↔ Careful p e) := by
  have hp := poolOk_of_run hrun
  refine ⟨hp.claimed, fun e p' hs => ⟨careful_of_claimed hp.registered hp.counted hs, fun he => ?_⟩⟩
  exact (hp.step he hs).claimed

/-- A player, a monster, a state and an item; the monster and the state are deleted. -/
theorem handles_of_run_deletion : ∃ hist p, poolSystem.RunWhere (fun _ p e => Careful p e) hist p ∧
    (Claimed hist p ∧ ∀ e p', p.handlePool e = some p' → (Claimed (⟨p, e, p'⟩ :: hist) p' ↔ Careful p e)) ∧
    p.getObjectInWorld 0x80000001 = some 0 ∧ p.getObjectInWorld 0x40000001 = none ∧
    p.getObjectInWorld 0x20000001 = none ∧ p.getObjectInWorld 0x00000002 = some 3 := by
  have hex : (System.exec (fun _ p e => Careful p e) handlePool [.allocPlayer, .allocMonster, .allocMiscHandle .state,
      .allocItem, .deleteThis 1, .deleteThis 2, .update [], .allocMonster] [] {}).map
        (fun x => (x.2.getObjectInWorld 0x80000001, x.2.getObjectInWorld 0x40000001,
          x.2.getObjectInWorld 0x20000001, x.2.getObjectInWorld 0x00000002)) =
      some (some 0, none, none, some 3) := by decide +kernel
  obtain ⟨hist, p, hrun, hend⟩ := System.exists_run_exec (fun p : MemoryPool => (p.getObjectInWorld 0x80000001,
    p.getObjectInWorld 0x40000001, p.getObjectInWorld 0x20000001, p.getObjectInWorld 0x00000002)) _
    (System.RunWhere.init (S := poolSystem) rfl) hex
  simp only [Prod.mk.injEq] at hend
  exact ⟨hist, p, hrun, handles_of_run hrun, hend⟩

/-- A new item gets its second handle, as `onAdd` gives it, and is found under both. -/
theorem not_claimed_handles : ¬ ∀ (hist : History MemoryPool PoolEvent) (p : MemoryPool),
    poolSystem.Run hist p → Claimed hist p := by
  intro hall
  have hex : (System.exec (fun _ _ _ => True) handlePool [.allocItem, .allocItemHandle 0] [] {}).map
      (fun x => (x.2.getObjectInWorld 1, (x.2.heap 0).map PoolObject.handle)) = some (some 0, some 2) := by
    decide +kernel
  obtain ⟨hist, p, hrun, hend⟩ := System.exists_run_exec
    (fun p : MemoryPool => (p.getObjectInWorld 1, (p.heap 0).map PoolObject.handle)) _
    (System.RunWhere.init (S := poolSystem) rfl) hex
  obtain ⟨hget, hhandle⟩ := Prod.mk.inj hend
  obtain ⟨⟨obj, ho, hh⟩, -⟩ := ((hall hist p hrun).resolves 1 0).mp hget
  rw [ho] at hhandle
  exact absurd (hh.symm.trans (Option.some.inj hhandle)) (by decide)

end MemoryPool

end RZEmulator.Chihiro
