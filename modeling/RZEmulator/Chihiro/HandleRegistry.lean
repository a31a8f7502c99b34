import RZEmulator.Chihiro.MemPool

/-!
# The registry of the handles

A handle is to be resolved to the one live object that carries it. `Registered` says that the containers hold
exactly the live objects, each under its own handle; `Counted` says that each handle lies in the range of its
container, below the counter it was taken from. Every function keeps both as long as no counter leaves its
range, except `AllocItemHandle`, which leaves the item in the container under its old handle as well.
-/

namespace RZEmulator.Chihiro

/-! ## The range of a handle -/

def Holder.base : Holder → Nat
  | .item => 0
  | .object => 0x20000000
  | .monster => 0x40000000
  | .player => 0x80000000
  | .summon => 0xC0000000

theorem and_top_three {h : Nat} (hh : h < 2 ^ 32) : h &&& 0xE0000000 = h / 2 ^ 29 * 2 ^ 29 := by
  have hmask : 0xE0000000 = (2 ^ 3 - 1) * 2 ^ 29 := by decide
  rw [hmask]
  apply Nat.eq_of_testBit_eq
  intro i
  rw [Nat.testBit_and, Nat.testBit_mul_two_pow, Nat.testBit_mul_two_pow, Nat.testBit_two_pow_sub_one,
    Nat.testBit_div_two_pow]
  by_cases hi : 29 ≤ i
  · have hback : i - 29 + 29 = i := by omega
    rw [hback]
    by_cases hi' : i < 32
    · have hlow : i - 29 < 3 := by omega
      simp [hi, hlow]
    · have hhigh : h.testBit i = false :=
        Nat.testBit_lt_two_pow (Nat.lt_of_lt_of_le hh (Nat.pow_le_pow_right (by decide) (by omega)))
      simp [hhigh]
  · simp [hi]

/-- The handles of a container are those from its base on. -/
theorem holderOf_eq_some_iff {h : Nat} (hh : h < 2 ^ 32) (k : Holder) :
    MemoryPool.holderOf h = some k ↔ k.base ≤ h ∧ h < k.base + 2 ^ 29 := by
  unfold MemoryPool.holderOf
  rw [and_top_three hh]
  have hdiv := Nat.div_add_mod h (2 ^ 29)
  have hmod := Nat.mod_lt h (Nat.two_pow_pos 29)
  generalize h / 2 ^ 29 = q at hdiv ⊢
  dsimp only
  split_ifs <;> cases k <;>
    simp only [Holder.base, Option.some.injEq, reduceCtorEq, false_iff, true_iff] <;> omega

theorem subType_holder (kind : ObjKind) : kind.subType.holder = kind.holder := by
  cases kind <;> rfl

namespace MemoryPool

def top (p : MemoryPool) : Holder → Nat
  | .item => p.m_nItemTop
  | .object => p.m_nMiscTop
  | .monster => p.m_nMonsterTop
  | .player => p.m_nPlayerTop
  | .summon => p.m_nSummonTop

/-- The object is live and has the handle. -/
def Carries (p : MemoryPool) (o : Nat) (handle : Nat) : Prop :=
  ∃ obj, p.heap o = some obj ∧ obj.handle = handle

/-- The containers hold exactly the live objects. -/
structure Registered (p : MemoryPool) : Prop where
  fresh : ∀ o, p.nextObj ≤ o → p.heap o = none
  registered : ∀ k h o, (p.holders k).lookup h = some o ↔
    ∃ obj, p.heap o = some obj ∧ obj.kind.holder = k ∧ obj.handle = h
  queue : ∀ o ∈ p.addUpdateQueue, (p.heap o).isSome = true
  toUpdate : ∀ h o, p.i_objectsToUpdate.lookup h = some o → p.Carries o h

/-- The handle has been taken from the counter of the container while that was in its range. -/
def Issued (p : MemoryPool) (k : Holder) (h : Nat) : Prop :=
  k.base ≤ h ∧ h < k.base + 2 ^ 29 ∧ h < p.top k

structure Counted (p : MemoryPool) : Prop where
  issued : ∀ o obj, p.heap o = some obj → p.Issued obj.kind.holder obj.handle
  base : ∀ k, k.base < p.top k
  range : ∀ k, k ≠ .item → p.top k ≤ k.base + 2 ^ 29
  /-- Every handle of the `object` container takes one of the items' with it. -/
  items : p.m_nItemTop + 0x20000001 ≤ 2 ^ 29 + p.m_nMiscTop

variable {p p' : MemoryPool} {o o' h : Nat} {obj : PoolObject} {k : Holder} {kind : ObjKind}

theorem Counted.lt (hp : Counted p) (ho : p.heap o = some obj) : obj.handle < 2 ^ 32 := by
  obtain ⟨-, hlt, -⟩ := hp.issued o obj ho
  have hbase : obj.kind.holder.base ≤ 0xC0000000 := by
    cases obj.kind.holder <;> decide
  omega

theorem getObjectInWorld_eq_some_iff (hr : Registered p) (hc : Counted p) :
    p.getObjectInWorld h = some o ↔ p.Carries o h := by
  constructor
  · intro hget
    obtain ⟨k, -, hlookup⟩ := Option.bind_eq_some_iff.mp hget
    obtain ⟨obj, ho, -, hh⟩ := (hr.registered k h o).mp hlookup
    exact ⟨obj, ho, hh⟩
  · rintro ⟨obj, ho, rfl⟩
    obtain ⟨hlow, hhigh, -⟩ := hc.issued o obj ho
    have hk : holderOf obj.handle = some obj.kind.holder := (holderOf_eq_some_iff (hc.lt ho) _).mpr ⟨hlow, hhigh⟩
    exact Option.bind_eq_some_iff.mpr ⟨_, hk, (hr.registered _ _ o).mpr ⟨obj, ho, rfl, rfl⟩⟩

theorem carries_unique (hr : Registered p) (hc : Counted p) (h1 : p.Carries o h) (h2 : p.Carries o' h) : o = o' := by
  have hget := (getObjectInWorld_eq_some_iff hr hc).mpr h1
  exact Option.some.inj (hget.symm.trans ((getObjectInWorld_eq_some_iff hr hc).mpr h2))

/-! ## New objects -/

@[simp] theorem addObject_heap (p : MemoryPool) (o : Nat) (obj : PoolObject) : (p.addObject o obj).heap = p.heap := by
  unfold addObject
  dsimp only
  split_ifs <;> rfl

@[simp] theorem addObject_nextObj (p : MemoryPool) (o : Nat) (obj : PoolObject) :
    (p.addObject o obj).nextObj = p.nextObj := by
  unfold addObject
  dsimp only
  split_ifs <;> rfl

@[simp] theorem addObject_top (p : MemoryPool) (o : Nat) (obj : PoolObject) : (p.addObject o obj).top = p.top := by
  unfold addObject
  dsimp only
  split_ifs <;> rfl

@[simp] theorem addObject_toUpdate (p : MemoryPool) (o : Nat) (obj : PoolObject) :
    (p.addObject o obj).i_objectsToUpdate = p.i_objectsToUpdate := by
  unfold addObject
  dsimp only
  split_ifs <;> rfl

theorem addObject_holders (p : MemoryPool) (o : Nat) (obj : PoolObject) :
    (p.addObject o obj).holders = (p.insert obj.kind.holder obj.handle o).holders := by
  unfold addObject
  dsimp only
  split_ifs <;> rfl

theorem mem_addObject_queue (ho : o' ∈ (p.addObject o obj).addUpdateQueue) : o' ∈ p.addUpdateQueue ∨ o' = o := by
  unfold addObject at ho
  dsimp only at ho
  split_ifs at ho
  · exact (List.mem_append.mp ho).imp_right List.mem_singleton.mp
  · exact .inl ho

theorem lookup_insert_holders (p : MemoryPool) (k k' : Holder) (h h' : Nat) (o : Nat) :
    ((p.insert k h o).holders k').lookup h' =
      if k' = k ∧ h' = h then some o else (p.holders k').lookup h' := by
  unfold insert
  dsimp only
  by_cases hk : k' = k
  · rw [if_pos hk]
    by_cases hh : h' = h
    · rw [if_pos ⟨hk, hh⟩, hh, AList.lookup_insert]
    · rw [if_neg (fun hc => hh hc.2), AList.lookup_insert_ne hh, hk]
  · rw [if_neg hk, if_neg (fun hc => hk hc.1)]

theorem create_heap (p : MemoryPool) (kind : ObjKind) (h : Nat) (o : Nat) :
    (p.create kind h).heap o = if o = p.nextObj then some { kind := kind, handle := h } else p.heap o := by
  unfold create
  rw [addObject_heap]
  rfl

theorem create_top (p : MemoryPool) (kind : ObjKind) (h : Nat) : (p.create kind h).top = p.top := by
  unfold create
  rw [addObject_top]
  rfl

/-- A new object whose handle nobody carries. -/
theorem Registered.create (hp : Registered p) (hfree : ∀ o, ¬p.Carries o h) (kind : ObjKind) :
    Registered (p.create kind h) := by
  have hheap := create_heap p kind h
  have hnew : p.heap p.nextObj = none := hp.fresh _ (Nat.le_refl _)
  have hold : ∀ o obj, p.heap o = some obj → (p.create kind h).heap o = some obj := fun o obj ho => by
    rw [hheap, if_neg (fun heq => by rw [heq, hnew] at ho; cases ho), ho]
  refine ⟨fun o ho => ?_, fun k h' o => ?_, fun o ho => ?_, fun h' o ho => ?_⟩
  · have hnext : p.nextObj + 1 ≤ o := by
      unfold MemoryPool.create at ho
      rw [addObject_nextObj] at ho
      exact ho
    rw [hheap, if_neg (by omega)]
    exact hp.fresh o (by omega)
  · rw [MemoryPool.create, addObject_holders, lookup_insert_holders, ← MemoryPool.create]
    split_ifs with hsame
    · obtain ⟨rfl, rfl⟩ := hsame
      constructor
      · rintro heq
        cases heq
        exact ⟨_, by rw [hheap, if_pos rfl], rfl, rfl⟩
      · rintro ⟨obj, ho, -, hh⟩
        rw [hheap] at ho
        split_ifs at ho with hnext
        · rw [hnext]
        · exact absurd ⟨obj, ho, hh⟩ (hfree o)
    · refine (hp.registered k h' o).trans ⟨?_, ?_⟩
      · rintro ⟨obj, ho, hk, hh⟩
        exact ⟨obj, hold o obj ho, hk, hh⟩
      · rintro ⟨obj, ho, hk, hh⟩
        rw [hheap] at ho
        split_ifs at ho with hnext
        · cases ho
          exact absurd ⟨hk.symm, hh.symm⟩ hsame
        · exact ⟨obj, ho, hk, hh⟩
  · rcases mem_addObject_queue ho with hq | rfl
    · obtain ⟨obj, hobj⟩ := Option.isSome_iff_exists.mp (hp.queue o hq)
      rw [hold o obj hobj]
      rfl
    · rw [hheap, if_pos rfl]
      rfl
  · unfold MemoryPool.create at ho
    rw [addObject_toUpdate] at ho
    obtain ⟨obj, hobj, hh⟩ := hp.toUpdate h' o ho
    exact ⟨obj, hold o obj hobj, hh⟩

/-! ## Changes of an object -/

theorem setObject_heap (p : MemoryPool) (o : Nat) (x : Option PoolObject) (o' : Nat) :
    (p.setObject o x).heap o' = if o' = o then x else p.heap o' := rfl

/-- A change of a live object that leaves its kind and its handle alone. -/
theorem Registered.setObject (hp : Registered p) {obj' : PoolObject} (ho : p.heap o = some obj)
    (hkind : obj'.kind = obj.kind) (hhandle : obj'.handle = obj.handle) :
    Registered (p.setObject o (some obj')) := by
  have hcarries : ∀ o' k h, (∃ x, (p.setObject o (some obj')).heap o' = some x ∧ x.kind.holder = k ∧ x.handle = h) ↔
      ∃ x, p.heap o' = some x ∧ x.kind.holder = k ∧ x.handle = h := fun o' k h => by
    rw [setObject_heap]
    split_ifs with heq
    · rw [heq, ho]
      constructor
      · rintro ⟨x, hx, hk, hh⟩
        cases hx
        exact ⟨obj, rfl, hkind ▸ hk, hhandle ▸ hh⟩
      · rintro ⟨x, hx, hk, hh⟩
        cases hx
        exact ⟨obj', rfl, hkind.symm ▸ hk, hhandle.symm ▸ hh⟩
    · exact Iff.rfl
  refine ⟨fun o' ho' => ?_, fun k h o' => (hp.registered k h o').trans (hcarries o' k h).symm, fun o' hq => ?_,
    fun h o' hlookup => ?_⟩
  · have hne : o' ≠ o := fun heq => by
      rw [← heq, hp.fresh o' ho'] at ho
      cases ho
    rw [setObject_heap, if_neg hne]
    exact hp.fresh o' ho'
  · rw [setObject_heap]
    split_ifs
    · rfl
    · exact hp.queue o' hq
  · obtain ⟨x, hx, hh⟩ := hp.toUpdate h o' hlookup
    obtain ⟨y, hy, -, hy'⟩ := (hcarries o' x.kind.holder h).mpr ⟨x, hx, rfl, hh⟩
    exact ⟨y, hy, hy'⟩

theorem Counted.setObject (hp : Counted p) {obj' : PoolObject} (ho : p.heap o = some obj)
    (hkind : obj'.kind = obj.kind) (hhandle : obj'.handle = obj.handle) : Counted (p.setObject o (some obj')) where
  issued o' x hx := by
    rw [setObject_heap] at hx
    split_ifs at hx
    · cases hx
      rw [hkind, hhandle]
      exact hp.issued o obj ho
    · exact hp.issued o' x hx
  base := hp.base
  range := hp.range
  items := hp.items

/-! ## Deletions -/

theorem lookup_remove_holders (p : MemoryPool) (k k' : Holder) (h h' : Nat) :
    ((p.remove k h).holders k').lookup h' =
      if k' = k ∧ h' = h then none else (p.holders k').lookup h' := by
  unfold remove
  dsimp only
  by_cases hk : k' = k
  · rw [if_pos hk]
    by_cases hh : h' = h
    · rw [if_pos ⟨hk, hh⟩, hh, AList.lookup_erase]
    · rw [if_neg (fun hc => hh hc.2), AList.lookup_erase_ne hh, hk]
  · rw [if_neg hk, if_neg (fun hc => hk hc.1)]

theorem Registered.deleteObject (hp : Registered p) (hqueue : p.addUpdateQueue = []) (ho : p.heap o = some obj) :
    Registered (p.deleteObject (o, obj)) := by
  have hheap : ∀ o', (p.deleteObject (o, obj)).heap o' = if o' = o then none else p.heap o' := fun _ => rfl
  refine ⟨fun o' ho' => ?_, fun k h o' => ?_, fun o' hq => ?_, fun h o' hlookup => ?_⟩
  · rw [hheap]
    split_ifs
    · rfl
    · exact hp.fresh o' ho'
  · have hlookup : ((p.deleteObject (o, obj)).holders k).lookup h =
        if k = obj.kind.holder ∧ h = obj.handle then none else (p.holders k).lookup h := by
      rw [← subType_holder]
      exact lookup_remove_holders p _ k _ h
    rw [hlookup, hheap]
    have hself := (hp.registered _ _ o).mpr ⟨obj, ho, rfl, rfl⟩
    split_ifs with hsame heq heq
    · exact ⟨fun hc => (by cases hc), fun ⟨_, hc, _⟩ => (by cases hc)⟩
    · refine ⟨fun hc => (by cases hc), fun hc => absurd ?_ heq⟩
      have hother := (hp.registered k h o').mpr hc
      rw [hsame.1, hsame.2, hself] at hother
      exact (Option.some.inj hother).symm
    · refine ⟨fun hc => absurd ?_ hsame, fun ⟨_, hc, _⟩ => (by cases hc)⟩
      obtain ⟨x, hx, hk, hh⟩ := (hp.registered k h o').mp hc
      rw [heq, ho] at hx
      cases hx
      exact ⟨hk.symm, hh.symm⟩
    · exact hp.registered k h o'
  · have hnil : (p.deleteObject (o, obj)).addUpdateQueue = [] := hqueue
    rw [hnil] at hq
    exact absurd hq List.not_mem_nil
  · have herase : (p.deleteObject (o, obj)).i_objectsToUpdate = p.i_objectsToUpdate.erase obj.handle := rfl
    rw [herase] at hlookup
    by_cases hh : h = obj.handle
    · rw [hh, AList.lookup_erase] at hlookup
      cases hlookup
    · rw [AList.lookup_erase_ne hh] at hlookup
      obtain ⟨x, hx, hx'⟩ := hp.toUpdate h o' hlookup
      refine ⟨x, ?_, hx'⟩
      rw [hheap, if_neg (fun heq => ?_)]
      · exact hx
      · rw [heq, ho] at hx
        cases hx
        exact hh hx'.symm

/-- Deleting one object after the other. -/
theorem foldl_deleteObject (l : List (Nat × PoolObject)) (hp : Registered p) (hqueue : p.addUpdateQueue = [])
    (hl : ∀ x ∈ l, p.heap x.1 = some x.2) (hnodup : (l.map Prod.fst).Nodup) :
    Registered (l.foldl deleteObject p) ∧ (l.foldl deleteObject p).top = p.top ∧
      ∀ o, (l.foldl deleteObject p).heap o = if o ∈ l.map Prod.fst then none else p.heap o := by
  induction l generalizing p with
  | nil => exact ⟨hp, rfl, fun o => (if_neg List.not_mem_nil).symm⟩
  | cons x l ih =>
    obtain ⟨hx, hnodup⟩ := List.nodup_cons.mp hnodup
    have hone := hp.deleteObject hqueue (hl x List.mem_cons_self)
    have hheap : ∀ o', (p.deleteObject x).heap o' = if o' = x.1 then none else p.heap o' := fun _ => rfl
    obtain ⟨hreg, htop, hrest⟩ := ih (p := p.deleteObject x) hone hqueue (fun y hy => by
      have hne : y.1 ≠ x.1 := fun heq => hx (heq ▸ List.mem_map_of_mem hy)
      rw [hheap, if_neg hne]
      exact hl y (List.mem_cons_of_mem x hy)) hnodup
    refine ⟨hreg, htop, fun o => ?_⟩
    rw [List.foldl_cons, hrest, hheap, List.map_cons]
    by_cases ho : o = x.1
    · rw [if_pos ho, ite_self, if_pos (ho ▸ List.mem_cons_self)]
    · rw [if_neg ho]
      simp only [List.mem_cons, ho, false_or]

theorem Counted.of_heap (hp : Counted p) (htop : p'.top = p.top)
    (hheap : ∀ o obj, p'.heap o = some obj → p.heap o = some obj) : Counted p' where
  issued o obj ho := by
    unfold Issued
    rw [htop]
    exact hp.issued o obj (hheap o obj ho)
  base k := by
    rw [htop]
    exact hp.base k
  range k hk := by
    rw [htop]
    exact hp.range k hk
  items := by
    have hitem : p'.m_nItemTop = p.m_nItemTop := congrFun htop .item
    have hmisc : p'.m_nMiscTop = p.m_nMiscTop := congrFun htop .object
    rw [hitem, hmisc]
    exact hp.items

theorem takeQueue_spec (hp : Registered p) : ∃ p', p.takeQueue = some p' ∧ Registered p' ∧ p'.heap = p.heap ∧
    p'.top = p.top ∧ p'.addUpdateQueue = [] ∧ p'.nextObj = p.nextObj ∧ p'.holders = p.holders := by
  have hfold : ∀ (q : List Nat) (toUpdate : Container), (∀ o ∈ q, (p.heap o).isSome = true) →
      (∀ h o, toUpdate.lookup h = some o → p.Carries o h) →
      ∃ toUpdate', q.foldlM (fun (toUpdate : Container) o => (p.heap o).map fun obj => toUpdate.insert obj.handle o)
          toUpdate = some toUpdate' ∧ ∀ h o, toUpdate'.lookup h = some o → p.Carries o h := by
    intro q
    induction q with
    | nil => exact fun toUpdate _ hall => ⟨toUpdate, rfl, hall⟩
    | cons o q ih =>
      intro toUpdate hq hall
      obtain ⟨obj, hobj⟩ := Option.isSome_iff_exists.mp (hq o List.mem_cons_self)
      obtain ⟨toUpdate', hrest, hall'⟩ := ih (toUpdate.insert obj.handle o)
        (fun o' ho' => hq o' (List.mem_cons_of_mem o ho')) fun h o' hlookup => by
          by_cases hh : h = obj.handle
          · rw [hh, AList.lookup_insert] at hlookup
            cases hlookup
            exact ⟨obj, hobj, hh.symm⟩
          · rw [AList.lookup_insert_ne hh] at hlookup
            exact hall h o' hlookup
      refine ⟨toUpdate', ?_, hall'⟩
      rw [List.foldlM_cons, hobj]
      exact hrest
  obtain ⟨toUpdate', hq, hall⟩ := hfold p.addUpdateQueue p.i_objectsToUpdate hp.queue hp.toUpdate
  refine ⟨{ p with addUpdateQueue := [], i_objectsToUpdate := toUpdate' }, ?_, ⟨hp.fresh, hp.registered,
    fun _ h => absurd h List.not_mem_nil, hall⟩, rfl, rfl, rfl, rfl, rfl⟩
  rw [takeQueue, hq]
  rfl

theorem toRemove_heap (p : MemoryPool) (late : List Nat) : ∀ x ∈ p.toRemove late, p.heap x.1 = some x.2 := by
  intro x hx
  obtain ⟨e, -, he⟩ := List.mem_filterMap.mp hx
  obtain ⟨obj, hobj, hif⟩ := Option.bind_eq_some_iff.mp he
  split_ifs at hif
  cases hif
  exact hobj

theorem toRemove_nodup (hp : Registered p) (late : List Nat) : ((p.toRemove late).map Prod.fst).Nodup := by
  have hkeys := List.nodupKeys_iff_pairwise.mp p.i_objectsToUpdate.nodupKeys
  have hobjects : p.i_objectsToUpdate.entries.Pairwise fun e e' => e.2 ≠ e'.2 := by
    refine hkeys.imp_of_mem fun {e e'} he he' hne heq => hne ?_
    obtain ⟨obj, hobj, hh⟩ := hp.toUpdate e.1 e.2 (AList.mem_lookup_iff.mpr he)
    obtain ⟨obj', hobj', hh'⟩ := hp.toUpdate e'.1 e'.2 (AList.mem_lookup_iff.mpr he')
    rw [heq, hobj'] at hobj
    cases hobj
    exact hh.symm.trans hh'
  refine List.pairwise_map.mpr (hobjects.filterMap _ fun e e' hne x hx x' hx' => ?_)
  obtain ⟨obj, -, hif⟩ := Option.bind_eq_some_iff.mp hx
  obtain ⟨obj', -, hif'⟩ := Option.bind_eq_some_iff.mp hx'
  split_ifs at hif hif'
  cases hif
  cases hif'
  exact hne

/-! ## What a step does to the objects -/

/-- A live object has been one before, of the same kind and with the same handle, or it is new and its handle has
not been issued before; the counters grow. -/
structure Evolves (p p' : MemoryPool) : Prop where
  objects : ∀ o obj', p'.heap o = some obj' →
    (∃ obj, p.heap o = some obj ∧ obj'.kind = obj.kind ∧ obj'.handle = obj.handle) ∨
      p.heap o = none ∧ p.top obj'.kind.holder ≤ obj'.handle
  top : ∀ k, p.top k ≤ p'.top k

theorem update_spec (hr : Registered p) (hc : Counted p) {late : List Nat} (hs : p.update late = some p') :
    Registered p' ∧ Counted p' ∧ Evolves p p' := by
  obtain ⟨p1, htake, hr1, hheap1, htop1, hqueue, -, -⟩ := takeQueue_spec hr
  rw [update, htake] at hs
  cases hs
  obtain ⟨hreg, htop, hheap⟩ := foldl_deleteObject (p1.toRemove late) hr1 hqueue (toRemove_heap p1 late)
    (toRemove_nodup hr1 late)
  have hold : ∀ o obj, ((p1.toRemove late).foldl deleteObject p1).heap o = some obj → p.heap o = some obj :=
    fun o obj ho => by
      rw [hheap] at ho
      split_ifs at ho
      rw [← hheap1]
      exact ho
  refine ⟨hreg, hc.of_heap (htop.trans htop1) hold, fun o obj ho => .inl ⟨obj, hold o obj ho, rfl, rfl⟩, fun k => ?_⟩
  rw [htop, htop1]

theorem setObject_spec (hr : Registered p) (hc : Counted p) {obj' : PoolObject} (ho : p.heap o = some obj)
    (hkind : obj'.kind = obj.kind) (hhandle : obj'.handle = obj.handle) :
    Registered (p.setObject o (some obj')) ∧ Counted (p.setObject o (some obj')) ∧
      Evolves p (p.setObject o (some obj')) := by
  refine ⟨hr.setObject ho hkind hhandle, hc.setObject ho hkind hhandle, fun o' x hx => .inl ?_, fun _ => Nat.le_refl _⟩
  rw [setObject_heap] at hx
  split_ifs at hx with heq
  · cases hx
    exact ⟨obj, heq ▸ ho, hkind, hhandle⟩
  · exact ⟨x, hx, rfl, rfl⟩

/-- Two containers do not share a handle. -/
theorem holder_unique {k k' : Holder} {h : Nat} (hk : k.base ≤ h ∧ h < k.base + 2 ^ 29)
    (hk' : k'.base ≤ h ∧ h < k'.base + 2 ^ 29) : k = k' := by
  cases k <;> cases k' <;> simp only [Holder.base] at hk hk' <;> first | rfl | omega

theorem not_carries_top (hc : Counted p) (hin : p.top k < k.base + 2 ^ 29) (o : Nat) : ¬p.Carries o (p.top k) := by
  rintro ⟨obj, ho, hh⟩
  obtain ⟨hlow, hhigh, hlt⟩ := hc.issued o obj ho
  rw [hh] at hlow hhigh hlt
  have hsame := holder_unique ⟨hlow, hhigh⟩ ⟨(hc.base k).le, hin⟩
  rw [hsame] at hlt
  exact Nat.lt_irrefl _ hlt

/-- The two pools differ in their counters only. -/
structure SameObjects (p p' : MemoryPool) : Prop where
  heap : p'.heap = p.heap
  nextObj : p'.nextObj = p.nextObj
  holders : p'.holders = p.holders
  queue : p'.addUpdateQueue = p.addUpdateQueue
  toUpdate : p'.i_objectsToUpdate = p.i_objectsToUpdate

theorem Registered.of_sameObjects (hr : Registered p) (h : SameObjects p p') : Registered p' where
  fresh := by
    rw [h.heap, h.nextObj]
    exact hr.fresh
  registered := by
    rw [h.heap, h.holders]
    exact hr.registered
  queue := by
    rw [h.heap, h.queue]
    exact hr.queue
  toUpdate := by
    unfold Carries
    rw [h.heap, h.toUpdate]
    exact hr.toUpdate

/-- A new object takes its handle from a counter that is in its range. -/
theorem create_spec (hr : Registered p) (hc : Counted p) (h : SameObjects p p') (hin : p.top kind.holder <
    kind.holder.base + 2 ^ 29) (hbump : p'.top kind.holder = p.top kind.holder + 1)
    (hmono : ∀ k, p.top k ≤ p'.top k) (hrange : ∀ k, k ≠ .item → p'.top k ≤ k.base + 2 ^ 29)
    (hitems : p'.m_nItemTop + 0x20000001 ≤ 2 ^ 29 + p'.m_nMiscTop) :
    Registered (p'.create kind (p.top kind.holder)) ∧ Counted (p'.create kind (p.top kind.holder)) ∧
      Evolves p (p'.create kind (p.top kind.holder)) := by
  have hfree : ∀ o, ¬p'.Carries o (p.top kind.holder) := fun o => by
    unfold Carries
    rw [h.heap]
    exact not_carries_top hc hin o
  have hheap := create_heap p' kind (p.top kind.holder)
  rw [h.heap, h.nextObj] at hheap
  have htop := create_top p' kind (p.top kind.holder)
  refine ⟨(hr.of_sameObjects h).create hfree kind, ⟨fun o obj ho => ?_, fun k => ?_, fun k hk => ?_, ?_⟩,
    fun o obj ho => ?_, fun k => ?_⟩
  · unfold Issued
    rw [htop]
    rw [hheap] at ho
    split_ifs at ho
    · cases ho
      exact ⟨(hc.base _).le, hin, hbump ▸ Nat.lt_succ_self _⟩
    · obtain ⟨hlow, hhigh, hlt⟩ := hc.issued o obj ho
      exact ⟨hlow, hhigh, Nat.lt_of_lt_of_le hlt (hmono _)⟩
  · rw [htop]
    exact Nat.lt_of_lt_of_le (hc.base k) (hmono k)
  · rw [htop]
    exact hrange k hk
  · have hitem : (p'.create kind (p.top kind.holder)).m_nItemTop = p'.m_nItemTop := congrFun htop .item
    have hmisc : (p'.create kind (p.top kind.holder)).m_nMiscTop = p'.m_nMiscTop := congrFun htop .object
    rw [hitem, hmisc]
    exact hitems
  · rw [hheap] at ho
    split_ifs at ho with hnew
    · cases ho
      exact .inr ⟨hnew ▸ hr.fresh _ (Nat.le_refl _), Nat.le_refl _⟩
    · exact .inl ⟨obj, ho, rfl, rfl⟩
  · rw [htop]
    exact hmono k

end MemoryPool

end RZEmulator.Chihiro
