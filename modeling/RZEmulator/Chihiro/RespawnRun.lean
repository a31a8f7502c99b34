import RZEmulator.Chihiro.RespawnObject
import RZEmulator.Lib.Arena
import Mathlib.Logic.Function.Iterate

/-!
# Runs of a spawner

The list of a spawner holds the monsters that it has created and whose death `processDead` has not seen yet, which
are those that still have their handler. A monster that has died is there until the first update that processes it,
so that the list is not that of the living monsters alone.

The count and the list change together, and never beyond the cap; the first batch, which does not look at the count,
comes when no monster is there. A spawner with a positive `inc` can fill its area again at any time.
-/

namespace RZEmulator.Chihiro

open Lib

namespace RespawnObject

/-! ## Runs -/

/-- The transition calls `processDead` of the monster. -/
def processes (tr : Transition RespawnObject RespawnEvent) (i : Nat) : Bool :=
  match tr.event with
  | .updateMonster j near _ => decide (j = i) && near && tr.before.monsters[i]?.any (·.dead)
  | _ => false

def processed (hist : History RespawnObject RespawnEvent) (i : Nat) : Bool := hist.any (processes · i)

/-- The transition is an update of the monster, and takes one from the count. -/
def reduces (tr : Transition RespawnObject RespawnEvent) (i : Nat) : Bool :=
  match tr.event with
  | .updateMonster j _ _ => decide (j = i) && decide (tr.after.count + 1 = tr.before.count)
  | _ => false

/-- The updates at one time fill the area up to the cap. -/
def Refills (s : RespawnObject) : Prop :=
  ∃ ct points n, s.now ≤ ct ∧ ct < 2 ^ 32 ∧ ((fun s => s.update ct points)^[n] s).count = s.m_nMaxRespawnNum

/-- The list has a length; each corpse reduces the count once, when it is processed first, and nothing else does. -/
structure Accounted (info : RespawnInfo) (hist : History RespawnObject RespawnEvent) (s : RespawnObject) : Prop where
  count : s.count = s.m_vRespawnedMonster.length
  unprocessed : (List.range s.monsters.length).countP (fun i => !processed hist i) = s.m_vRespawnedMonster.length
  le : s.count ≤ s.m_nMaxRespawnNum
  cap : s.m_nMaxRespawnNum ≤ info.max_num
  once : ∀ i, hist.countP (reduces · i) = (processed hist i).toNat
  only : ∀ tr ∈ hist, tr.before.count ≤ tr.after.count ∨ ∃ i, reduces tr i
  refill : 0 < info.inc → s.Refills

/-! ## The invariant -/

structure SpawnerOk (s : RespawnObject) : Prop where
  perm : s.m_vRespawnedMonster.Perm ((s.monsters.filter (·.deleteHandler)).map (·.handle))
  count : s.count = s.m_vRespawnedMonster.length
  le : s.count ≤ s.m_nMaxRespawnNum
  cap : s.m_nMaxRespawnNum ≤ s.info.max_num
  alive : ∀ mob ∈ s.monsters, mob.dead = false → mob.deleteHandler = true
  first : s.lastDeadTime = 0 → s.count = 0

variable {s s' : RespawnObject} {i handle ct : Nat} {mob : SpawnedMonster} {near : Bool}

theorem create_ok (info : RespawnInfo) : SpawnerOk (create info) where
  perm := .refl _
  count := rfl
  le := Nat.zero_le _
  cap := info.prespawn_le
  alive _ hmob := nomatch hmob
  first _ := rfl

theorem respawnMonster_count (hs : SpawnerOk s) (hlt : s.count < s.m_nMaxRespawnNum) (handle : Nat) :
    (s.respawnMonster handle).count = s.count + 1 := by
  have hcap := hs.cap
  have hmax := s.info.max_num_lt
  show (s.count + 1) % 2 ^ 32 = s.count + 1
  omega

theorem SpawnerOk.respawnMonster (hs : SpawnerOk s) (hlt : s.count < s.m_nMaxRespawnNum) (hdead : s.lastDeadTime ≠ 0)
    (handle : Nat) : SpawnerOk (s.respawnMonster handle) := by
  have hcount := respawnMonster_count hs hlt handle
  refine ⟨?_, ?_, ?_, hs.cap, ?_, fun h => absurd h hdead⟩
  · have hsnoc : ((s.respawnMonster handle).monsters.filter (·.deleteHandler)).map (·.handle) =
        (s.monsters.filter (·.deleteHandler)).map (·.handle) ++ [handle] := by
      simp [RespawnObject.respawnMonster]
    rw [hsnoc]
    exact hs.perm.append_right [handle]
  · rw [hcount, hs.count]
    simp [RespawnObject.respawnMonster]
  · rw [hcount]
    exact hlt
  · intro mob hmob hlive
    rcases List.mem_append.mp hmob with hmob | hmob
    · exact hs.alive mob hmob hlive
    · rw [List.mem_singleton.mp hmob]

/-- What an update of the spawner may do. -/
structure Grown (s s' : RespawnObject) : Prop where
  ok : SpawnerOk s'
  info : s'.info = s.info
  cap : s'.m_nMaxRespawnNum = s.m_nMaxRespawnNum
  monsters : ∃ l, s'.monsters = s.monsters ++ l ∧ ∀ mob ∈ l, mob.dead = false ∧ mob.deleteHandler = true
  count : s.count ≤ s'.count

theorem Grown.refl (hs : SpawnerOk s) : Grown s s :=
  ⟨hs, rfl, rfl, ⟨[], (List.append_nil _).symm, nofun⟩, Nat.le_refl _⟩

theorem SpawnerOk.grown_respawnMonster (hs : SpawnerOk s) (hlt : s.count < s.m_nMaxRespawnNum) (handle : Nat)
    (h : Grown (s.respawnMonster handle) s') : Grown s s' := by
  obtain ⟨l, hl, hlive⟩ := h.monsters
  refine ⟨h.ok, h.info, h.cap, ⟨⟨handle, false, true⟩ :: l, ?_, ?_⟩, ?_⟩
  · rw [hl, List.append_cons]
    rfl
  · intro mob hmob
    rcases List.mem_cons.mp hmob with rfl | hmob
    · exact ⟨rfl, rfl⟩
    · exact hlive mob hmob
  · have hcount := respawnMonster_count hs hlt handle
    have hle := h.count
    omega

theorem SpawnerOk.spawn (hs : SpawnerOk s) (hdead : s.lastDeadTime ≠ 0) {tries n : Nat}
    (hn : s.count + n ≤ s.m_nMaxRespawnNum) (points : Nat → SpawnPoint) :
    Grown s (RespawnObject.spawn tries n points s) := by
  induction tries generalizing s n points with
  | zero => exact .refl hs
  | succ tries ih =>
    cases n with
    | zero => exact .refl hs
    | succ n =>
      unfold RespawnObject.spawn
      cases points 0 with
      | blocked => exact ih hs hdead hn _
      | free monster =>
        cases monster with
        | none => exact ih hs hdead (by omega) _
        | some handle =>
          have hlt : s.count < s.m_nMaxRespawnNum := by omega
          have hcount := respawnMonster_count hs hlt handle
          have hn' : (s.respawnMonster handle).count + n ≤ (s.respawnMonster handle).m_nMaxRespawnNum := by
            rw [hcount]
            show s.count + 1 + n ≤ s.m_nMaxRespawnNum
            omega
          exact hs.grown_respawnMonster hlt handle (ih (hs.respawnMonster hlt hdead handle) hdead hn' _)

theorem spawn_now (tries n : Nat) (points : Nat → SpawnPoint) (s : RespawnObject) :
    (RespawnObject.spawn tries n points s).now = s.now := by
  induction tries generalizing s n points with
  | zero => rfl
  | succ tries ih =>
    cases n with
    | zero => rfl
    | succ n =>
      unfold RespawnObject.spawn
      cases points 0 with
      | blocked => exact ih _ _ _
      | free monster =>
        cases monster with
        | none => exact ih _ _ _
        | some handle => exact ih _ _ _

/-- The first batch comes when nothing is counted. -/
theorem SpawnerOk.update (hs : SpawnerOk s) (hct : 0 < ct) (points : Nat → SpawnPoint) :
    Grown s (s.update ct points) := by
  have hnow : SpawnerOk { s with now := ct } := ⟨hs.perm, hs.count, hs.le, hs.cap, hs.alive, hs.first⟩
  have hgrown : ∀ s', Grown { s with now := ct } s' → Grown s s' := fun s' h => ⟨h.ok, h.info, h.cap, h.monsters, h.count⟩
  apply hgrown
  unfold RespawnObject.update
  dsimp only
  split_ifs with hfull hearly hfirst
  · exact .refl hnow
  · exact .refl hnow
  · have hzero := hs.first hfirst
    have hok : SpawnerOk { s with now := ct, lastDeadTime := ct } :=
      ⟨hs.perm, hs.count, hs.le, hs.cap, hs.alive, fun h => absurd h (Nat.pos_iff_ne_zero.mp hct)⟩
    have hbatch : s.count + s.m_nMaxRespawnNum ≤ s.m_nMaxRespawnNum := by omega
    have hspawn : Grown { s with now := ct, lastDeadTime := ct }
        (RespawnObject.spawn 500 s.m_nMaxRespawnNum points { s with now := ct, lastDeadTime := ct }) :=
      hok.spawn (Nat.pos_iff_ne_zero.mp hct) hbatch points
    exact ⟨hspawn.ok, hspawn.info, hspawn.cap, hspawn.monsters, hspawn.count⟩
  · have hbatch : s.count + min (s.m_nMaxRespawnNum - s.count) s.info.inc ≤ s.m_nMaxRespawnNum := by omega
    exact hnow.spawn hfirst hbatch points

theorem update_now (s : RespawnObject) (ct : Nat) (points : Nat → SpawnPoint) : (s.update ct points).now = ct := by
  unfold RespawnObject.update
  dsimp only
  split_ifs
  · rfl
  · rfl
  · rw [spawn_now]
  · rw [spawn_now]

/-! ## Deaths -/

/-- The monster of an index between the ones before and after it, and what the two updates of it leave. -/
theorem exists_split_monsters (hmob : s.monsters[i]? = some mob) : ∃ A B, s.monsters = A ++ mob :: B ∧
    (s.setDead i).monsters = A ++ { mob with dead := true } :: B ∧
    (s.clearHandler i).monsters = A ++ { mob with deleteHandler := false } :: B := by
  obtain ⟨A, B, hsplit, rfl⟩ := exists_append_of_getElem? hmob
  refine ⟨A, B, hsplit, ?_, ?_⟩
  · rw [RespawnObject.setDead, hsplit]
    exact modify_append_cons A B mob _
  · rw [RespawnObject.clearHandler, hsplit]
    exact modify_append_cons A B mob _

/-- A monster that is dead may take the place of any other. -/
theorem SpawnerOk.alive_replaced (hs : SpawnerOk s) {A B : List SpawnedMonster} {x : SpawnedMonster}
    (hsplit : s.monsters = A ++ mob :: B) (hx : x.dead = true) :
    ∀ m ∈ A ++ x :: B, m.dead = false → m.deleteHandler = true := by
  intro m hm hlive
  rw [List.mem_append, List.mem_cons] at hm
  rcases hm with hm | rfl | hm
  · exact hs.alive m (hsplit ▸ List.mem_append_left _ hm) hlive
  · exact absurd (hx.symm.trans hlive) (by decide)
  · exact hs.alive m (hsplit ▸ List.mem_append_right _ (List.mem_cons_of_mem _ hm)) hlive

theorem SpawnerOk.setDead (hs : SpawnerOk s) (hmob : s.monsters[i]? = some mob) : SpawnerOk (s.setDead i) := by
  obtain ⟨A, B, hsplit, hmonsters, -⟩ := exists_split_monsters hmob
  refine ⟨?_, hs.count, hs.le, hs.cap, ?_, hs.first⟩
  · have hperm : (s.setDead i).m_vRespawnedMonster.Perm _ := hs.perm
    rw [hsplit] at hperm
    rw [hmonsters]
    simpa [List.filter_append, List.filter_cons, apply_ite] using hperm
  · rw [hmonsters]
    exact hs.alive_replaced hsplit rfl

theorem SpawnerOk.perm_erase (hs : SpawnerOk s) (hmob : s.monsters[i]? = some mob)
    (hhandler : mob.deleteHandler = true) :
    mob.handle ∈ s.m_vRespawnedMonster ∧ (s.m_vRespawnedMonster.erase mob.handle).Perm
      (((s.clearHandler i).monsters.filter (·.deleteHandler)).map (·.handle)) := by
  obtain ⟨A, B, hsplit, -, hmonsters⟩ := exists_split_monsters hmob
  have hperm := hs.perm
  rw [hsplit] at hperm
  simp only [List.filter_append, List.filter_cons, hhandler, if_true, List.map_append, List.map_cons] at hperm
  have hfront := hperm.trans List.perm_middle
  refine ⟨hfront.mem_iff.mpr List.mem_cons_self, ?_⟩
  have herase := hfront.erase mob.handle
  rw [List.erase_cons_head] at herase
  rw [hmonsters]
  simpa [List.filter_append, List.filter_cons] using herase

/-- What the first call for a corpse does. -/
structure Buried (s s' : RespawnObject) (i : Nat) : Prop where
  ok : SpawnerOk s'
  info : s'.info = s.info
  now : s'.now = s.now
  count : s'.count + 1 = s.count
  monsters : s'.monsters = (s.clearHandler i).monsters

/-- A corpse that has its handler is in the list, and leaves it. -/
theorem SpawnerOk.onMonsterDelete (hs : SpawnerOk s) (hmob : s.monsters[i]? = some mob) (hdead : mob.dead = true)
    (hhandler : mob.deleteHandler = true) (hct : 0 < ct) : Buried s (s.onMonsterDelete i mob.handle ct) i := by
  obtain ⟨hmem, hperm⟩ := hs.perm_erase hmob hhandler
  have hpos : 0 < s.count := by
    rw [hs.count]
    exact List.length_pos_of_mem hmem
  have hcount : decrement32 s.count + 1 = s.count := by
    rw [decrement32, if_neg (Nat.pos_iff_ne_zero.mp hpos)]
    omega
  have hle := hs.le
  have hcap := hs.cap
  have hlength := List.length_erase_of_mem hmem
  rw [← hs.count] at hlength
  have halive : ∀ m ∈ (s.clearHandler i).monsters, m.dead = false → m.deleteHandler = true := by
    obtain ⟨A, B, hsplit, -, hmonsters⟩ := exists_split_monsters hmob
    rw [hmonsters]
    exact hs.alive_replaced hsplit hdead
  unfold RespawnObject.onMonsterDelete eraseHandle
  dsimp only
  generalize decrement32 s.count = c at hcount ⊢
  rw [if_pos hmem]
  split_ifs with hmax
  · refine ⟨⟨hperm, ?_, ?_, hmax, halive, fun h => absurd h (Nat.pos_iff_ne_zero.mp hct)⟩, rfl, rfl, hcount, rfl⟩
    · show c = (s.m_vRespawnedMonster.erase mob.handle).length
      omega
    · show c ≤ s.m_nMaxRespawnNum + 1
      omega
  · refine ⟨⟨hperm, ?_, ?_, hcap, halive, fun h => absurd h (Nat.pos_iff_ne_zero.mp hct)⟩, rfl, rfl, hcount, rfl⟩
    · show c = (s.m_vRespawnedMonster.erase mob.handle).length
      omega
    · show c ≤ s.m_nMaxRespawnNum
      omega

/-- An update of a monster buries it when it is dead, near a client, and has not been buried before. -/
theorem SpawnerOk.updateMonster (hs : SpawnerOk s) (hct : 0 < ct) (h : s.updateMonster i near ct = some s') :
    ∃ mob, s.monsters[i]? = some mob ∧ s'.now = ct ∧
      ((near = true ∧ mob.dead = true ∧ mob.deleteHandler = true ∧ Buried { s with now := ct } s' i) ∨
        (¬(near = true ∧ mob.dead = true ∧ mob.deleteHandler = true) ∧ s' = { s with now := ct })) := by
  obtain ⟨mob, hmob, rfl⟩ := Option.map_eq_some_iff.mp h
  have hnow : SpawnerOk { s with now := ct } := ⟨hs.perm, hs.count, hs.le, hs.cap, hs.alive, hs.first⟩
  refine ⟨mob, hmob, ?_⟩
  dsimp only
  by_cases hcall : near = true ∧ mob.dead = true
  · rw [if_pos hcall, processDead]
    split_ifs with hhandler
    · have hburied := hnow.onMonsterDelete hmob hcall.2 hhandler hct
      exact ⟨hburied.now, .inl ⟨hcall.1, hcall.2, hhandler, hburied⟩⟩
    · exact ⟨rfl, .inr ⟨fun h => hhandler h.2.2, rfl⟩⟩
  · rw [if_neg hcall]
    exact ⟨rfl, .inr ⟨fun h => hcall ⟨h.1, h.2.1⟩, rfl⟩⟩

/-! ## Filling up -/

/-- Every position is free, and every monster has the handle 0. -/
def freePoints : Nat → SpawnPoint := fun _ => .free (some 0)

theorem spawn_free (hs : SpawnerOk s) (hdead : s.lastDeadTime ≠ 0) {tries n : Nat}
    (hn : s.count + n ≤ s.m_nMaxRespawnNum) :
    (RespawnObject.spawn tries n freePoints s).count = s.count + min tries n := by
  induction tries generalizing s n with
  | zero => simp [RespawnObject.spawn]
  | succ tries ih =>
    cases n with
    | zero => simp [RespawnObject.spawn]
    | succ n =>
      have hlt : s.count < s.m_nMaxRespawnNum := by omega
      have hcount := respawnMonster_count hs hlt 0
      have hn' : (s.respawnMonster 0).count + n ≤ (s.respawnMonster 0).m_nMaxRespawnNum := by
        rw [hcount]
        show s.count + 1 + n ≤ s.m_nMaxRespawnNum
        omega
      show (RespawnObject.spawn tries n freePoints (s.respawnMonster 0)).count = _
      rw [ih (hs.respawnMonster hlt hdead 0) hdead hn', hcount]
      omega

/-- Late enough every update brings a monster, if there is room and a batch is not empty. -/
theorem update_free (hs : SpawnerOk s) (hinc : 0 < s.info.inc) (hroom : s.count < s.m_nMaxRespawnNum) :
    s.count < (s.update (2 ^ 32 - 1) freePoints).count := by
  unfold RespawnObject.update
  dsimp only
  rw [if_neg (Nat.not_le.mpr hroom), if_neg (by omega)]
  split_ifs with hfirst
  · have hzero := hs.first hfirst
    have hlate : 2 ^ 32 - 1 ≠ 0 := by decide
    have hok : SpawnerOk { s with now := 2 ^ 32 - 1, lastDeadTime := 2 ^ 32 - 1 } :=
      ⟨hs.perm, hs.count, hs.le, hs.cap, hs.alive, fun h => absurd h hlate⟩
    have hbatch : s.count + s.m_nMaxRespawnNum ≤ s.m_nMaxRespawnNum := by omega
    rw [spawn_free hok hlate hbatch]
    show s.count < s.count + min 500 s.m_nMaxRespawnNum
    omega
  · have hok : SpawnerOk { s with now := 2 ^ 32 - 1 } := ⟨hs.perm, hs.count, hs.le, hs.cap, hs.alive, hs.first⟩
    have hbatch : s.count + min (s.m_nMaxRespawnNum - s.count) s.info.inc ≤ s.m_nMaxRespawnNum := by omega
    rw [spawn_free hok hfirst hbatch]
    show s.count < s.count + min 500 (min (s.m_nMaxRespawnNum - s.count) s.info.inc)
    omega

theorem SpawnerOk.exists_iterate (hs : SpawnerOk s) (hinc : 0 < s.info.inc) {k : Nat}
    (hk : s.m_nMaxRespawnNum - s.count = k) :
    ∃ n, ((fun s => s.update (2 ^ 32 - 1) freePoints)^[n] s).count = s.m_nMaxRespawnNum := by
  induction k using Nat.strongRecOn generalizing s with
  | ind k ih =>
    by_cases hroom : s.count < s.m_nMaxRespawnNum
    · have hgrown := hs.update (show 0 < 2 ^ 32 - 1 by decide) freePoints
      have hmore := update_free hs hinc hroom
      have hinfo : 0 < (s.update (2 ^ 32 - 1) freePoints).info.inc := by
        rw [hgrown.info]
        exact hinc
      obtain ⟨n, hn⟩ := ih _ (by rw [hgrown.cap]; omega) hgrown.ok hinfo rfl
      refine ⟨n + 1, ?_⟩
      rw [Function.iterate_succ_apply, hn, hgrown.cap]
    · exact ⟨0, Nat.le_antisymm hs.le (Nat.not_lt.mp hroom)⟩

theorem SpawnerOk.refills (hs : SpawnerOk s) (hinc : 0 < s.info.inc) (hnow : s.now < 2 ^ 32) : s.Refills := by
  obtain ⟨n, hn⟩ := hs.exists_iterate hinc rfl
  exact ⟨2 ^ 32 - 1, freePoints, n, by omega, by decide, hn⟩

/-! ## Every run -/

structure RunOk (info : RespawnInfo) (hist : History RespawnObject RespawnEvent) (s : RespawnObject) : Prop where
  ok : SpawnerOk s
  info : s.info = info
  now : s.now < 2 ^ 32
  handlers : ∀ i mob, s.monsters[i]? = some mob → mob.deleteHandler = !processed hist i
  created : ∀ i, processed hist i → i < s.monsters.length
  once : ∀ i, hist.countP (reduces · i) = (processed hist i).toNat
  only : ∀ tr ∈ hist, tr.before.count ≤ tr.after.count ∨ ∃ i, reduces tr i

variable {info : RespawnInfo} {hist : History RespawnObject RespawnEvent} {e : RespawnEvent}

theorem processed_cons (tr : Transition RespawnObject RespawnEvent) (i : Nat) :
    processed (tr :: hist) i = (processes tr i || processed hist i) := rfl

/-- A transition in which no corpse is processed for the first time. -/
theorem RunOk.quiet (h : RunOk info hist s) (hok : SpawnerOk s') (hinfo : s'.info = s.info) (hnow : s'.now < 2 ^ 32)
    (hprocessed : ∀ i, processed (⟨s, e, s'⟩ :: hist) i = processed hist i) (hreduces : ∀ i, reduces ⟨s, e, s'⟩ i = false)
    (hcount : s.count ≤ s'.count) (hlen : s.monsters.length ≤ s'.monsters.length)
    (hmonsters : ∀ i mob, s'.monsters[i]? = some mob →
      (∃ old, s.monsters[i]? = some old ∧ old.deleteHandler = mob.deleteHandler) ∨
        (s.monsters.length ≤ i ∧ mob.deleteHandler = true)) : RunOk info (⟨s, e, s'⟩ :: hist) s' := by
  refine ⟨hok, hinfo.trans h.info, hnow, fun i mob hmob => ?_, fun i hi => ?_, fun i => ?_, fun tr htr => ?_⟩
  · rw [hprocessed]
    rcases hmonsters i mob hmob with ⟨old, hold, heq⟩ | ⟨hi, hnew⟩
    · rw [← heq]
      exact h.handlers i old hold
    · have hnot : processed hist i = false := by
        by_contra hp
        exact Nat.not_lt.mpr hi (h.created i ((Bool.not_eq_false _).mp hp))
      rw [hnot, hnew]
      rfl
  · rw [hprocessed] at hi
    exact Nat.lt_of_lt_of_le (h.created i hi) hlen
  · rw [List.countP_cons_of_neg (by rw [hreduces]; decide), hprocessed]
    exact h.once i
  · rcases List.mem_cons.mp htr with rfl | htr
    · exact .inl hcount
    · exact h.only tr htr

theorem RunOk.update (h : RunOk info hist s) (hct : 0 < ct) (hlt : ct < 2 ^ 32) (points : Nat → SpawnPoint) :
    RunOk info (⟨s, .update ct points, s.update ct points⟩ :: hist) (s.update ct points) := by
  have hgrown := h.ok.update hct points
  obtain ⟨l, hl, hlive⟩ := hgrown.monsters
  refine h.quiet hgrown.ok hgrown.info (by rwa [update_now]) (fun i => rfl) (fun i => rfl) hgrown.count ?_ ?_
  · rw [hl, List.length_append]
    exact Nat.le_add_right _ _
  · intro i mob hmob
    rw [hl] at hmob
    by_cases hi : i < s.monsters.length
    · rw [List.getElem?_append_left hi] at hmob
      exact .inl ⟨mob, hmob, rfl⟩
    · rw [List.getElem?_append_right (Nat.not_lt.mp hi)] at hmob
      exact .inr ⟨Nat.not_lt.mp hi, (hlive mob (List.mem_of_getElem? hmob)).2⟩

theorem RunOk.die (h : RunOk info hist s) (hmob : s.monsters[i]? = some mob) :
    RunOk info (⟨s, .die i, s.setDead i⟩ :: hist) (s.setDead i) := by
  refine h.quiet (h.ok.setDead hmob) rfl h.now (fun i => rfl) (fun i => rfl) (Nat.le_refl _) ?_ ?_
  · exact Nat.le_of_eq (List.length_modify _ _ _).symm
  · intro j m hm
    rw [RespawnObject.setDead, List.getElem?_modify] at hm
    obtain ⟨old, hold, rfl⟩ := Option.map_eq_some_iff.mp hm
    refine .inl ⟨old, hold, ?_⟩
    split_ifs <;> rfl

theorem RunOk.buried (h : RunOk info hist s) (hmob : s.monsters[i]? = some mob) (hdead : mob.dead = true)
    (hhandler : mob.deleteHandler = true) (hb : Buried { s with now := ct } s' i) (hnow : s'.now < 2 ^ 32) :
    RunOk info (⟨s, .updateMonster i true ct, s'⟩ :: hist) s' := by
  have hcount : s'.count + 1 = s.count := hb.count
  have hmonsters : s'.monsters = (s.clearHandler i).monsters := hb.monsters
  have hlen : s'.monsters.length = s.monsters.length := by
    rw [hmonsters]
    exact List.length_modify _ _ _
  have hprocesses : ∀ j, processes ⟨s, .updateMonster i true ct, s'⟩ j = decide (i = j) := by
    intro j
    by_cases hj : i = j
    · subst hj
      simp [processes, hmob, hdead]
    · simp [processes, hj]
  have hreduces : ∀ j, reduces ⟨s, .updateMonster i true ct, s'⟩ j = decide (i = j) := by
    intro j
    simp [reduces, hcount]
  have hfirst : processed hist i = false := by
    have hh := h.handlers i mob hmob
    rwa [hhandler, eq_comm, Bool.not_eq_true'] at hh
  refine ⟨hb.ok, hb.info.trans h.info, hnow, fun j m hm => ?_, fun j hj => ?_, fun j => ?_, fun tr htr => ?_⟩
  · rw [processed_cons, hprocesses]
    rw [hmonsters, clearHandler, List.getElem?_modify] at hm
    obtain ⟨old, hold, rfl⟩ := Option.map_eq_some_iff.mp hm
    by_cases hj : i = j
    · simp [hj]
    · simpa [hj] using h.handlers j old hold
  · rw [processed_cons, hprocesses, Bool.or_eq_true, decide_eq_true_eq] at hj
    rw [hlen]
    rcases hj with rfl | hj
    · exact (List.getElem?_eq_some_iff.mp hmob).1
    · exact h.created j hj
  · rw [List.countP_cons, h.once j, processed_cons, hprocesses, hreduces]
    by_cases hj : i = j
    · subst hj
      simp [hfirst]
    · simp [hj]
  · rcases List.mem_cons.mp htr with rfl | htr
    · exact .inr ⟨i, by rw [hreduces]; exact decide_eq_true rfl⟩
    · exact h.only tr htr

/-- A corpse that has been processed is not processed again. -/
theorem RunOk.updateMonster_quiet (h : RunOk info hist s) (hmob : s.monsters[i]? = some mob)
    (hnot : ¬(near = true ∧ mob.dead = true ∧ mob.deleteHandler = true)) (hlt : ct < 2 ^ 32) :
    RunOk info (⟨s, .updateMonster i near ct, { s with now := ct }⟩ :: hist) { s with now := ct } := by
  have hok := h.ok
  refine h.quiet ⟨hok.perm, hok.count, hok.le, hok.cap, hok.alive, hok.first⟩ rfl hlt ?_ ?_ (Nat.le_refl _)
    (Nat.le_refl _) (fun j m hm => .inl ⟨m, hm, rfl⟩)
  · intro j
    rw [processed_cons]
    by_cases hj : i = j
    · subst hj
      cases hp : processed hist i with
      | true => rw [Bool.or_true]
      | false =>
        have hhandler := h.handlers i mob hmob
        rw [hp] at hhandler
        have hnot' : ¬(near = true ∧ mob.dead = true) := fun hcall => hnot ⟨hcall.1, hcall.2, hhandler⟩
        rw [Bool.or_false]
        simpa [processes, hmob] using hnot'
    · simp [processes, hj]
  · intro j
    simp [reduces]

theorem runOk_of_run (hrun : (system info).RunWhere (fun _ s e => Timely s e) hist s) : RunOk info hist s := by
  refine hrun.invariant ?_ ?_
  · rintro s rfl
    exact ⟨create_ok info, rfl, Nat.two_pow_pos 32, fun i mob hmob => (nomatch hmob), fun i hi => (nomatch hi), fun i => rfl,
      fun tr htr => (nomatch htr)⟩
  · intro h s e t _ ih htime hstep
    have hstep : s.handle e = some t := hstep
    cases e with
    | update ct points =>
      obtain rfl := Option.some.inj hstep
      exact ih.update htime.1 htime.2.2 points
    | die i =>
      obtain ⟨mob, hmob, rfl⟩ := Option.map_eq_some_iff.mp hstep
      exact ih.die hmob
    | updateMonster i near ct =>
      obtain ⟨mob, hmob, hnow, hcases⟩ := ih.ok.updateMonster htime.1 hstep
      rcases hcases with ⟨rfl, hdead, hhandler, hb⟩ | ⟨hnot, rfl⟩
      · exact ih.buried hmob hdead hhandler hb (hnow ▸ htime.2.2)
      · exact ih.updateMonster_quiet hmob hnot htime.2.2

/-- Of every spawner and every run of it. -/
theorem accounted_of_run (hrun : (system info).RunWhere (fun _ s e => Timely s e) hist s) : Accounted info hist s := by
  have h := runOk_of_run hrun
  refine ⟨h.ok.count, ?_, h.ok.le, h.info ▸ h.ok.cap, h.once, h.only, fun hinc => h.ok.refills (h.info ▸ hinc) h.now⟩
  rw [← countP_eq_range h.handlers, h.ok.perm.length_eq, List.length_map, List.countP_eq_length_filter]

/-- An area for one monster, which comes at once. -/
def oneMonster (inc : Nat) : RespawnInfo where
  interval := 100
  max_num := 1
  inc := inc
  prespawn_count := 1
  max_num_lt := by decide
  prespawn_le := by decide

/-- The monster comes, dies, and is processed. -/
theorem accounted_oneMonster : ∃ hist s, (system (oneMonster 1)).RunWhere (fun _ s e => Timely s e) hist s ∧
    s.monsters = [⟨0, true, false⟩] ∧ Accounted (oneMonster 1) hist s := by
  obtain ⟨hist, s, hrun, hs⟩ := System.exists_run_exec (fun s : RespawnObject => s.monsters)
    [.update 1 freePoints, .die 0, .updateMonster 0 true 2, .updateMonster 0 true 3]
    (System.RunWhere.init rfl : (system (oneMonster 1)).RunWhere (fun _ s e => Timely s e) [] (create (oneMonster 1)))
    (by decide +kernel : _ = some [⟨0, true, false⟩])
  exact ⟨hist, s, hrun, hs, accounted_of_run hrun⟩

/-! ## What does not hold -/

/-- Without a batch size nothing comes after the first batch. -/
theorem update_inc_zero (hinc : s.info.inc = 0) (hdead : s.lastDeadTime ≠ 0) (ct : Nat) (points : Nat → SpawnPoint) :
    s.update ct points = { s with now := ct } := by
  unfold RespawnObject.update
  dsimp only
  rw [if_neg hdead, hinc, Nat.min_zero]
  split_ifs <;> rfl

theorem iterate_inc_zero (hinc : s.info.inc = 0) (hdead : s.lastDeadTime ≠ 0) (ct : Nat) (points : Nat → SpawnPoint)
    (n : Nat) : ((fun s => s.update ct points)^[n] s).count = s.count := by
  induction n generalizing s with
  | zero => rfl
  | succ n ih =>
    have hnext : ({ s with now := ct } : RespawnObject).info.inc = 0 := hinc
    rw [Function.iterate_succ_apply, update_inc_zero hinc hdead, ih hnext hdead]

/-- A corpse that is not processed yet is in the list, and an area without a batch size stays empty. -/
theorem not_living_accounted :
    (¬∀ info hist s, (system info).RunWhere (fun _ s e => Timely s e) hist s →
      s.monsters.countP (fun mob => !mob.dead) = s.m_vRespawnedMonster.length) ∧
    ¬∀ info hist s, (system info).RunWhere (fun _ s e => Timely s e) hist s → s.Refills := by
  constructor
  · intro h
    obtain ⟨hist, s, hrun, hs⟩ := System.exists_run_exec
      (fun s : RespawnObject => (s.monsters.countP (fun mob => !mob.dead), s.m_vRespawnedMonster.length))
      [.update 1 freePoints, .die 0]
      (System.RunWhere.init rfl : (system (oneMonster 1)).RunWhere (fun _ s e => Timely s e) [] (create (oneMonster 1)))
      (by decide +kernel : _ = some (0, 1))
    have heq := h _ hist s hrun
    rw [(Prod.mk.inj hs).1, (Prod.mk.inj hs).2] at heq
    cases heq
  · intro h
    obtain ⟨hist, s, hrun, hs⟩ := System.exists_run_exec
      (fun s : RespawnObject => (s.count, s.m_nMaxRespawnNum, s.info.inc, s.lastDeadTime))
      [.update 1 freePoints, .die 0, .updateMonster 0 true 2]
      (System.RunWhere.init rfl : (system (oneMonster 0)).RunWhere (fun _ s e => Timely s e) [] (create (oneMonster 0)))
      (by decide +kernel : _ = some (0, 1, 0, 2))
    simp only [Prod.mk.injEq] at hs
    obtain ⟨hcount, hmax, hinc, hdead⟩ := hs
    obtain ⟨ct, points, n, -, -, hn⟩ := h _ hist s hrun
    rw [iterate_inc_zero hinc (by rw [hdead]; decide), hcount, hmax] at hn
    cases hn

end RespawnObject

end RZEmulator.Chihiro
