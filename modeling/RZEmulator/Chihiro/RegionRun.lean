import RZEmulator.Chihiro.RegionMembership

/-!
# Runs of the world

One lemma for each function of the world says that it has a result and keeps the invariant if it is called
as `Admissible` asks. From these the statement about runs follows by the invariant rule.
-/

namespace RZEmulator.Chihiro.RegionMap

open Lib

variable {P : Type} {cfg : MapConfig P} {w w' : RegionMap P} {h h' : Nat}

/-- The object stands in exactly one list, at the slot that its region pointer and its index name, and
that is the list of the region of its position and layer. -/
def Placed (cfg : MapConfig P) (w : RegionMap P) (h : Nat) : Prop :=
  ∃ (r : RegionPtr) (i : Nat), w.getRegion cfg h = some r ∧ (w.object h).pRegion = some r ∧
    (w.object h).region_index = i ∧
    ∀ r' t' i', (w.objects r' t')[i']? = some h ↔ r' = r ∧ t' = (w.object h).objType ∧ i' = i

/-- The object stands in no list. -/
def Absent (w : RegionMap P) (h : Nat) : Prop :=
  (w.object h).pRegion = none ∧ ∀ r t, h ∉ w.objects r t

/-- **Region membership.** -/
def Membership (cfg : MapConfig P) (w : RegionMap P) : Prop :=
  ∀ h, if (w.object h).m_inWorld then Placed cfg w h else Absent w h

theorem Ok.membership (hw : Ok cfg w) : Membership cfg w := by
  intro h
  split_ifs with hin
  · obtain ⟨r, hpr, hr⟩ := hw.pRegion_of_in hin
    obtain ⟨i, hi⟩ := Int.eq_ofNat_of_zero_le (hw.linked.nonneg h r hpr)
    refine ⟨r, i, hr, hpr, hi, fun r' t' i' => ?_⟩
    have hplace : w.place h = i := by
      unfold place
      rw [hi, Int.toNat_natCast]
    constructor
    · intro hslot
      obtain ⟨hp, ht⟩ := (hw.linked.listed r' t' h).mp (List.mem_of_getElem? hslot)
      have hindex := hw.linked.indexed r' t' i' h hslot
      exact ⟨Option.some.inj (hp.symm.trans hpr), ht.symm, hindex.symm.trans hplace⟩
    · rintro ⟨rfl, rfl, rfl⟩
      rw [← hplace]
      exact (hw.linked.indexed _ _).getElem? ((hw.linked.listed _ _ h).mpr ⟨hpr, rfl⟩)
  · have hout := hw.pRegion_of_out (Bool.eq_false_iff.mpr hin)
    exact ⟨hout, hw.linked.not_mem hout⟩

/-- How the functions of the world may be called. -/
def Admissible (cfg : MapConfig P) (w : RegionMap P) : Event P → Prop
  | .addObjectToWorld h => (w.object h).m_inWorld = false
  | .removeObjectFromWorld h => (w.object h).m_inWorld = true
  | .setMultipleMove h curPos _ => CanMove cfg w h curPos
  | .setMove h curPos _ _ =>
    (w.object h).m_inWorld = true → (w.object h).bIsMoving = true → CanMove cfg w h curPos
  | .moveObject h newPos => CanMove cfg w h newPos
  | .step h newPos _ => (w.object h).bIsMoving = true → CanMove cfg w h newPos
  | .warpBegin _ => True
  | .warpEnd pPlayer _ _ _ _ => (w.object pPlayer).m_inWorld = false ∧
    ∀ s ∈ (w.object pPlayer).m_pMainSummon, s ≠ pPlayer ∧ (w.object s).m_inWorld = false
  | .place h _ _ => (w.object h).m_inWorld = false
  | .setMainSummon _ _ => True

/-! ## One lemma for each function -/

theorem Ok.setMoving (hw : Ok cfg w) (h : Nat) (moving : Bool) : Ok cfg (w.setMoving h moving) :=
  hw.updObject (fun _ => ⟨rfl, rfl, rfl, rfl⟩) fun _ => ⟨rfl, rfl⟩

theorem setCurrentXY_setMoving (w : RegionMap P) (h : Nat) (pos : P) (moving : Bool) :
    (w.setCurrentXY h pos).setMoving h moving =
      w.updObject h ({ · with position := pos, bIsMoving := moving }) := by
  unfold RegionMap.setMoving RegionMap.setCurrentXY RegionMap.updObject
  congr 1
  funext h'
  by_cases hne : h' = h
  · subst hne
    simp
  · simp [hne]

theorem Ok.setMultipleMove (hw : Ok cfg w) {curPos : P} (hmove : CanMove cfg w h curPos)
    (moving : Bool) : ∃ w', w.setMultipleMove cfg h curPos moving = some w' ∧ Ok cfg w' := by
  obtain ⟨w', hrun, hw'⟩ := hw.onMoveObject (f := ({ · with position := curPos }))
    (fun _ => ⟨rfl, rfl, rfl, rfl⟩) rfl hmove
  exact ⟨w'.setMoving h moving, congrArg _ hrun, hw'.setMoving h moving⟩

theorem Ok.setMove (hw : Ok cfg w) {curPos : P} (hmove : (w.object h).m_inWorld = true →
      (w.object h).bIsMoving = true → CanMove cfg w h curPos) (bAbsoluteMove moving : Bool) :
    ∃ w', w.setMove cfg h curPos bAbsoluteMove moving = some w' ∧ Ok cfg w' := by
  unfold RegionMap.setMove
  by_cases habs : bAbsoluteMove = true
  · rw [if_pos habs]
    by_cases hmoves : ((w.object h).bIsMoving && (w.object h).m_inWorld) = true
    · rw [if_pos hmoves]
      obtain ⟨hm, hin⟩ := Bool.and_eq_true_iff.mp hmoves
      exact hw.setMultipleMove (hmove hin hm) moving
    · rw [if_neg hmoves]
      exact ⟨_, rfl, hw.setMoving h moving⟩
  · rw [if_neg habs]
    exact ⟨w, rfl, hw⟩

theorem Ok.moveObject (hw : Ok cfg w) {newPos : P} (hmove : CanMove cfg w h newPos) :
    ∃ w', w.moveObject cfg h newPos = some w' ∧ Ok cfg w' := by
  unfold RegionMap.moveObject
  rw [setCurrentXY_setMoving]
  exact hw.onMoveObject (fun _ => ⟨rfl, rfl, rfl, rfl⟩) rfl hmove

theorem Ok.step (hw : Ok cfg w) {newPos : P}
    (hmove : (w.object h).bIsMoving = true → CanMove cfg w h newPos) (moving : Bool) :
    ∃ w', w.step cfg h newPos moving = some w' ∧ Ok cfg w' := by
  unfold RegionMap.step
  by_cases hmoves : (w.object h).bIsMoving = true
  · rw [if_pos hmoves, setCurrentXY_setMoving]
    exact hw.onMoveObject (fun _ => ⟨rfl, rfl, rfl, rfl⟩) rfl (hmove hmoves)
  · rw [if_neg hmoves]
    unfold RegionMap.onMoveObject
    rw [if_neg (not_not.mpr rfl)]
    exact ⟨w, rfl, hw⟩

theorem Ok.leave (hw : Ok cfg w) (h : Nat) :
    ∃ w', w.leave cfg h = some w' ∧ Ok cfg w' ∧ Relinked w w' h := by
  unfold RegionMap.leave
  by_cases hin : (w.object h).m_inWorld = true
  · rw [if_pos hin]
    exact hw.removeObjectFromWorld hin
  · rw [if_neg hin]
    exact ⟨w, rfl, hw, .refl w h⟩

theorem Ok.warpBegin (hw : Ok cfg w) (pPlayer : Nat) :
    ∃ w', w.warpBegin cfg pPlayer = some w' ∧ Ok cfg w' := by
  obtain ⟨w₁, hleave, hw₁, -⟩ := hw.leave pPlayer
  unfold RegionMap.warpBegin
  rw [hleave, Option.bind_some]
  cases (w₁.object pPlayer).m_pMainSummon with
  | none => exact ⟨w₁, rfl, hw₁⟩
  | some pSummon =>
    obtain ⟨w₂, hleave₂, hw₂, -⟩ := hw₁.leave pSummon
    exact ⟨w₂, hleave₂, hw₂⟩

/-- An object that stands still is told to move, at the end of a warp: it keeps its place. -/
theorem setMove_still (hstill : (w.object h).bIsMoving = false) (pos : P) (moving : Bool) :
    w.setMove cfg h pos true moving = some (w.setMoving h moving) := by
  unfold RegionMap.setMove
  rw [if_pos rfl, hstill]
  rfl

/-- The end of a warp puts the summon into the world and leaves all other objects alone. -/
theorem Ok.warpEndSummon (hw : Ok cfg w) {pSummon : Nat}
    (hout : (w.object pSummon).m_inWorld = false) (pos : P) (layer : UInt8) (noise : P)
    (moving : Bool) : ∃ w', w.warpEndSummon cfg pos layer pSummon noise moving = some w' ∧ Ok cfg w' ∧
      ∀ h, h ≠ pSummon → (w'.object h).m_inWorld = (w.object h).m_inWorld ∧
        (w'.object h).bIsMoving = (w.object h).bIsMoving := by
  have hw₁ : Ok cfg (w.updObject pSummon
      ({ · with position := noise, m_nLayer := layer, bIsMoving := false })) :=
    hw.updObject (fun _ => ⟨rfl, rfl, rfl, rfl⟩) fun hin => absurd (hout.symm.trans hin) (by decide)
  obtain ⟨w₂, hadd, hw₂, hkept⟩ := hw₁.addObjectToWorld (h := pSummon)
    (by rw [updObject_object_same]; exact hout)
  have hstill : (w₂.object pSummon).bIsMoving = false := by
    rw [hkept.moving, updObject_object_same]
  refine ⟨w₂.setMoving pSummon moving, ?_, hw₂.setMoving _ _, fun h hne => ?_⟩
  · unfold RegionMap.warpEndSummon
    rw [hadd, Option.bind_some, setMove_still hstill]
  · unfold RegionMap.setMoving
    rw [updObject_object_of_ne hne, hkept.inWorld h hne, hkept.moving, updObject_object_of_ne hne]
    exact ⟨rfl, rfl⟩

theorem Ok.warpEnd (hw : Ok cfg w) {pPlayer : Nat} (hout : (w.object pPlayer).m_inWorld = false)
    (hsummon : ∀ s, (w.object pPlayer).m_pMainSummon = some s →
      s ≠ pPlayer ∧ (w.object s).m_inWorld = false) (pos : P) (layer : UInt8) (noise : P)
    (moving : Bool) : ∃ w', w.warpEnd cfg pPlayer pos layer noise moving = some w' ∧ Ok cfg w' := by
  unfold RegionMap.warpEnd
  rw [setCurrentXY_setMoving]
  set w₁ := w.updObject pPlayer ({ · with position := pos, bIsMoving := false }) with hw₁
  have hok₁ : Ok cfg w₁ :=
    hw.updObject (fun _ => ⟨rfl, rfl, rfl, rfl⟩) fun hin => absurd (hout.symm.trans hin) (by decide)
  have hplayer : w₁.object pPlayer = { w.object pPlayer with position := pos, bIsMoving := false } :=
    updObject_object_same
  -- the summon goes first, and leaves the player standing out of the world
  have hfirst : ∃ w₂, w₁.warpEndMainSummon cfg pPlayer pos layer noise moving = some w₂ ∧
      Ok cfg w₂ ∧ (w₂.object pPlayer).m_inWorld = false ∧
        (w₂.object pPlayer).bIsMoving = false := by
    unfold RegionMap.warpEndMainSummon
    rw [hplayer]
    cases hs : (w.object pPlayer).m_pMainSummon with
    | none =>
      refine ⟨w₁, rfl, hok₁, ?_, ?_⟩
      · rw [hplayer]
        exact hout
      · rw [hplayer]
    | some s =>
      obtain ⟨hne, hsout⟩ := hsummon s hs
      obtain ⟨w₂, hend, hok₂, hkept⟩ := @Ok.warpEndSummon _ _ _ hok₁ s
        (by rw [hw₁, updObject_object_of_ne hne]; exact hsout) pos layer noise moving
      refine ⟨w₂, hend, hok₂, ?_, ?_⟩
      · rw [(hkept pPlayer hne.symm).1, hplayer]
        exact hout
      · rw [(hkept pPlayer hne.symm).2, hplayer]
  obtain ⟨w₂, hend, hok₂, hout₂, hstill₂⟩ := hfirst
  obtain ⟨w₃, hadd, hok₃, hkept₃⟩ := hok₂.addObjectToWorld hout₂
  rw [hend, Option.bind_some, hadd, Option.bind_some, setMove_still (by rw [hkept₃.moving, hstill₂])]
  exact ⟨_, rfl, hok₃.setMoving _ _⟩

/-! ## The run -/

/-- **Step**: an admissible event has a result and keeps the invariant. -/
theorem Ok.handle (hw : Ok cfg w) {e : Event P} (he : Admissible cfg w e) :
    ∃ w', w.handle cfg e = some w' ∧ Ok cfg w' := by
  cases e with
  | addObjectToWorld h =>
    obtain ⟨w', hrun, hw', -⟩ := hw.addObjectToWorld he
    exact ⟨w', hrun, hw'⟩
  | removeObjectFromWorld h =>
    obtain ⟨w', hrun, hw', -⟩ := hw.removeObjectFromWorld he
    exact ⟨w', hrun, hw'⟩
  | setMultipleMove h curPos moving => exact hw.setMultipleMove he moving
  | setMove h curPos bAbsoluteMove moving => exact hw.setMove he bAbsoluteMove moving
  | moveObject h newPos => exact hw.moveObject he
  | step h newPos moving => exact hw.step he moving
  | warpBegin pPlayer => exact hw.warpBegin pPlayer
  | warpEnd pPlayer pPosition layer noise moving =>
    exact hw.warpEnd he.1 he.2 pPosition layer noise moving
  | place h pos layer =>
    exact ⟨_, rfl, hw.updObject (fun _ => ⟨rfl, rfl, rfl, rfl⟩)
      fun hin => absurd (he.symm.trans hin) (by decide)⟩
  | setMainSummon pPlayer pSummon =>
    exact ⟨_, rfl, hw.updObject (fun _ => ⟨rfl, rfl, rfl, rfl⟩) fun _ => ⟨rfl, rfl⟩⟩

theorem Empty.ok (hw : w.Empty) : Ok cfg w where
  linked := {
    listed := fun r t h => by simp [hw.2, (hw.1 h).2]
    indexed := fun r t i h hi => by simp [hw.2] at hi
    nonneg := fun h r hr => by simp [(hw.1 h).2] at hr
    inWorld := fun h => by rw [(hw.1 h).1, (hw.1 h).2]; rfl }
  located h hin := by rw [(hw.1 h).1] at hin; cases hin

theorem ok_of_run {hist : History (RegionMap P) (Event P)}
    (hrun : (system cfg).RunWhere (fun _ w e => Admissible cfg w e) hist w) : Ok cfg w := by
  refine hrun.invariant (I := fun _ w => Ok cfg w) (fun w (hw : w.Empty) => hw.ok) fun _ w e w' _ hw he hstep => ?_
  obtain ⟨w'', hhandle, hw''⟩ := hw.handle he
  obtain rfl := Option.some.inj (hhandle.symm.trans hstep)
  exact hw''

/-- **Region membership holds along every run whose events are admissible**, and every admissible event
has a result: no `ASSERT` of `Region::addObject` or `Region::removeObject` fails. -/
theorem membership_of_run {hist : History (RegionMap P) (Event P)}
    (hrun : (system cfg).RunWhere (fun _ w e => Admissible cfg w e) hist w) :
    Membership cfg w ∧ ∀ e, Admissible cfg w e → (w.handle cfg e).isSome := by
  have hw := ok_of_run hrun
  refine ⟨hw.membership, fun e he => ?_⟩
  obtain ⟨w', hhandle, -⟩ := hw.handle he
  exact Option.isSome_of_eq_some hhandle

/-! ## A concrete map -/

instance (cfg : MapConfig P) (w : RegionMap P) (h : Nat) (pos : P) : Decidable (CanMove cfg w h pos) :=
  inferInstanceAs (Decidable (_ ∨ _ ∧ _))

instance (cfg : MapConfig P) (w : RegionMap P) : (e : Event P) → Decidable (Admissible cfg w e)
  | .addObjectToWorld h => inferInstanceAs (Decidable ((w.object h).m_inWorld = false))
  | .removeObjectFromWorld h => inferInstanceAs (Decidable ((w.object h).m_inWorld = true))
  | .setMultipleMove h curPos _ => inferInstanceAs (Decidable (CanMove cfg w h curPos))
  | .setMove h curPos _ _ => inferInstanceAs (Decidable ((w.object h).m_inWorld = true →
      (w.object h).bIsMoving = true → CanMove cfg w h curPos))
  | .moveObject h newPos => inferInstanceAs (Decidable (CanMove cfg w h newPos))
  | .step h newPos _ =>
    inferInstanceAs (Decidable ((w.object h).bIsMoving = true → CanMove cfg w h newPos))
  | .warpBegin _ => .isTrue trivial
  | .warpEnd pPlayer _ _ _ _ => inferInstanceAs (Decidable ((w.object pPlayer).m_inWorld = false ∧
      ∀ s ∈ (w.object pPlayer).m_pMainSummon, s ≠ pPlayer ∧ (w.object s).m_inWorld = false))
  | .place h _ _ => inferInstanceAs (Decidable ((w.object h).m_inWorld = false))
  | .setMainSummon _ _ => .isTrue trivial

/-- A map of ten by ten regions of one point each. -/
def plain : MapConfig (Nat × Nat) where
  sRegion := ⟨10, 10, by decide, by decide, by decide, by decide⟩
  region p := ⟨p.1, p.2⟩

/-- A player, its summon, and nobody in the world yet. -/
def vacant : RegionMap (Nat × Nat) where
  object h := ⟨if h = 0 then .OBJ_CLIENT else .OBJ_MOVABLE, (0, 0), 0, false, false, none, -1,
    if h = 0 then some 1 else none⟩
  objects _ _ := []

theorem run_vacant (C : History _ _ → RegionMap (Nat × Nat) → Event (Nat × Nat) → Prop) :
    (system plain).RunWhere C [] vacant :=
  .init ⟨fun _ => ⟨rfl, rfl⟩, fun _ _ => rfl⟩

/-- Three objects enter, one moves and steps into other regions, and a warp takes two of them away. -/
theorem membership_of_run_warp : ∃ hist w,
    (system plain).RunWhere (fun _ w e => Admissible plain w e) hist w ∧ hist.length = 8 ∧
      (w.object 0).m_inWorld = true ∧ Placed plain w 0 := by
  let es : List (Event (Nat × Nat)) := [.addObjectToWorld 0, .addObjectToWorld 1, .addObjectToWorld 2,
    .setMultipleMove 0 (3, 0) true, .step 0 (4, 4) false, .removeObjectFromWorld 2, .warpBegin 0,
    .warpEnd 0 (7, 7) 0 (7, 8) false]
  have hex : ((System.exec (fun _ w e => Admissible plain w e) (handle plain) es [] vacant).map
      fun x => (x.1.length, (x.2.object 0).m_inWorld)) = some (8, true) := by decide +kernel
  obtain ⟨⟨hist, w⟩, hrun, hend⟩ := Option.map_eq_some_iff.mp hex
  obtain ⟨hlen, hin⟩ := Prod.mk.inj hend
  have hr := System.run_exec es (run_vacant _) hrun
  have hmember := (membership_of_run hr).1 0
  rw [if_pos hin] at hmember
  exact ⟨hist, w, hr, hlen, hin, hmember⟩

/-- An object that is added twice: the second time `Region::addObject` stops the server. -/
theorem not_added_twice : ∃ hist w, (system plain).Run hist w ∧
    w.handle plain (.addObjectToWorld 0) = none := by
  have hex : ((System.exec (fun _ _ _ => True) (handle plain) [.addObjectToWorld 0] [] vacant).map
      fun x => (x.2.handle plain (.addObjectToWorld 0)).isNone) = some true := by decide +kernel
  obtain ⟨⟨hist, w⟩, hrun, hend⟩ := Option.map_eq_some_iff.mp hex
  exact ⟨hist, w, System.run_exec _ (run_vacant _) hrun, Option.isNone_iff_eq_none.mp hend⟩

end RZEmulator.Chihiro.RegionMap
