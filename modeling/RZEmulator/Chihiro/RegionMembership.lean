import RZEmulator.Chihiro.RegionMap

/-!
# Region membership

`Membership` says that an object in the world stands in exactly one list, at the slot its region pointer
and its index name, in the region of its position and layer, and that any other object stands in none.
It has two halves. `Linked` ties the lists to the back pointers and does not speak of positions, so it
survives the moment when an object already has its new position and is still in its old list; `Located`
ties the region pointer to the position.

The functions rely on their callers: an object is added when it is out of the world, removed when it is in
it, and moved within the map. `Admissible` is this contract. In a run that keeps it every event has a
result and `Membership` holds in every state (`membership_of_run`).
-/

namespace RZEmulator.Chihiro.RegionMap

open Lib

variable {P : Type} {cfg : MapConfig P} {w w' : RegionMap P} {h h' : Nat} {r r' : RegionPtr}
  {t : ObjType}

/-! ## Small lemmas -/

section Updates

variable {f : WorldObject P → WorldObject P} {l : List Nat}

@[simp] theorem updObject_object_same : (w.updObject h f).object h = f (w.object h) := if_pos rfl

theorem updObject_object_of_ne (hne : h' ≠ h) : (w.updObject h f).object h' = w.object h' := if_neg hne

@[simp] theorem updObject_objects : (w.updObject h f).objects = w.objects := rfl

@[simp] theorem setList_object : (w.setList r t l).object = w.object := rfl

@[simp] theorem setList_objects_same : (w.setList r t l).objects r t = l := if_pos ⟨rfl, rfl⟩

theorem setList_objects_of_ne {t' : ObjType} (hne : ¬(r' = r ∧ t' = t)) :
    (w.setList r t l).objects r' t' = w.objects r' t' := if_neg hne

@[simp] theorem slot_natCast (l : List Nat) (i : Nat) : slot l (i : Int) = l[i]? := by
  rw [slot, if_pos (Int.natCast_nonneg i), Int.toNat_natCast]

end Updates

/-! ## The lists and the back pointers -/

/-- An object's place in the list of its region. -/
def place (w : RegionMap P) (h : Nat) : Nat := (w.object h).region_index.toNat

/-- The lists hold exactly the objects that point to them, each at its index. -/
structure Linked (w : RegionMap P) : Prop where
  listed : ∀ r t h, h ∈ w.objects r t ↔ (w.object h).pRegion = some r ∧ (w.object h).objType = t
  indexed : ∀ r t, Indexed (w.objects r t) w.place
  nonneg : ∀ h r, (w.object h).pRegion = some r → 0 ≤ (w.object h).region_index
  inWorld : ∀ h, (w.object h).m_inWorld = (w.object h).pRegion.isSome

/-- Objects in the world point to the region of their position and layer. -/
def Located (cfg : MapConfig P) (w : RegionMap P) (h : Nat) : Prop :=
  (w.object h).m_inWorld = true → (w.object h).pRegion = w.getRegion cfg h

/-- What an update leaves of an object: all that the lists depend on. -/
structure SameLink (o o' : WorldObject P) : Prop where
  objType : o'.objType = o.objType
  m_inWorld : o'.m_inWorld = o.m_inWorld
  pRegion : o'.pRegion = o.pRegion
  region_index : o'.region_index = o.region_index

theorem Linked.congr (hw : w.Linked) (hobj : ∀ h, SameLink (w.object h) (w'.object h))
    (hlist : w'.objects = w.objects) : w'.Linked := by
  refine ⟨fun r t h => ?_, fun r t => ?_, fun h r hr => ?_, fun h => ?_⟩
  · rw [hlist, (hobj h).pRegion, (hobj h).objType]
    exact hw.listed r t h
  · rw [hlist]
    refine (hw.indexed r t).congr fun h _ => ?_
    unfold place
    rw [(hobj h).region_index]
  · rw [(hobj h).pRegion] at hr
    rw [(hobj h).region_index]
    exact hw.nonneg h r hr
  · rw [(hobj h).m_inWorld, (hobj h).pRegion]
    exact hw.inWorld h

theorem Linked.updObject (hw : w.Linked) {f : WorldObject P → WorldObject P}
    (hf : ∀ o, SameLink o (f o)) : (w.updObject h f).Linked := by
  refine hw.congr (fun h' => ?_) rfl
  by_cases hne : h' = h
  · subst hne
    rw [updObject_object_same]
    exact hf _
  · rw [updObject_object_of_ne hne]
    exact ⟨rfl, rfl, rfl, rfl⟩

theorem Linked.not_mem (hw : w.Linked) (hout : (w.object h).pRegion = none) (r : RegionPtr)
    (t : ObjType) : h ∉ w.objects r t := by
  intro hmem
  rw [((hw.listed r t h).mp hmem).1] at hout
  cases hout

/-! ## `addObject` and `removeObject` -/

/-- What `addObject` and `removeObject` leave of the map: only the link of the one object changes, and
the places in the list of its region. -/
structure Relinked (w w' : RegionMap P) (h : Nat) : Prop where
  position : ∀ h', (w'.object h').position = (w.object h').position
  layer : ∀ h', (w'.object h').m_nLayer = (w.object h').m_nLayer
  moving : ∀ h', (w'.object h').bIsMoving = (w.object h').bIsMoving
  summon : ∀ h', (w'.object h').m_pMainSummon = (w.object h').m_pMainSummon
  inWorld : ∀ h', h' ≠ h → (w'.object h').m_inWorld = (w.object h').m_inWorld
  pRegion : ∀ h', h' ≠ h → (w'.object h').pRegion = (w.object h').pRegion

theorem Relinked.refl (w : RegionMap P) (h : Nat) : Relinked w w h :=
  ⟨fun _ => rfl, fun _ => rfl, fun _ => rfl, fun _ => rfl, fun _ _ => rfl, fun _ _ => rfl⟩

theorem Relinked.trans {v : RegionMap P} (h₁ : Relinked v w h) (h₂ : Relinked w w' h) :
    Relinked v w' h where
  position h' := (h₂.position h').trans (h₁.position h')
  layer h' := (h₂.layer h').trans (h₁.layer h')
  moving h' := (h₂.moving h').trans (h₁.moving h')
  summon h' := (h₂.summon h').trans (h₁.summon h')
  inWorld h' hne := (h₂.inWorld h' hne).trans (h₁.inWorld h' hne)
  pRegion h' hne := (h₂.pRegion h' hne).trans (h₁.pRegion h' hne)

theorem Relinked.getRegion (hr : Relinked w w' h) (h' : Nat) :
    w'.getRegion cfg h' = w.getRegion cfg h' := by
  unfold RegionMap.getRegion
  rw [hr.position, hr.layer]

theorem Relinked.located (hr : Relinked w w' h) (hne : h' ≠ h) (hl : Located cfg w h') :
    Located cfg w' h' := by
  unfold Located
  rw [hr.inWorld h' hne, hr.pRegion h' hne, hr.getRegion]
  exact hl

/-- An object in no region can be added to any. -/
theorem Linked.addObject (hw : w.Linked) (hout : (w.object h).pRegion = none) (r : RegionPtr) :
    ∃ w', w.addObject r h = some w' ∧ w'.Linked ∧ Relinked w w' h ∧
      (w'.object h).pRegion = some r ∧ (w'.object h).m_inWorld = true := by
  refine ⟨_, if_pos hout, ?_, ?_, by rw [updObject_object_same],
    by rw [updObject_object_same]⟩
  · set w' := (w.setList r (w.object h).objType (w.list r h ++ [h])).updObject h
      ({ · with pRegion := some r, region_index := (w.list r h).length, m_inWorld := true }) with hw'
    have hsame : w'.object h = { w.object h with
        pRegion := some r, region_index := (w.list r h).length, m_inWorld := true } := by
      rw [hw', updObject_object_same]
      rfl
    have hother : ∀ h', h' ≠ h → w'.object h' = w.object h' := fun h' hne => by
      rw [hw', updObject_object_of_ne hne]
      rfl
    have hlist : w'.objects r (w.object h).objType = w.list r h ++ [h] := by
      rw [hw', updObject_objects, setList_objects_same]
    have hlists : ∀ r' t', ¬(r' = r ∧ t' = (w.object h).objType) → w'.objects r' t' = w.objects r' t' :=
      fun r' t' hne => by rw [hw', updObject_objects, setList_objects_of_ne hne]
    have hplace : ∀ r' t', ∀ b ∈ w.objects r' t', w'.place b = w.place b := by
      intro r' t' b hb
      have hne : b ≠ h := fun he => hw.not_mem hout r' t' (he ▸ hb)
      unfold place
      rw [hother b hne]
    refine ⟨fun r' t' h' => ?_, fun r' t' => ?_, fun h' r' hr' => ?_, fun h' => ?_⟩
    · by_cases hne : h' = h
      · subst hne
        rw [hsame]
        by_cases hl : r' = r ∧ t' = (w.object h').objType
        · obtain ⟨rfl, rfl⟩ := hl
          rw [hlist]
          simp
        · rw [hlists r' t' hl]
          refine iff_of_false (hw.not_mem hout r' t') fun hp => hl ⟨?_, hp.2.symm⟩
          exact (Option.some.inj hp.1).symm
      · rw [hother h' hne, ← hw.listed]
        by_cases hl : r' = r ∧ t' = (w.object h).objType
        · obtain ⟨rfl, rfl⟩ := hl
          rw [hlist]
          simp [hne, RegionMap.list]
        · rw [hlists r' t' hl]
    · by_cases hl : r' = r ∧ t' = (w.object h).objType
      · obtain ⟨rfl, rfl⟩ := hl
        rw [hlist]
        refine (hw.indexed _ _).concat (hplace _ _) ?_
        unfold place
        rw [hsame, Int.toNat_natCast]
        rfl
      · rw [hlists r' t' hl]
        exact (hw.indexed r' t').congr (hplace r' t')
    · by_cases hne : h' = h
      · subst hne
        rw [hsame]
        exact Int.natCast_nonneg _
      · rw [hother h' hne] at hr' ⊢
        exact hw.nonneg h' r' hr'
    · by_cases hne : h' = h
      · subst hne
        rw [hsame]
        rfl
      · rw [hother h' hne]
        exact hw.inWorld h'
  · constructor
    all_goals
      intro h'
      by_cases hne : h' = h
      · subst hne
        simp
      · simp [updObject_object_of_ne hne]

/-- What `removeObject` does, `lbo` being the last object of the list. -/
structure Removed (w w' : RegionMap P) (r : RegionPtr) (h lbo : Nat) : Prop where
  same : w'.object h =
    { w.object h with region_index := -1, pRegion := none, m_inWorld := false }
  last : lbo ≠ h → w'.object lbo =
    { w.object lbo with region_index := (w.object h).region_index }
  other : ∀ h', h' ≠ h → h' ≠ lbo → w'.object h' = w.object h'
  list : w'.objects r (w.object h).objType = swapRemove (w.list r h) (w.place h)
  lists : ∀ r' t', ¬(r' = r ∧ t' = (w.object h).objType) → w'.objects r' t' = w.objects r' t'

/-- An object can be removed from its region. -/
theorem Linked.removeObject (hw : w.Linked) (hin : (w.object h).pRegion = some r) :
    ∃ w' lbo, w.removeObject r h = some w' ∧ (w.list r h).getLast? = some lbo ∧
      Removed w w' r h lbo := by
  have hmem : h ∈ w.list r h := (hw.listed r _ h).mpr ⟨hin, rfl⟩
  obtain ⟨lbo, hlast⟩ := Option.isSome_iff_exists.mp
    (List.getLast?_isSome.mpr (List.ne_nil_of_mem hmem))
  have hplace : (w.list r h)[w.place h]? = some h := (hw.indexed r _).getElem? hmem
  have hslot : slot (w.list r h) (w.object h).region_index = some h := by
    rw [slot, if_pos (hw.nonneg h r hin)]
    exact hplace
  unfold RegionMap.removeObject
  dsimp only
  rw [hlast]
  dsimp only
  rw [if_pos ⟨hslot, hin⟩]
  refine ⟨_, lbo, rfl, rfl, ?_⟩
  have hswap : swapRemove (w.list r h) (w.place h) =
      ((w.list r h).set (w.place h) lbo).dropLast := by
    rw [swapRemove, hlast]
  by_cases hne : lbo ≠ h
  · rw [if_pos hne]
    refine ⟨?_, fun _ => ?_, fun h' hh hl => ?_, ?_, fun r' t' hn => ?_⟩
    · simp [updObject_object_of_ne hne.symm]
    · rw [updObject_object_of_ne hne]
      simp
    · rw [updObject_object_of_ne hh, setList_object, updObject_object_of_ne hl, setList_object]
    · have hmoved : ((w.setList r (w.object h).objType
          ((w.list r h).set (w.object h).region_index.toNat lbo)).updObject lbo
            ({ · with region_index := (w.object h).region_index })).list r h =
          (w.list r h).set (w.place h) lbo := by
        unfold RegionMap.list
        rw [updObject_object_of_ne hne.symm, setList_object, updObject_objects, setList_objects_same]
        rfl
      rw [updObject_objects, setList_objects_same, hmoved, hswap]
    · rw [updObject_objects, setList_objects_of_ne hn, updObject_objects, setList_objects_of_ne hn]
  · rw [if_neg hne]
    obtain rfl := not_not.mp hne
    have hset : (w.list r lbo).set (w.place lbo) lbo = w.list r lbo := by
      obtain ⟨hlt, heq⟩ := List.getElem?_eq_some_iff.mp hplace
      calc (w.list r lbo).set (w.place lbo) lbo
          = (w.list r lbo).set (w.place lbo) (w.list r lbo)[w.place lbo] := by rw [heq]
        _ = w.list r lbo := List.set_getElem_self hlt
    refine ⟨?_, fun hc => absurd rfl hc, fun h' hh _ => ?_, ?_, fun r' t' hn => ?_⟩
    · rw [updObject_object_same, setList_object]
    · rw [updObject_object_of_ne hh, setList_object]
    · rw [updObject_objects, setList_objects_same, hswap, hset]
    · rw [updObject_objects, setList_objects_of_ne hn]

theorem Removed.object_fields {lbo : Nat} (hr : Removed w w' r h lbo) (hne : h' ≠ h) :
    ∃ i, w'.object h' = { w.object h' with region_index := i } := by
  by_cases hl : h' = lbo
  · subst hl
    exact ⟨_, hr.last hne⟩
  · exact ⟨_, hr.other h' hne hl⟩

theorem Removed.relinked {lbo : Nat} (hr : Removed w w' r h lbo) : Relinked w w' h := by
  constructor
  all_goals
    intro h'
    by_cases hne : h' = h
    · subst hne
      simp [hr.same]
    · obtain ⟨i, hi⟩ := hr.object_fields hne
      simp [hi]

theorem Removed.linked {lbo : Nat} (hw : w.Linked) (hin : (w.object h).pRegion = some r)
    (hlast : (w.list r h).getLast? = some lbo) (hr : Removed w w' r h lbo) : w'.Linked := by
  have hmem : h ∈ w.list r h := (hw.listed r _ h).mpr ⟨hin, rfl⟩
  have hlbo : lbo ∈ w.list r h := List.mem_of_getLast? hlast
  refine ⟨fun r' t' h' => ?_, fun r' t' => ?_, fun h' r' hr' => ?_, fun h' => ?_⟩
  · by_cases hne : h' = h
    · subst hne
      rw [hr.same]
      refine iff_of_false (fun hc => ?_) fun hc => nomatch hc.1
      by_cases hl : r' = r ∧ t' = (w.object h').objType
      · obtain ⟨rfl, rfl⟩ := hl
        rw [hr.list] at hc
        exact ((hw.indexed _ _).mem_swapRemove hmem |>.mp hc).2 rfl
      · rw [hr.lists r' t' hl] at hc
        obtain ⟨hp, ht⟩ := (hw.listed r' t' h').mp hc
        exact hl ⟨Option.some.inj (hp.symm.trans hin), ht.symm⟩
    · obtain ⟨i, hi⟩ := hr.object_fields hne
      rw [hi, ← hw.listed]
      by_cases hl : r' = r ∧ t' = (w.object h).objType
      · obtain ⟨rfl, rfl⟩ := hl
        rw [hr.list]
        exact ((hw.indexed _ _).mem_swapRemove hmem).trans (and_iff_left hne)
      · rw [hr.lists r' t' hl]
  · by_cases hl : r' = r ∧ t' = (w.object h).objType
    · obtain ⟨rfl, rfl⟩ := hl
      rw [hr.list]
      refine (hw.indexed _ _).swapRemove hmem hlast (fun hne => ?_) fun b _ hb hbh => ?_
      · unfold place
        rw [hr.last hne]
      · unfold place
        rw [hr.other b hbh hb]
    · -- neither the removed object nor the one moved into its place stands in another list
      rw [hr.lists r' t' hl]
      refine (hw.indexed r' t').congr fun b hb => ?_
      have hother : ∀ x, x ∈ w.list r h → b ≠ x := by
        rintro x hx rfl
        obtain ⟨hp, ht⟩ := (hw.listed r' t' b).mp hb
        obtain ⟨hp', ht'⟩ := (hw.listed r _ b).mp hx
        exact hl ⟨Option.some.inj (hp.symm.trans hp'), ht.symm.trans ht'⟩
      unfold place
      rw [hr.other b (hother h hmem) (hother lbo hlbo)]
  · by_cases hne : h' = h
    · subst hne
      rw [hr.same] at hr'
      cases hr'
    · by_cases hl : h' = lbo
      · subst hl
        rw [hr.last hne]
        exact hw.nonneg h r hin
      · rw [hr.other h' hne hl] at hr' ⊢
        exact hw.nonneg h' r' hr'
  · by_cases hne : h' = h
    · subst hne
      rw [hr.same]
      rfl
    · obtain ⟨i, hi⟩ := hr.object_fields hne
      rw [hi]
      exact hw.inWorld h'

/-! ## The world -/

/-- The invariant: lists and back pointers agree, and objects point to the region they are in. -/
structure Ok (cfg : MapConfig P) (w : RegionMap P) : Prop where
  linked : w.Linked
  located : ∀ h, Located cfg w h

theorem Ok.pRegion_of_out (hw : Ok cfg w) (hout : (w.object h).m_inWorld = false) :
    (w.object h).pRegion = none := by
  have h := hw.linked.inWorld h
  rw [hout] at h
  exact Option.not_isSome_iff_eq_none.mp (by rw [← h]; decide)

theorem Ok.pRegion_of_in (hw : Ok cfg w) (hin : (w.object h).m_inWorld = true) :
    ∃ r, (w.object h).pRegion = some r ∧ w.getRegion cfg h = some r := by
  have hsome := hw.linked.inWorld h
  rw [hin] at hsome
  obtain ⟨r, hr⟩ := Option.isSome_iff_exists.mp hsome.symm
  exact ⟨r, hr, (hw.located h hin).symm.trans hr⟩

/-- An update of one object that leaves its link and keeps it in its region if it is in the world. -/
theorem Ok.updObject (hw : Ok cfg w) {f : WorldObject P → WorldObject P} (hf : ∀ o, SameLink o (f o))
    (hstay : (w.object h).m_inWorld = true →
      cfg.region (f (w.object h)).position = cfg.region (w.object h).position ∧
        (f (w.object h)).m_nLayer = (w.object h).m_nLayer) : Ok cfg (w.updObject h f) := by
  refine ⟨hw.linked.updObject hf, fun h' hin => ?_⟩
  unfold RegionMap.getRegion
  by_cases hne : h' = h
  · subst hne
    rw [updObject_object_same] at hin ⊢
    rw [(hf _).m_inWorld] at hin
    obtain ⟨hpos, hlayer⟩ := hstay hin
    rw [hpos, hlayer, (hf _).pRegion]
    exact hw.located h' hin
  · rw [updObject_object_of_ne hne] at hin ⊢
    exact hw.located h' hin

theorem Ok.addObjectToWorld (hw : Ok cfg w) (hout : (w.object h).m_inWorld = false) :
    ∃ w', w.addObjectToWorld cfg h = some w' ∧ Ok cfg w' ∧ Relinked w w' h := by
  unfold RegionMap.addObjectToWorld
  cases hr : w.getRegion cfg h with
  | none => exact ⟨w, rfl, hw, .refl w h⟩
  | some r =>
    obtain ⟨w', hadd, hlinked, hkept, hpr, -⟩ := hw.linked.addObject (hw.pRegion_of_out hout) r
    refine ⟨w', hadd, ⟨hlinked, fun h' hin => ?_⟩, hkept⟩
    by_cases hne : h' = h
    · subst hne
      rw [hpr, hkept.getRegion, hr]
    · exact hkept.located hne (hw.located h') hin

theorem Ok.removeObjectFromWorld (hw : Ok cfg w) (hin : (w.object h).m_inWorld = true) :
    ∃ w', w.removeObjectFromWorld cfg h = some w' ∧ Ok cfg w' ∧ Relinked w w' h := by
  obtain ⟨r, hpr, hr⟩ := hw.pRegion_of_in hin
  obtain ⟨w', lbo, hremove, hlast, hremoved⟩ := hw.linked.removeObject hpr
  refine ⟨w', ?_, ⟨hremoved.linked hw.linked hpr hlast, fun h' hin' => ?_⟩, hremoved.relinked⟩
  · unfold RegionMap.removeObjectFromWorld
    rw [hr]
    exact hremove
  · by_cases hne : h' = h
    · subst hne
      rw [hremoved.same] at hin'
      cases hin'
    · exact hremoved.relinked.located hne (hw.located h') hin'

/-- The object may move to the position: it stays in its region, or it is in the world and goes to a
region of the map. -/
def CanMove (cfg : MapConfig P) (w : RegionMap P) (h : Nat) (pos : P) : Prop :=
  cfg.region (w.object h).position = cfg.region pos ∨
    (w.object h).m_inWorld = true ∧ cfg.sRegion.IsValidRegion (cfg.region pos)

/-- An object gets a new position, and then the world is told. Between the two only `Linked` holds. -/
theorem Ok.onMoveObject (hw : Ok cfg w) {f : WorldObject P → WorldObject P}
    (hf : ∀ o, SameLink o (f o)) (hlayer : (f (w.object h)).m_nLayer = (w.object h).m_nLayer)
    (hmove : CanMove cfg w h (f (w.object h)).position) :
    ∃ w', (w.updObject h f).onMoveObject cfg h (w.object h).position (f (w.object h)).position =
      some w' ∧ Ok cfg w' := by
  unfold RegionMap.onMoveObject
  by_cases hregion : cfg.region (w.object h).position = cfg.region (f (w.object h)).position
  · rw [if_neg (not_not.mpr hregion)]
    exact ⟨_, rfl, hw.updObject hf fun _ => ⟨hregion.symm, hlayer⟩⟩
  rw [if_pos hregion]
  obtain ⟨hin, hvalid⟩ := hmove.resolve_left hregion
  obtain ⟨r, hpr, hr⟩ := hw.pRegion_of_in hin
  have hold : cfg.sRegion.getRegion (cfg.region (w.object h).position)
      ((w.updObject h f).object h).m_nLayer = some r := by
    rw [updObject_object_same, hlayer]
    exact hr
  have hlinked := hw.linked.updObject (h := h) hf
  have hpr' : ((w.updObject h f).object h).pRegion = some r := by
    rw [updObject_object_same, (hf _).pRegion]
    exact hpr
  obtain ⟨w₁, lbo, hremove, hlast, hremoved⟩ := hlinked.removeObject hpr'
  have hlinked₁ := hremoved.linked hlinked hpr' hlast
  have hkept₁ := hremoved.relinked
  have hnew : w₁.getRegion cfg h =
      some (cfg.sRegion.regionAt (cfg.region (f (w.object h)).position) (w.object h).m_nLayer) := by
    rw [hkept₁.getRegion]
    unfold RegionMap.getRegion RegionContainer.getRegion
    rw [updObject_object_same, hlayer, if_pos hvalid]
  have hout : (w₁.object h).pRegion = none := by rw [hremoved.same]
  obtain ⟨w₂, hadd, hlinked₂, hkept₂, hpr₂, -⟩ := hlinked₁.addObject hout
    (cfg.sRegion.regionAt (cfg.region (f (w.object h)).position) (w.object h).m_nLayer)
  refine ⟨w₂, ?_, hlinked₂, fun h' hin' => ?_⟩
  · rw [hold, Option.bind_some, hremove, Option.bind_some, hnew, Option.bind_some]
    exact hadd
  · by_cases hne : h' = h
    · subst hne
      rw [hpr₂, hkept₂.getRegion, hnew]
    · refine hkept₂.located hne (hkept₁.located hne ?_) hin'
      unfold Located RegionMap.getRegion
      rw [updObject_object_of_ne hne]
      exact hw.located h'

end RZEmulator.Chihiro.RegionMap
