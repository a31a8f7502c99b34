import RZEmulator.Chihiro.StorageRun
import RZEmulator.Chihiro.Wearing

/-!
# Wearing in runs

A player puts items of the inventory on and takes items off. Taking off keeps `WearOk`, and so does putting on at a
position that suits; `putonSound_iff` says in every state of such a run when `Puton` does what it should.
-/

namespace RZEmulator.Chihiro

open Lib

namespace Wearer

open World ItemWearType

variable {s : Wearer} {w' : World} {S : List Nat}

/-- The messages about wearing. The handler of the second looks up what is worn first, inside the array only. -/
inductive WearEvent where
  | puton (p : ItemPtr) (pos : Int)
  | putoff (pos : Fin 24)

def exec (s : Wearer) : WearEvent → Option Wearer
  | .puton p pos => (s.puton p pos).map fun r => s.withWorld r.2
  | .putoff pos => (s.world.putoffItem s.me pos).map fun r => s.withWorld r.2

/-- Items of the inventory are put on with care. -/
def CarefulEvent (s : Wearer) : WearEvent → Prop
  | .puton p pos => p ∈ (s.world.inv (bag s.me)).vList ∧ Careful s p pos
  | .putoff _ => True

def wearSystem : System Wearer WearEvent := .ofFun WearOk exec

theorem withWorld_wearType (hq : Quiet s.world w') (y : ItemPtr) : (s.withWorld w').wearType y = s.wearType y := by
  unfold wearType
  rw [← hq.base]
  rfl

theorem withWorld_group (hq : Quiet s.world w') (y : ItemPtr) : (s.withWorld w').group y = s.group y := by
  unfold group
  rw [← hq.base]
  rfl

/-- Taking off leaves the rest as it was. -/
theorem WearOk.stripped (hok : WearOk s) (hs : Stripped s.world w' s.me S) (hclosed : Closed S) :
    WearOk (s.withWorld w') := by
  have hold : ∀ r y, (w'.players s.me).anWear r = some y → r ∉ S ∧ (s.world.players s.me).anWear r = some y := by
    intro r y hy
    rw [hs.anWear] at hy
    split_ifs at hy with hS
    exact ⟨hS, hy⟩
  have hworn : ∀ a y, (s.withWorld w').worn a = some y → a.toNat ∉ S ∧ s.worn a = some y := fun a y hy => hold a.toNat y hy
  have htype := withWorld_wearType hs.quiet
  have htwo : ∀ y, (s.withWorld w').isTwoHandItem y = s.isTwoHandItem y := by
    intro y
    unfold isTwoHandItem
    rw [htype]
  have hbullet : ∀ y, (s.withWorld w').isBullet y = s.isBullet y := by
    intro y
    unfold isBullet
    rw [withWorld_group hs.quiet]
  have hlist : ((s.withWorld w').world.inv (bag s.me)).vList = (s.world.inv (bag s.me)).vList := hs.quiet.vList _
  refine ⟨fun r y hy => hok.inArray r y (hold r y hy).2, fun r y hy => ?_, fun r y hy => ?_, fun y hy => ?_,
    fun r y hy => ?_, ⟨fun right left hright hleft hhand => ?_, fun ring hring hfinger => ?_, fun deco hdeco => ?_⟩⟩
  · obtain ⟨hS, hy⟩ := hold r y hy
    refine (hs.kept y fun r' hr' hy' => ?_).trans (hok.nWearInfo r y hy)
    have h₁ := hok.nWearInfo r y hy
    have h₂ := hok.nWearInfo r' y hy'
    have hrr : r = r' := by omega
    exact hS (hrr ▸ hr')
  · exact hlist ▸ hok.held r y (hold r y hy).2
  · exact hs.quiet.base y ▸ hok.based y (hlist ▸ hy)
  · rw [htype]
    exact hok.allowed r y (hold r y hy).2
  · rw [htwo] at hhand
    rw [hbullet]
    exact hok.apart.hands right left (hworn _ _ hright).2 (hworn _ _ hleft).2 hhand
  · rw [htype] at hfinger
    have hnone := hok.apart.rings ring (hworn _ _ hring).2 hfinger
    by_contra hsecond
    obtain ⟨second, hsecond⟩ := Option.ne_none_iff_exists'.mp hsecond
    rw [(hworn _ _ hsecond).2] at hnone
    cases hnone
  · obtain ⟨hfree, hdeco⟩ := hworn _ _ hdeco
    obtain ⟨⟨left, hleft, hclass⟩, hhand⟩ := hok.apart.costume deco hdeco
    refine ⟨⟨left, ?_, hclass⟩, fun right hright => ?_⟩
    · have hstays : (1 : Nat) ∉ S := fun hmem => hfree (hclosed hmem)
      exact (hs.anWear 1).trans ((if_neg hstays).trans hleft)
    · rw [htwo]
      exact hhand right (hworn _ _ hright).2

theorem WearOk.putoff (hok : WearOk s) {pos : Fin 24} {r : ResultCode}
    (hrun : s.world.putoffItem s.me pos = some (r, w')) : WearOk (s.withWorld w') := by
  have hpos : pos.val < MAX_SPARE_ITEM_WEAR := pos.isLt.trans (by decide)
  rcases putoffItem_cases hok.basedWorn hpos with ⟨-, h⟩ | ⟨-, h⟩ | ⟨-, w₁, S, h, hs, hclosed, -⟩
  · obtain ⟨rfl, rfl⟩ := Prod.mk.inj (Option.some.inj (h.symm.trans hrun))
    exact hok
  · obtain ⟨rfl, rfl⟩ := Prod.mk.inj (Option.some.inj (h.symm.trans hrun))
    exact hok
  · obtain ⟨rfl, rfl⟩ := Prod.mk.inj (Option.some.inj (h.symm.trans hrun))
    exact hok.stripped hs hclosed

theorem wearOk_of_run {h : History Wearer WearEvent} (hrun : wearSystem.RunWhere (fun _ => CarefulEvent) h s) :
    WearOk s := by
  refine System.RunWhere.invariant (I := fun _ => WearOk) (fun s hs => hs) (fun h s e s' _ hok hcareful hstep => ?_) hrun
  cases e with
  | puton p pos =>
    obtain ⟨hmem, hcareful⟩ := hcareful
    obtain ⟨⟨r, w'⟩, hputon, rfl⟩ := Option.map_eq_some_iff.mp hstep
    exact hok.puton hmem hcareful hputon
  | putoff pos =>
    obtain ⟨⟨r, w'⟩, hputoff, rfl⟩ := Option.map_eq_some_iff.mp hstep
    exact hok.putoff hputoff

/-- **When `Puton` does what it should**: in every state that careful calls lead to. -/
theorem putonSound_iff {h : History Wearer WearEvent} (hrun : wearSystem.RunWhere (fun _ => CarefulEvent) h s) {p : ItemPtr}
    (hmem : p ∈ (s.world.inv (bag s.me)).vList) (pos : Int) : Sound s p pos ↔ Careful s p pos :=
  sound_iff_careful (wearOk_of_run hrun) hmem pos

/-! ## A pair of boots -/

/-- A player with a pair of boots in the inventory and nothing on. -/
def barefoot : Wearer where
  world := { vault with
    items := fun _ =>
      { inst := { OwnerHandle := 1, UID := 1, Code := 7, nIdx := 1, nOwnerUID := 1, nCount := 1 }
        itemBase := some { wearType := 5 }
        handle := 1 } }
  me := 1
  gear _ :=
    { iclass := .other, rank := 1, limit := fun _ => true, use_min_level := 0, use_max_level := 0
      opt_type := fun _ => 0, opt_var := fun _ => 0 }
  level := 1
  m_nUnitExpertLevel := 0
  isJob _ := true
  race := 3
  currentSkillLevel _ := 0

theorem barefoot_ok : WearOk barefoot := by
  have hnone : ∀ q y, (barefoot.world.players barefoot.me).anWear q ≠ some y := fun q y h => by cases h
  exact ⟨fun q y h => absurd h (hnone q y), fun q y h => absurd h (hnone q y), fun q y h => absurd h (hnone q y),
    fun _ _ => rfl, fun q y h => absurd h (hnone q y), fun _ _ h => absurd h (hnone _ _), fun _ h => absurd h (hnone _ _),
    fun _ h => absurd h (hnone _ _)⟩

theorem suits_boots (pos : Int) : Suits barefoot 0 pos ↔ pos = 5 := by
  have htype : barefoot.wearType 0 = 5 := rfl
  unfold Suits
  rw [htype]
  simp

/-- The boots go on the feet. -/
theorem sound_boots : Sound barefoot 0 5 :=
  (putonSound_iff (.init barefoot_ok) (List.mem_singleton.mpr rfl) 5).mpr fun _ _ =>
    ⟨by decide, fun _ => .inr ((suits_boots 5).mpr rfl)⟩

/-- The boots are put on as a helmet. -/
theorem not_sound_boots : ¬∀ s, WearOk s → ∀ p ∈ (s.world.inv (bag s.me)).vList, ∀ pos, Sound s p pos := by
  intro hall
  have hsound := hall barefoot barefoot_ok 0 (List.mem_singleton.mpr rfl) 3
  have hcareful := (sound_iff_careful barefoot_ok (List.mem_singleton.mpr rfl) 3).mp hsound
  rcases (hcareful rfl rfl).2 (by decide +kernel) with ⟨h, -⟩ | h
  · cases h
  · exact absurd ((suits_boots 3).mp h) (by decide)

end Wearer

end RZEmulator.Chihiro
