import RZEmulator.Chihiro.WearPosition

/-!
# What taking off and putting on change

Taking an item off clears its slot and the slots that depend on it, and writes "worn nowhere" into the items that
were there (`Stripped`); nothing else is worn otherwise than before. Who takes off what is in the left hand takes
off its costume as well (`Closed`).
-/

namespace RZEmulator.Chihiro

namespace World

open ItemWearType

variable {w w₁ w' : World} {h : Handle} {pos : Nat} {item : ItemPtr} {S T : List Nat}

/-- The slots of `S` have been cleared. -/
structure Stripped (w w' : World) (h : Handle) (S : List Nat) : Prop where
  quiet : Quiet w w'
  anWear : ∀ q, (w'.players h).anWear q = if q ∈ S then none else (w.players h).anWear q
  off : ∀ q ∈ S, ∀ y, (w.players h).anWear q = some y → (w'.items y).inst.nWearInfo = WEAR_NONE
  kept : ∀ y, (∀ q ∈ S, (w.players h).anWear q ≠ some y) → (w'.items y).inst.nWearInfo = (w.items y).inst.nWearInfo

/-- The costume over the left hand goes with what it covers. -/
def Closed (S : List Nat) : Prop := 1 ∈ S → 15 ∈ S

theorem Closed.append (hS : Closed S) (hT : Closed T) : Closed (S ++ T) := by
  intro h
  rcases List.mem_append.mp h with h | h
  · exact List.mem_append_left _ (hS h)
  · exact List.mem_append_right _ (hT h)

theorem Stripped.refl (w : World) (h : Handle) : Stripped w w h [] where
  quiet := .refl w
  anWear _ := (if_neg List.not_mem_nil).symm
  off _ hq := absurd hq List.not_mem_nil
  kept _ _ := rfl

/-- Clearing a slot that is empty changes nothing. -/
theorem Stripped.of_empty (hslot : (w.players h).anWear pos = none) : Stripped w w h [pos] where
  quiet := .refl w
  anWear _ := by
    split_ifs with hq
    · rw [List.mem_singleton.mp hq, hslot]
    · rfl
  off _ hq y hy := by
    rw [List.mem_singleton.mp hq, hslot] at hy
    cases hy
  kept _ _ := rfl

theorem Stripped.trans (h₁ : Stripped w w₁ h S) (h₂ : Stripped w₁ w' h T) : Stripped w w' h (S ++ T) where
  quiet := h₁.quiet.trans h₂.quiet
  anWear q := by
    rw [h₂.anWear, h₁.anWear]
    by_cases hT : q ∈ T
    · rw [if_pos hT, if_pos (List.mem_append_right S hT)]
    · rw [if_neg hT]
      by_cases hS : q ∈ S
      · rw [if_pos hS, if_pos (List.mem_append_left T hS)]
      · rw [if_neg hS, if_neg fun h => (List.mem_append.mp h).elim hS hT]
  off q hq y hy := by
    by_cases hlater : ∃ q ∈ T, (w₁.players h).anWear q = some y
    · obtain ⟨r, hr, hry⟩ := hlater
      exact h₂.off r hr y hry
    · rw [h₂.kept y fun r hr hry => hlater ⟨r, hr, hry⟩]
      by_cases hS : q ∈ S
      · exact h₁.off q hS y hy
      · refine absurd ⟨q, (List.mem_append.mp hq).resolve_left hS, ?_⟩ hlater
        rw [h₁.anWear, if_neg hS]
        exact hy
  kept y hy := by
    rw [h₂.kept y fun q hq hqy => ?_]
    · exact h₁.kept y fun q hq => hy q (List.mem_append_left T hq)
    · rw [h₁.anWear] at hqy
      split_ifs at hqy
      exact hy q (List.mem_append_right S hq) hqy

/-- What is worn has a template. -/
def Based (w : World) (h : Handle) : Prop := ∀ q y, (w.players h).anWear q = some y → (w.items y).itemBase.isSome

theorem Based.stripped (hb : Based w h) (hs : Stripped w w' h S) : Based w' h := by
  intro q y hy
  rw [hs.anWear] at hy
  split_ifs at hy
  rw [hs.quiet.base]
  exact hb q y hy

/-- One slot. -/
theorem putoffSlot_stripped (hslot : (w.players h).anWear pos = some item) (hpos : pos < MAX_SPARE_ITEM_WEAR)
    (hbase : (w.items item).itemBase.isSome) : ∃ w', w.putoffSlot h pos item = some w' ∧ Stripped w w' h [pos] := by
  obtain ⟨base, hb⟩ := Option.isSome_iff_exists.mp hbase
  have hoff : w.unitPutoffItem h pos = some
      ((w.updItem item fun i => (i.setWearInfo WEAR_NONE).clearBindTarget).updPlayer h (·.setWear pos none)) := by
    unfold unitPutoffItem
    rw [if_pos hpos, hslot]
    rfl
  have hweight : (((w.updItem item fun i => (i.setWearInfo WEAR_NONE).clearBindTarget).updPlayer h
      (·.setWear pos none)).items item).getWeight = some ((w.items item).lot.weight) := by
    refine Item.getWeight_eq_some.mpr ⟨?_, ?_⟩
    · simp [Item.setWearInfo, Item.clearBindTarget, hb]
    · simp [Item.lot, Item.stack, Item.setWearInfo, Item.clearBindTarget]
  have hrun : ∃ w', w.putoffSlot h pos item = some w' := by
    unfold putoffSlot
    simp only [hoff, hweight, Option.bind_eq_bind, Option.bind_some]
    exact ⟨_, rfl⟩
  obtain ⟨w', hw'⟩ := hrun
  refine ⟨w', hw', ?_⟩
  have hquiet := putoffSlot_quiet hw'
  unfold putoffSlot at hw'
  simp only [hoff, hweight, Option.bind_eq_bind, Option.bind_some, Option.pure_def, Option.some.injEq] at hw'
  have hwear : ∀ q, (w'.players h).anWear q = if q = pos then none else (w.players h).anWear q := by
    intro q
    rw [← hw']
    simp [updateWeightWithInventory, Player.setWear]
  have hitems : ∀ y, (w'.items y).inst.nWearInfo = if y = item then WEAR_NONE else (w.items y).inst.nWearInfo := by
    intro y
    rw [← hw']
    simp only [updateWeightWithInventory, updPlayer_items, updInv_items, updItem_items]
    split_ifs <;> rfl
  refine ⟨hquiet, fun q => ?_, fun q hq y hy => ?_, fun y hy => ?_⟩
  · rw [hwear]
    exact if_congr List.mem_singleton.symm rfl rfl
  · rw [List.mem_singleton.mp hq, hslot] at hy
    rw [hitems, if_pos (Option.some.inj hy).symm]
  · have hne : y ≠ item := fun heq => hy pos List.mem_cons_self (heq ▸ hslot)
    rw [hitems, if_neg hne]

theorem putoffDecoShield_stripped (hb : Based w h) :
    ∃ w', w.putoffDecoShield h = some w' ∧ Stripped w w' h [15] := by
  unfold putoffDecoShield
  cases hslot : (w.players h).anWear WEAR_DECO_SHIELD with
  | none => exact ⟨w, rfl, .of_empty hslot⟩
  | some item => exact putoffSlot_stripped hslot (by decide) (hb _ _ hslot)

theorem leaveDoubleWeapon_stripped (w : World) (h : Handle) (base : ItemTemplate) :
    Stripped w (w.leaveDoubleWeapon h base) h [] := by
  have hwear : ∀ q, ((w.leaveDoubleWeapon h base).players h).anWear q = (w.players h).anWear q := by
    intro q
    unfold leaveDoubleWeapon
    split_ifs
    · rw [updPlayer_players_same]
    · rfl
  have hitems : (w.leaveDoubleWeapon h base).items = w.items := by
    unfold leaveDoubleWeapon
    split_ifs <;> rfl
  refine ⟨leaveDoubleWeapon_quiet w h base, fun q => ?_, fun q hq => absurd hq List.not_mem_nil, fun y _ => ?_⟩
  · rw [hwear, if_neg List.not_mem_nil]
  · rw [hitems]

/-- What has to come off before the left hand. -/
theorem putoffLeft_stripped (hb : Based w h) (base : ItemTemplate) :
    ∃ w', (w.leaveDoubleWeapon h base).putoffDecoShield h = some w' ∧ Stripped w w' h [15] := by
  have hleave := leaveDoubleWeapon_stripped w h base
  obtain ⟨w', hw', hs⟩ := putoffDecoShield_stripped (hb.stripped hleave)
  exact ⟨w', hw', hleave.trans hs⟩

theorem putoffShield_stripped (hb : Based w h) : ∃ w' S, w.putoffShield h = some w' ∧ Stripped w w' h S ∧
    Closed S ∧ ∀ q ∈ S, q = 1 ∨ q = 15 := by
  unfold putoffShield
  cases hslot : (w.players h).anWear WEAR_SHIELD with
  | none => exact ⟨w, [], rfl, .refl w h, fun hmem => absurd hmem List.not_mem_nil, fun q hq => absurd hq List.not_mem_nil⟩
  | some item =>
    obtain ⟨base, hbase⟩ := Option.isSome_iff_exists.mp (hb _ _ hslot)
    obtain ⟨w₁, hw₁, hs₁⟩ := putoffLeft_stripped hb base
    have hslot₁ : (w₁.players h).anWear WEAR_SHIELD = some item := by
      rw [hs₁.anWear, if_neg (by decide)]
      exact hslot
    obtain ⟨w₂, hw₂, hs₂⟩ := putoffSlot_stripped hslot₁ (by decide) ((hb.stripped hs₁) _ _ hslot₁)
    refine ⟨w₂, [15] ++ [1], ?_, hs₁.trans hs₂, fun _ => by decide, by decide⟩
    simp only [hbase, Option.bind_eq_bind, Option.bind_some, hw₁, hw₂]

/-- What has to come off before a slot is not that slot. -/
theorem putoffDependents_stripped (hb : Based w h) (hslot : (w.players h).anWear pos = some item) :
    ∃ w' S, w.putoffDependents h pos item = some w' ∧ Stripped w w' h S ∧ Closed S ∧
      (∀ q ∈ S, q ≠ pos ∧ (q = 15 ∨ q = 1 ∧ pos = 0)) ∧ (pos = 1 → 15 ∈ S) := by
  unfold putoffDependents
  split_ifs with hshield hweapon hdouble hdeco
  · obtain ⟨base, hbase⟩ := Option.isSome_iff_exists.mp (hb _ _ hslot)
    obtain ⟨w₁, hw₁, hs₁⟩ := putoffLeft_stripped hb base
    refine ⟨w₁, [15], ?_, hs₁, fun hmem => absurd hmem (by decide), ?_, fun _ => List.mem_cons_self⟩
    · simp only [hbase, Option.bind_eq_bind, Option.bind_some, hw₁]
    · rw [hshield]
      decide
  · obtain ⟨w₁, S, hw₁, hs₁, hclosed, hS⟩ := putoffShield_stripped hb
    obtain ⟨w₂, hw₂, hs₂⟩ := putoffDecoShield_stripped (hb.stripped hs₁)
    refine ⟨w₂, S ++ [15], ?_, hs₁.trans hs₂, hclosed.append fun hmem => absurd hmem (by decide), ?_, ?_⟩
    · rw [hw₁, Option.bind_some, hw₂]
    · intro q hq
      rw [hweapon]
      rcases List.mem_append.mp hq with hq | hq
      · rcases hS q hq with rfl | rfl
        · exact ⟨by decide, .inr ⟨rfl, rfl⟩⟩
        · exact ⟨by decide, .inl rfl⟩
      · rw [List.mem_singleton.mp hq]
        exact ⟨by decide, .inl rfl⟩
    · rw [hweapon]
      exact fun heq => absurd heq (by decide)
  · obtain ⟨w₂, hw₂, hs₂⟩ := putoffDecoShield_stripped hb
    refine ⟨w₂, [15], ?_, hs₂, fun hmem => absurd hmem (by decide), ?_, ?_⟩
    · rw [Option.bind_some, hw₂]
    · rw [hweapon]
      decide
    · rw [hweapon]
      exact fun heq => absurd heq (by decide)
  · obtain ⟨w₂, hw₂, hs₂⟩ := putoffDecoShield_stripped hb
    refine ⟨w₂, [15], hw₂, hs₂, fun hmem => absurd hmem (by decide), ?_, ?_⟩
    · rw [hdeco.1]
      decide
    · rw [hdeco.1]
      exact fun heq => absurd heq (by decide)
  · refine ⟨w, [], rfl, .refl w h, fun hmem => absurd hmem List.not_mem_nil, fun q hq => absurd hq List.not_mem_nil, ?_⟩
    exact fun heq => absurd heq hshield

/-- An armulet that a player in chaos cannot take off. -/
def Locked (w : World) (h : Handle) (pos : Nat) : Prop :=
  pos = WEAR_ARMULET ∧ (w.players h).nChaos ≠ 0 ∧ ((w.players h).anWear pos).isSome

/-- **What `putoffItem` does**: an empty slot and a locked one stay as they are. -/
theorem putoffItem_cases (hb : Based w h) (hpos : pos < MAX_SPARE_ITEM_WEAR) :
    ((w.players h).anWear pos = none ∧ w.putoffItem h pos = some (.notExist, w)) ∨
    (Locked w h pos ∧ w.putoffItem h pos = some (.accessDenied, w)) ∨
    (¬Locked w h pos ∧ ∃ w' S, w.putoffItem h pos = some (.success, w') ∧ Stripped w w' h S ∧ Closed S ∧ pos ∈ S ∧
      ∀ q ∈ S, q = pos ∨ q = 15 ∨ q = 1 ∧ pos = 0) := by
  unfold putoffItem
  cases hslot : (w.players h).anWear pos with
  | none => exact .inl ⟨rfl, rfl⟩
  | some item =>
    refine .inr ?_
    dsimp only
    by_cases hlock : pos = WEAR_ARMULET ∧ (w.players h).nChaos ≠ 0
    · refine .inl ⟨⟨hlock.1, hlock.2, ?_⟩, if_pos hlock⟩
      rw [hslot]
      rfl
    · refine .inr ⟨fun hl => hlock ⟨hl.1, hl.2.1⟩, ?_⟩
      rw [if_neg hlock]
      obtain ⟨w₁, S, hw₁, hs₁, hclosed, hS, hleft⟩ := putoffDependents_stripped hb hslot
      have hslot₁ : (w₁.players h).anWear pos = some item := by
        rw [hs₁.anWear, if_neg fun hmem => (hS pos hmem).1 rfl]
        exact hslot
      obtain ⟨w₂, hw₂, hs₂⟩ := putoffSlot_stripped hslot₁ hpos ((hb.stripped hs₁) _ _ hslot₁)
      refine ⟨w₂, S ++ [pos], ?_, hs₁.trans hs₂, ?_, List.mem_append_right S List.mem_cons_self, ?_⟩
      · simp only [hw₁, hw₂, Option.bind_eq_bind, Option.bind_some, Option.pure_def]
      · intro hmem
        rcases List.mem_append.mp hmem with hmem | hmem
        · exact List.mem_append_left _ (hclosed hmem)
        · exact List.mem_append_left _ (hleft (List.mem_singleton.mp hmem).symm)
      · intro q hq
        rcases List.mem_append.mp hq with hq | hq
        · exact .inr (hS q hq).2
        · exact .inl (List.mem_singleton.mp hq)

/-! ## Clearing several slots -/

theorem Locked.of_stripped {q : Nat} (hs : Stripped w w' h S) (hl : Locked w' h q) : Locked w h q := by
  obtain ⟨hq, hchaos, hsome⟩ := hl
  have hsame : (w'.players h).nChaos = (w.players h).nChaos := congrArg Player.Persona.nChaos (hs.quiet.persona h)
  refine ⟨hq, hsame ▸ hchaos, ?_⟩
  rw [hs.anWear] at hsome
  split_ifs at hsome
  · cases hsome
  · exact hsome

/-- A locked slot ends the loop at once. -/
theorem clearAll_locked (hb : Based w h) {q : Int} (hq : q.toNat < MAX_SPARE_ITEM_WEAR) (hl : Locked w h q.toNat)
    (qs : List Int) : Wearer.clearAll h (q :: qs) w = some (false, w) := by
  have hne : (w.players h).anWear q.toNat ≠ none := fun hnone => by
    have hsome := hl.2.2
    rw [hnone] at hsome
    cases hsome
  unfold Wearer.clearAll
  rcases putoffItem_cases hb hq with ⟨hnone, -⟩ | ⟨-, hrun⟩ | ⟨hfree, -⟩
  · exact absurd hnone hne
  · rw [hrun, Option.bind_some, if_neg hne]
  · exact absurd hl hfree

/-- **The loop over the overlapping slots**, when none of them is locked. -/
theorem clearAll_stripped (hb : Based w h) {l : List Int} (hrange : ∀ a ∈ l, a.toNat < MAX_SPARE_ITEM_WEAR)
    (hfree : ∀ a ∈ l, ¬Locked w h a.toNat) : ∃ w' S, Wearer.clearAll h l w = some (true, w') ∧ Stripped w w' h S ∧
      Closed S ∧ (∀ a ∈ l, (w'.players h).anWear a.toNat = none) ∧
      ∀ q ∈ S, (∃ a ∈ l, q = a.toNat) ∨ q = 15 ∨ q = 1 ∧ ∃ a ∈ l, a.toNat = 0 := by
  induction l generalizing w with
  | nil =>
    exact ⟨w, [], rfl, .refl w h, fun hmem => absurd hmem List.not_mem_nil, fun a ha => absurd ha List.not_mem_nil,
      fun q hq => absurd hq List.not_mem_nil⟩
  | cons a l ih =>
    have htail : ∀ b ∈ l, b.toNat < MAX_SPARE_ITEM_WEAR := fun b hmem => hrange b (List.mem_cons_of_mem a hmem)
    have hstep : ∃ r w₁ S, w.putoffItem h a.toNat = some (r, w₁) ∧ Stripped w w₁ h S ∧ Closed S ∧
        (w₁.players h).anWear a.toNat = none ∧ ∀ q ∈ S, q = a.toNat ∨ q = 15 ∨ q = 1 ∧ a.toNat = 0 := by
      rcases putoffItem_cases hb (hrange a List.mem_cons_self) with ⟨hnone, hrun⟩ | ⟨hl, -⟩ |
        ⟨-, w₁, S, hrun, hs, hclosed, hmem, hS⟩
      · exact ⟨_, w, [], hrun, .refl w h, fun hmem => absurd hmem List.not_mem_nil, hnone,
          fun q hq => absurd hq List.not_mem_nil⟩
      · exact absurd hl (hfree a List.mem_cons_self)
      · exact ⟨_, w₁, S, hrun, hs, hclosed, (hs.anWear _).trans (if_pos hmem), hS⟩
    obtain ⟨r, w₁, S, hrun, hs, hclosed, hnone, hS⟩ := hstep
    obtain ⟨w', T, hrest, ht, htclosed, hcleared, hT⟩ := ih (hb.stripped hs) htail fun b hmem hl =>
      hfree b (List.mem_cons_of_mem a hmem) (hl.of_stripped hs)
    refine ⟨w', S ++ T, ?_, hs.trans ht, hclosed.append htclosed, fun b hmem => ?_, fun q hq => ?_⟩
    · unfold Wearer.clearAll
      rw [hrun, Option.bind_some, if_pos hnone]
      exact hrest
    · rcases List.mem_cons.mp hmem with rfl | hmem
      · rw [ht.anWear, hnone, ite_self]
      · exact hcleared b hmem
    · rcases List.mem_append.mp hq with hq | hq
      · rcases hS q hq with h | h | ⟨h, hzero⟩
        · exact .inl ⟨a, List.mem_cons_self, h⟩
        · exact .inr (.inl h)
        · exact .inr (.inr ⟨h, a, List.mem_cons_self, hzero⟩)
      · rcases hT q hq with ⟨b, hmem, h⟩ | h | ⟨h, b, hmem, hzero⟩
        · exact .inl ⟨b, List.mem_cons_of_mem a hmem, h⟩
        · exact .inr (.inl h)
        · exact .inr (.inr ⟨h, b, List.mem_cons_of_mem a hmem, hzero⟩)

/-! ## Putting on -/

/-- The item is worn in a slot that was empty. -/
structure PutOn (w w' : World) (h : Handle) (pos : Nat) (item : ItemPtr) : Prop where
  quiet : Quiet w w'
  anWear : ∀ q, (w'.players h).anWear q = if q = pos then some item else (w.players h).anWear q
  nWearInfo : ∀ y, (w'.items y).inst.nWearInfo = if y = item then (pos : Int) else (w.items y).inst.nWearInfo

/-- **What `putonItem` does.** -/
theorem putonItem_putOn (hpos : pos < MAX_SPARE_ITEM_WEAR) (hslot : (w.players h).anWear pos = none)
    (hbase : (w.items item).itemBase.isSome) : ∃ w', w.putonItem h pos item = some w' ∧ PutOn w w' h pos item := by
  obtain ⟨w', hw'⟩ := Option.isSome_iff_exists.mp (putonItem_isSome hpos hslot hbase)
  refine ⟨w', hw', putonItem_quiet hw', fun q => ?_, fun y => ?_⟩
  all_goals
    simp only [putonItem, Option.bind_eq_bind, Option.bind_eq_some_iff, Option.pure_def, Option.some.injEq] at hw'
    obtain ⟨base, -, w₁, hw₁, weight, -, rfl⟩ := hw'
    unfold unitPutonItem at hw₁
    split_ifs at hw₁
    all_goals obtain rfl := Option.some.inj hw₁
  · simp [updateWeightWithInventory, Player.setWear]
  · simp [updateWeightWithInventory, Player.setWear]
  · simp only [updateWeightWithInventory, updPlayer_items, updInv_items, updItem_items]
    split_ifs <;> rfl
  · simp only [updateWeightWithInventory, updPlayer_items, updInv_items, updItem_items]
    split_ifs <;> rfl

end World

end RZEmulator.Chihiro
