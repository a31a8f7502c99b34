import RZEmulator.Chihiro.WearChange

/-!
# Putting an item on

When `Puton` does what it should (`sound_iff_careful`). `WearOk` is what the worn items keep: each knows its slot, is
allowed there, and no two overlap. `TranslateWearPosition` clears what overlaps, but it does not compare the position
with the wear type, which is what the condition `Suits` is about.
-/

namespace RZEmulator.Chihiro

namespace Wearer

open World ItemWearType

variable {s : Wearer} {p y : ItemPtr} {pos q : Int} {w' : World}

/-- The slots that a wear type allows. -/
def Allowed (type q : Int) : Prop :=
  q = type ∨ (type = TWOHAND ∧ q = RIGHTHAND) ∨ (type = RIGHTHAND ∧ q = LEFTHAND) ∨
    (type = TWOFINGER_RING ∧ q = RING) ∨ (type = RING ∧ q = SECOND_RING) ∨ (type = DECO_WEAPON ∧ q = DECO_SHIELD)

/-- No two worn items overlap. -/
structure NoOverlap (s : Wearer) : Prop where
  hands : ∀ right left, s.worn RIGHTHAND = some right → s.worn LEFTHAND = some left → s.isTwoHandItem right = true →
    (s.isBow right = true ∨ s.isCrossBow right = true) ∧ s.isBullet left = true
  rings : ∀ ring, s.worn RING = some ring → s.wearType ring = TWOFINGER_RING → s.worn SECOND_RING = none
  /-- A costume over the left hand covers an item of its class, and no two-hand weapon is worn. -/
  costume : ∀ deco, s.worn DECO_SHIELD = some deco →
    (∃ left, s.worn LEFTHAND = some left ∧ (s.iclass left).costume = some (s.iclass deco)) ∧
      ∀ right, s.worn RIGHTHAND = some right → s.isTwoHandItem right = false

/-- What the worn items keep. -/
structure WearOk (s : Wearer) : Prop where
  inArray : ∀ q y, (s.world.players s.me).anWear q = some y → q < 24
  nWearInfo : ∀ (q : Nat) y, (s.world.players s.me).anWear q = some y → (s.world.items y).inst.nWearInfo = q
  held : ∀ q y, (s.world.players s.me).anWear q = some y → y ∈ (s.world.inv (bag s.me)).vList
  based : ∀ y ∈ (s.world.inv (bag s.me)).vList, (s.world.items y).itemBase.isSome
  allowed : ∀ (q : Nat) y, (s.world.players s.me).anWear q = some y → Allowed (s.wearType y) q
  apart : NoOverlap s

/-- The player with another world. -/
def withWorld (s : Wearer) (w : World) : Wearer := { s with world := w }

/-- The item is worn in a slot that its template allows, what it took the place of is worn nowhere, and nothing
overlaps. -/
structure PutOnSafely (s s' : Wearer) (p : ItemPtr) (q : Nat) : Prop where
  slot : (s'.world.players s.me).anWear q = some p
  nWearInfo : (s'.world.items p).inst.nWearInfo = q
  allowed : Allowed (s.wearType p) q
  others : ∀ r ≠ q, (s'.world.players s.me).anWear r = (s.world.players s.me).anWear r ∨
    (s'.world.players s.me).anWear r = none
  removed : ∀ r y, (s.world.players s.me).anWear r = some y → (s'.world.players s.me).anWear r ≠ some y →
    (s'.world.items y).inst.nWearInfo = WEAR_NONE
  ok : WearOk s'

/-- Nobody wears anything else than before. -/
def SameWear (w w' : World) (h : Handle) : Prop :=
  (w'.players h).anWear = (w.players h).anWear ∧ ∀ y, (w'.items y).inst.nWearInfo = (w.items y).inst.nWearInfo

/-- `Puton` ends inside the arrays and past the assertions; it puts on safely or changes nothing. -/
def Sound (s : Wearer) (p : ItemPtr) (pos : Int) : Prop :=
  ∃ r w', s.puton p pos = some (r, w') ∧ (r = .success → ∃ q, PutOnSafely s (s.withWorld w') p q) ∧
    (r ≠ .success → SameWear s.world w' s.me)

/-- The position is one for the wear type of the item. -/
def Suits (s : Wearer) (p : ItemPtr) (pos : Int) : Prop :=
  if s.wearType p = TWOHAND then True
  else if s.wearType p = TWOFINGER_RING then pos = RING ∨ pos = TWOFINGER_RING
  else if s.wearType p = RING then s.ringWorn = true ∨ pos = RING ∨ pos = SECOND_RING ∨ pos = TWOFINGER_RING
  else if s.wearType p = RIGHTHAND then pos = RIGHTHAND ∨ pos = LEFTHAND
  else if s.wearType p = LEFTHAND then
    pos = LEFTHAND ∧ (s.isWeapon p = true → ∃ right, s.worn RIGHTHAND = some right ∧ s.wieldsTwo p right = true)
  else if s.wearType p = DECO_WEAPON then pos = DECO_WEAPON ∨ pos = DECO_SHIELD
  else if s.wearType p = DECO_SHIELD then
    pos = DECO_SHIELD ∧ ((s.iclass p).isDecoWeapon = true → s.costumesTwo = true)
  else if s.wearType p = SECOND_RING then
    pos = SECOND_RING ∧ ∀ ring, s.worn RING = some ring → s.wearType ring ≠ TWOFINGER_RING
  else pos = s.wearType p

/-- The item is refused, the position holds an armulet that cannot be taken off, or the position suits the item; no
position is past the array. -/
def Careful (s : Wearer) (p : ItemPtr) (pos : Int) : Prop :=
  s.isInInventory p = true → (s.world.items p).inst.nWearInfo = WEAR_NONE →
    ¬(MAX_ITEM_WEAR ≤ pos ∧ pos < MAX_SPARE_ITEM_WEAR) ∧
      ((s.translateWearPosition p pos).isSome → (pos = ARMULET ∧ Locked s.world s.me 8) ∨ Suits s p pos)

/-! ## The slot -/

theorem handPosition_cases {a : Int} (h : s.handPosition p pos = some a) :
    (a = pos ∧ (pos = LEFTHAND → s.isWeapon p = true →
      ∃ right, s.worn RIGHTHAND = some right ∧ s.wieldsTwo p right = true)) ∨
    (pos = LEFTHAND ∧ a = RIGHTHAND ∧ s.isWeapon p = true ∧
      ∀ right, s.worn RIGHTHAND = some right → s.wieldsTwo p right = false) := by
  unfold handPosition at h
  split_ifs at h with hleft
  · cases hworn : s.worn RIGHTHAND with
    | none =>
      rw [hworn] at h
      cases h
    | some right =>
      rw [hworn] at h
      dsimp only at h
      split_ifs at h with hbullet hone
      · obtain rfl := Option.some.inj h
        refine .inr ⟨hleft.1, rfl, hone.1, fun r hr => ?_⟩
        obtain rfl := Option.some.inj hr
        exact hone.2
      · obtain rfl := Option.some.inj h
        refine .inl ⟨hleft.1.symm, fun _ hweapon => ⟨right, rfl, ?_⟩⟩
        exact Bool.eq_true_of_not_eq_false fun hfalse => hone ⟨hweapon, hfalse⟩
  · obtain rfl := Option.some.inj h
    exact .inl ⟨rfl, fun hpos hweapon => absurd ⟨hpos, .inr hweapon⟩ hleft⟩

theorem decoPosition_cases {a : Int} (h : s.decoPosition p pos = some a) :
    (a = pos ∧ (pos = DECO_SHIELD → ((s.iclass p).isDecoWeapon = true → s.costumesTwo = true) ∧
      ((s.iclass p).isDecoWeapon = false → ∀ right, s.worn RIGHTHAND = some right → s.isTwoHandItem right = false))) ∨
    (pos = DECO_SHIELD ∧ a = DECO_WEAPON ∧ (s.iclass p).isDecoWeapon = true ∧ s.costumesTwo = false) := by
  unfold decoPosition at h
  split_ifs at h with hpos hdeco htwo hrefuse
  · obtain rfl := Option.some.inj h
    exact .inl ⟨rfl, fun _ => ⟨fun _ => htwo, fun hno => absurd (hdeco.symm.trans hno) Bool.noConfusion⟩⟩
  · obtain rfl := Option.some.inj h
    exact .inr ⟨hpos, rfl, hdeco, Bool.eq_false_of_not_eq_true htwo⟩
  · obtain rfl := Option.some.inj h
    refine .inl ⟨rfl, fun _ => ⟨fun hyes => absurd hyes hdeco, fun _ right hright => ?_⟩⟩
    rw [Bool.or_eq_true, not_or] at hrefuse
    rw [hright] at hrefuse
    exact Bool.eq_false_of_not_eq_true hrefuse.2
  · obtain rfl := Option.some.inj h
    exact .inl ⟨rfl, fun hshield => absurd hshield hpos⟩

/-- What is known of an accepted slot. -/
structure Accepted (s : Wearer) (p : ItemPtr) (pos q : Int) : Prop where
  low : 0 ≤ q
  high : q < 24
  slot : ∃ a b, s.handPosition p pos = some a ∧ s.decoPosition p a = some b ∧ q = s.typePosition p b
  costumeFits : q = DECO_WEAPON ∨ q = DECO_SHIELD → s.costumeFits p q = true

theorem translate_cases {l : List Int} (hpos : ¬(MAX_ITEM_WEAR ≤ pos ∧ pos < MAX_SPARE_ITEM_WEAR))
    (h : s.translateWearPosition p pos = some (q, l)) : Accepted s p pos q ∧ l = s.overlapped p q := by
  unfold translateWearPosition at h
  rw [if_neg hpos] at h
  split_ifs at h
  obtain ⟨a, ha, h⟩ := Option.bind_eq_some_iff.mp h
  obtain ⟨b, hb, h⟩ := Option.bind_eq_some_iff.mp h
  dsimp only at h
  split_ifs at h with hbag hcostume hrange
  obtain ⟨rfl, rfl⟩ := Prod.mk.inj (Option.some.inj h)
  have hin : ¬(24 ≤ s.typePosition p b ∨ s.typePosition p b < 0) := hrange
  refine ⟨⟨by omega, by omega, ⟨a, b, ha, hb, rfl⟩, fun hq => ?_⟩, rfl⟩
  exact Bool.eq_true_of_not_eq_false fun hfalse => hcostume ⟨hq, hfalse⟩

/-- Where the slot comes from: the position itself, or one that has been moved to the other hand. -/
theorem Accepted.cases (ha : Accepted s p pos q) :
    (q = s.typePosition p pos ∧
      (pos = 1 → s.isWeapon p = true → ∃ right, s.worn RIGHTHAND = some right ∧ s.wieldsTwo p right = true) ∧
      (pos = 15 → (s.iclass p).isDecoWeapon = true → s.costumesTwo = true)) ∨
    (pos = 1 ∧ q = s.typePosition p 0 ∧ s.isWeapon p = true ∧
      ¬∃ right, s.worn RIGHTHAND = some right ∧ s.wieldsTwo p right = true) ∨
    (pos = 15 ∧ q = s.typePosition p 14 ∧ (s.iclass p).isDecoWeapon = true ∧ s.costumesTwo = false) := by
  obtain ⟨a, b, hhand, hdeco, rfl⟩ := ha.slot
  rcases handPosition_cases hhand with ⟨rfl, hweapon⟩ | ⟨rfl, rfl, hweapon, hone⟩
  · rcases decoPosition_cases hdeco with ⟨rfl, hcostume⟩ | ⟨rfl, rfl, hcostume, hone⟩
    · exact .inl ⟨rfl, hweapon, fun hpos => (hcostume hpos).1⟩
    · exact .inr (.inr ⟨rfl, rfl, hcostume, hone⟩)
  · rcases decoPosition_cases hdeco with ⟨rfl, -⟩ | ⟨hno, -⟩
    · refine .inr (.inl ⟨rfl, rfl, hweapon, ?_⟩)
      rintro ⟨right, hright, htwo⟩
      exact Bool.noConfusion ((hone right hright).symm.trans htwo)
    · cases hno

/-- No ring of two fingers is where a second ring goes. -/
def RingFree (s : Wearer) (p : ItemPtr) : Prop :=
  s.wearType p = SECOND_RING → ∀ ring, s.worn RING = some ring → s.wearType ring ≠ TWOFINGER_RING

/-- **When the slot is allowed.** -/
theorem allowed_iff_suits (ha : Accepted s p pos q) : Allowed (s.wearType p) q ∧ RingFree s p ↔ Suits s p pos := by
  have hlow := ha.low
  have hhigh := ha.high
  have hcases := ha.cases
  have htype : ∀ x, s.typePosition p x = if s.ringWorn = true ∧ s.wearType p = 9 then 10
      else if s.wearType p = 99 then 0 else if x = 94 then 9 else x := fun _ => rfl
  simp only [htype] at hcases
  unfold Suits Allowed RingFree
  generalize s.wearType p = t at *
  generalize (∃ right, s.worn RIGHTHAND = some right ∧ s.wieldsTwo p right = true) = two at *
  generalize (∀ ring, s.worn RING = some ring → s.wearType ring ≠ TWOFINGER_RING) = free at *
  -- What is left is about numbers: for each wear type, the positions that come to an allowed slot.
  split_ifs <;> grind

/-! ## What overlaps -/

theorem mem_overlapped {a : Int} (ha : a ∈ s.overlapped p q) : a = q ∨ (s.isTwoHandItem p = true ∧ (a = 1 ∨ a = 15)) ∨
    (q = 1 ∧ (a = 15 ∨ a = 0)) ∨ (a = 10 ∧ s.wearType p = TWOFINGER_RING) ∨ (a = 9 ∧ s.wearType p = RING) := by
  unfold overlapped at ha
  simp only [List.mem_append] at ha
  rcases ha with h | h | h | h | h | h
  · split_ifs at h
    · exact .inl (List.mem_singleton.mp h)
    · cases h
  · by_cases htwo : s.isTwoHandItem p = true
    · rw [if_pos htwo] at h
      cases hleft : s.worn LEFTHAND with
      | none =>
        rw [hleft] at h
        cases h
      | some left =>
        rw [hleft] at h
        refine .inr (.inl ⟨htwo, ?_⟩)
        rcases List.mem_append.mp h with h | h
        · split_ifs at h
          · exact .inl (List.mem_singleton.mp h)
          · cases h
        · split_ifs at h
          · exact .inr (List.mem_singleton.mp h)
          · cases h
    · rw [if_neg htwo] at h
      cases h
  · split_ifs at h with hq
    · cases hdeco : s.worn DECO_SHIELD with
      | none =>
        rw [hdeco] at h
        cases h
      | some deco =>
        rw [hdeco] at h
        dsimp only at h
        refine .inr (.inr (.inl ⟨hq, .inl ?_⟩))
        rcases List.mem_append.mp h with h | h
        · split_ifs at h
          · exact List.mem_singleton.mp h
          · cases h
        · split_ifs at h
          · exact List.mem_singleton.mp h
          · cases h
    · cases h
  · split_ifs at h with hq
    · cases hright : s.worn RIGHTHAND with
      | none =>
        rw [hright] at h
        cases h
      | some right =>
        rw [hright] at h
        dsimp only at h
        split_ifs at h
        · exact .inr (.inr (.inl ⟨hq, .inr (List.mem_singleton.mp h)⟩))
        · cases h
    · cases h
  · split_ifs at h with hring
    · exact .inr (.inr (.inr (.inl ⟨List.mem_singleton.mp h, hring.2⟩)))
    · cases h
  · split_ifs at h with hring
    · exact .inr (.inr (.inr (.inr ⟨List.mem_singleton.mp h, hring.2⟩)))
    · cases h

theorem self_mem_overlapped (hworn : s.worn q = some y) : q ∈ s.overlapped p q := by
  unfold overlapped
  rw [hworn]
  exact List.mem_append_left _ List.mem_cons_self

/-- A two-hand item clears the left hand, but a bow leaves its bullets. -/
theorem left_mem_overlapped {left : ItemPtr} (htwo : s.isTwoHandItem p = true) (hleft : s.worn LEFTHAND = some left)
    (hbow : ¬((s.isBow p = true ∨ s.isCrossBow p = true) ∧ s.isBullet left = true)) : 1 ∈ s.overlapped p q := by
  have hcond : ((!s.isBow p && !s.isCrossBow p) || !s.isBullet left) = true := by grind
  unfold overlapped
  rw [if_pos htwo, hleft]
  simp only [List.mem_append]
  refine .inr (.inl (.inl ?_))
  rw [if_pos hcond]
  exact List.mem_cons_self

theorem deco_mem_overlapped {left deco : ItemPtr} (htwo : s.isTwoHandItem p = true) (hleft : s.worn LEFTHAND = some left)
    (hdeco : s.worn DECO_SHIELD = some deco) : 15 ∈ s.overlapped p q := by
  unfold overlapped
  rw [if_pos htwo, hleft, hdeco]
  simp only [List.mem_append]
  exact .inr (.inl (.inr List.mem_cons_self))

/-- A two-hand weapon makes way for what comes to the left hand. -/
theorem right_mem_overlapped {right : ItemPtr} (hright : s.worn RIGHTHAND = some right)
    (htwo : s.isTwoHandItem right = true)
    (hbow : ¬((s.isBow right = true ∨ s.isCrossBow right = true) ∧ s.isBullet p = true)) : 0 ∈ s.overlapped p 1 := by
  have hcond : s.isTwoHandItem right = true ∧ ((!s.isBow right && !s.isCrossBow right) || !s.isBullet p) = true :=
    ⟨htwo, by grind⟩
  unfold overlapped
  simp only [List.mem_append]
  refine .inr (.inr (.inr (.inl ?_)))
  rw [if_pos trivial, hright]
  dsimp only
  rw [if_pos hcond]
  exact List.mem_cons_self

theorem second_mem_overlapped (hworn : (s.worn SECOND_RING).isSome) (htype : s.wearType p = TWOFINGER_RING) :
    10 ∈ s.overlapped p q := by
  unfold overlapped
  simp only [List.mem_append]
  refine .inr (.inr (.inr (.inr (.inl ?_))))
  rw [if_pos ⟨hworn, htype⟩]
  exact List.mem_cons_self

theorem ring_mem_overlapped {ring : ItemPtr} (hworn : s.worn RING = some ring) (htwo : s.wearType ring = TWOFINGER_RING)
    (htype : s.wearType p = RING) : 9 ∈ s.overlapped p q := by
  have hany : (s.worn RING).any (fun ring => s.wearType ring = TWOFINGER_RING) = true := by
    rw [hworn]
    exact decide_eq_true htwo
  unfold overlapped
  simp only [List.mem_append]
  refine .inr (.inr (.inr (.inr (.inr ?_))))
  rw [if_pos ⟨hany, htype⟩]
  exact List.mem_cons_self

theorem Accepted.right_of_twoHand (ha : Accepted s p pos q) (htwo : s.isTwoHandItem p = true) : q = 0 := by
  obtain ⟨a, b, -, -, rfl⟩ := ha.slot
  have htype : s.wearType p = TWOHAND := of_decide_eq_true htwo
  unfold typePosition
  rw [htype, if_neg fun h => absurd h.2 (by decide)]
  rfl

/-! ## After a success -/

/-- The item is in the slot, and the slots of `S` have been cleared before. -/
structure Placed (s s' : Wearer) (p : ItemPtr) (q : Int) (S : List Nat) : Prop where
  eq : s' = s.withWorld s'.world
  quiet : Quiet s.world s'.world
  anWear : ∀ r, (s'.world.players s.me).anWear r =
    if r = q.toNat then some p else if r ∈ S then none else (s.world.players s.me).anWear r
  off : ∀ r ∈ S, ∀ y ≠ p, (s.world.players s.me).anWear r = some y → (s'.world.items y).inst.nWearInfo = WEAR_NONE
  kept : ∀ y ≠ p, (∀ r ∈ S, (s.world.players s.me).anWear r ≠ some y) →
    (s'.world.items y).inst.nWearInfo = (s.world.items y).inst.nWearInfo
  self : (s'.world.items p).inst.nWearInfo = q.toNat

/-- What has been cleared is what overlaps, what depends on it, and no more. -/
structure Cleared (s : Wearer) (p : ItemPtr) (q : Int) (S : List Nat) : Prop where
  closed : Closed S
  all : ∀ a ∈ s.overlapped p q, a.toNat ∈ S ∨ s.worn a = none
  only : ∀ r ∈ S, (∃ a ∈ s.overlapped p q, r = a.toNat) ∨ r = 15 ∨ r = 1 ∧ ∃ a ∈ s.overlapped p q, a.toNat = 0

section

variable {s' : Wearer} {S : List Nat} {w₁ w₂ : World}

theorem placed_of (hs : Stripped s.world w₁ s.me S) (hon : PutOn w₁ w₂ s.me q.toNat p) :
    Placed s (s.withWorld w₂) p q S where
  eq := rfl
  quiet := hs.quiet.trans hon.quiet
  anWear r := (hon.anWear r).trans (by rw [hs.anWear])
  off r hr y hne hy := by
    rw [show ((s.withWorld w₂).world.items y).inst.nWearInfo = _ from hon.nWearInfo y, if_neg hne]
    exact hs.off r hr y hy
  kept y hne hy := by
    rw [show ((s.withWorld w₂).world.items y).inst.nWearInfo = _ from hon.nWearInfo y, if_neg hne]
    exact hs.kept y hy
  self := (hon.nWearInfo p).trans (if_pos rfl)

namespace Placed

variable (hp : Placed s s' p q S)

include hp

theorem me : s'.me = s.me := (congrArg Wearer.me hp.eq).trans rfl

theorem gear : s'.gear = s.gear := (congrArg Wearer.gear hp.eq).trans rfl

theorem itemBase (y : ItemPtr) : (s'.world.items y).itemBase = (s.world.items y).itemBase := hp.quiet.base y

theorem wearType (y : ItemPtr) : s'.wearType y = s.wearType y := by
  unfold Wearer.wearType
  rw [hp.itemBase]

theorem isTwoHandItem (y : ItemPtr) : s'.isTwoHandItem y = s.isTwoHandItem y := by
  unfold Wearer.isTwoHandItem
  rw [hp.wearType]

theorem isBullet (y : ItemPtr) : s'.isBullet y = s.isBullet y := by
  unfold Wearer.isBullet group
  rw [hp.itemBase]

theorem iclass (y : ItemPtr) : s'.iclass y = s.iclass y := by
  unfold Wearer.iclass
  rw [hp.gear]

theorem isBow (y : ItemPtr) : s'.isBow y = s.isBow y := by
  unfold Wearer.isBow
  rw [hp.iclass]

theorem isCrossBow (y : ItemPtr) : s'.isCrossBow y = s.isCrossBow y := by
  unfold Wearer.isCrossBow
  rw [hp.iclass]

theorem worn (a : Int) : s'.worn a = if a.toNat = q.toNat then some p else if a.toNat ∈ S then none else s.worn a := by
  unfold Wearer.worn
  rw [hp.me, hp.anWear]

/-- Another slot holds what it held. -/
theorem worn_old {a : Int} (hne : a.toNat ≠ q.toNat) (hy : s'.worn a = some y) : a.toNat ∉ S ∧ s.worn a = some y := by
  rw [hp.worn, if_neg hne] at hy
  split_ifs at hy with hS
  exact ⟨hS, hy⟩

theorem worn_stays {a : Int} (hne : a.toNat ≠ q.toNat) (hS : a.toNat ∉ S) : s'.worn a = s.worn a := by
  rw [hp.worn, if_neg hne, if_neg hS]

theorem worn_self (hy : s'.worn q = some y) : y = p := by
  rw [hp.worn, if_pos rfl] at hy
  exact (Option.some.inj hy).symm

end Placed

/-- What overlaps is not worn any more. -/
theorem Cleared.mem (hc : Cleared s p q S) {a : Int} (ha : a ∈ s.overlapped p q) (hy : s.worn a = some y) :
    a.toNat ∈ S := by
  rcases hc.all a ha with hmem | hnone
  · exact hmem
  · rw [hnone] at hy
    cases hy

section

variable (hok : WearOk s) (ha : Accepted s p pos q) (hallowed : Allowed (s.wearType p) q) (hring : RingFree s p)
  (hc : Cleared s p q S) (hp : Placed s s' p q S)

include hok ha hallowed hring hc hp

omit hallowed hring in
theorem hands_of_placed (right left : ItemPtr) (hright : s'.worn RIGHTHAND = some right)
    (hleft : s'.worn LEFTHAND = some left) (htwo : s'.isTwoHandItem right = true) :
    (s'.isBow right = true ∨ s'.isCrossBow right = true) ∧ s'.isBullet left = true := by
  have hlow := ha.low
  rw [hp.isTwoHandItem] at htwo
  rw [hp.isBow, hp.isCrossBow, hp.isBullet]
  by_cases hzero : q = 0
  · subst hzero
    obtain rfl := hp.worn_self hright
    obtain ⟨hfree, hleft⟩ := hp.worn_old (by decide) hleft
    by_contra hbow
    exact hfree (hc.mem (left_mem_overlapped htwo hleft hbow) hleft)
  · obtain ⟨hfree, hright⟩ := hp.worn_old (a := RIGHTHAND) (show (0 : Int).toNat ≠ q.toNat by omega) hright
    by_cases hone : q = 1
    · subst hone
      obtain rfl := hp.worn_self hleft
      by_contra hbow
      exact hfree (hc.mem (right_mem_overlapped hright htwo hbow) hright)
    · obtain ⟨-, hleft⟩ := hp.worn_old (a := LEFTHAND) (show (1 : Int).toNat ≠ q.toNat by omega) hleft
      exact hok.apart.hands right left hright hleft htwo

theorem rings_of_placed (ring : ItemPtr) (hworn : s'.worn RING = some ring) (htwo : s'.wearType ring = TWOFINGER_RING) :
    s'.worn SECOND_RING = none := by
  have hlow := ha.low
  rw [hp.wearType] at htwo
  by_contra hsecond
  obtain ⟨second, hsecond⟩ := Option.ne_none_iff_exists'.mp hsecond
  by_cases hnine : q = 9
  · subst hnine
    obtain rfl := hp.worn_self hworn
    obtain ⟨hfree, hsecond⟩ := hp.worn_old (by decide) hsecond
    exact hfree (hc.mem (second_mem_overlapped (Option.isSome_iff_exists.mpr ⟨second, hsecond⟩) htwo) hsecond)
  · obtain ⟨hfree, hworn⟩ := hp.worn_old (a := RING) (show (9 : Int).toNat ≠ q.toNat by omega) hworn
    by_cases hten : q = 10
    · subst hten
      rcases hallowed with htype | ⟨-, h⟩ | ⟨-, h⟩ | ⟨-, h⟩ | ⟨htype, -⟩ | ⟨-, h⟩
      · exact hring htype.symm ring hworn htwo
      · cases h
      · cases h
      · cases h
      · exact hfree (hc.mem (ring_mem_overlapped hworn htwo htype) hworn)
      · cases h
    · obtain ⟨-, hsecond⟩ := hp.worn_old (a := SECOND_RING) (show (10 : Int).toNat ≠ q.toNat by omega) hsecond
      rw [hok.apart.rings ring hworn htwo] at hsecond
      cases hsecond

omit hallowed hring in
/-- A costume that comes to the left hand covers what is held there. -/
theorem costume_of_placed_deco (hq : q = 15) : (∃ left, s'.worn LEFTHAND = some left ∧
    (s'.iclass left).costume = some (s'.iclass p)) ∧
      ∀ right, s'.worn RIGHTHAND = some right → s'.isTwoHandItem right = false := by
  subst hq
  have htwo : s.isTwoHandItem p ≠ true := fun h => absurd (ha.right_of_twoHand h) (by decide)
  have hfits := ha.costumeFits (.inr rfl)
  unfold costumeFits at hfits
  rw [if_neg (by decide), Option.any_eq_true] at hfits
  obtain ⟨held, hheld, hclass⟩ := hfits
  -- Neither hand is cleared for the costume.
  have hstays : ∀ r ∈ S, r ≠ 1 := by
    rintro r hr rfl
    rcases hc.only 1 hr with ⟨a, hmem, heq⟩ | h | ⟨-, a, hmem, heq⟩
    · rcases mem_overlapped hmem with rfl | ⟨h, -⟩ | ⟨h, -⟩ | ⟨rfl, -⟩ | ⟨rfl, -⟩
      · cases heq
      · exact htwo h
      · cases h
      · cases heq
      · cases heq
    · cases h
    · rcases mem_overlapped hmem with rfl | ⟨h, -⟩ | ⟨h, -⟩ | ⟨rfl, -⟩ | ⟨rfl, -⟩
      · cases heq
      · exact htwo h
      · cases h
      · cases heq
      · cases heq
  refine ⟨⟨held, ?_, ?_⟩, fun right hright => ?_⟩
  · exact (hp.worn_stays (a := LEFTHAND) (by decide) fun hmem => hstays 1 hmem rfl).trans hheld
  · rw [hp.iclass, hp.iclass]
    exact of_decide_eq_true hclass
  · obtain ⟨-, hright⟩ := hp.worn_old (by decide) hright
    rw [hp.isTwoHandItem]
    obtain ⟨a, b, -, hdeco, hb⟩ := ha.slot
    have hb' : b = 15 := by
      unfold typePosition at hb
      split_ifs at hb <;> simp_all
    rcases decoPosition_cases hdeco with ⟨rfl, hcostume⟩ | ⟨-, rfl, -⟩
    · obtain ⟨htwo, hone⟩ := hcostume hb'
      cases hweapon : (s.iclass p).isDecoWeapon with
      | false => exact hone hweapon right hright
      | true =>
        by_contra hhand
        have hhands := (hok.apart.hands right held hright hheld (Bool.eq_true_of_not_eq_false hhand)).1
        have hdual := htwo hweapon
        unfold costumesTwo at hdual
        rw [hright] at hdual
        simp only [Option.any_some, Bool.and_eq_true] at hdual
        have hclass := hdual.1.1.2
        unfold isBow isCrossBow at hhands
        simp only [decide_eq_true_eq] at hhands
        rcases hhands with (h | h) | h <;> rw [h] at hclass <;> exact absurd hclass (by decide)
    · cases hb'

omit hallowed hring in
theorem costume_of_placed (deco : ItemPtr) (hdeco : s'.worn DECO_SHIELD = some deco) :
    (∃ left, s'.worn LEFTHAND = some left ∧ (s'.iclass left).costume = some (s'.iclass deco)) ∧
      ∀ right, s'.worn RIGHTHAND = some right → s'.isTwoHandItem right = false := by
  have hlow := ha.low
  by_cases hfifteen : q = 15
  · have heq : deco = p := hp.worn_self (hfifteen ▸ hdeco)
    rw [heq]
    exact costume_of_placed_deco hok ha hc hp hfifteen
  · obtain ⟨hfree, hdeco⟩ := hp.worn_old (a := DECO_SHIELD) (show (15 : Int).toNat ≠ q.toNat by omega) hdeco
    obtain ⟨⟨left, hleft, hclass⟩, hright⟩ := hok.apart.costume deco hdeco
    have hstays : 1 ∉ S := fun hmem => hfree (hc.closed hmem)
    have hone : q ≠ 1 := by
      rintro rfl
      exact hstays (hc.mem (self_mem_overlapped hleft) hleft)
    refine ⟨⟨left, ?_, ?_⟩, fun right hworn => ?_⟩
    · exact (hp.worn_stays (a := LEFTHAND) (show (1 : Int).toNat ≠ q.toNat by omega) hstays).trans hleft
    · rw [hp.iclass, hp.iclass]
      exact hclass
    · rw [hp.isTwoHandItem]
      by_cases hzero : q = 0
      · subst hzero
        obtain rfl := hp.worn_self hworn
        by_contra htwo
        exact hfree (hc.mem (deco_mem_overlapped (Bool.eq_true_of_not_eq_false htwo) hleft hdeco) hdeco)
      · obtain ⟨-, hworn⟩ := hp.worn_old (a := RIGHTHAND) (show (0 : Int).toNat ≠ q.toNat by omega) hworn
        exact hright right hworn

/-- **A success in an allowed slot is safe.** -/
theorem putOnSafely_of_placed (hmem : p ∈ (s.world.inv (bag s.me)).vList)
    (hnew : (s.world.items p).inst.nWearInfo = WEAR_NONE) : PutOnSafely s s' p q.toNat := by
  have hlow := ha.low
  have hhigh := ha.high
  have hcast : (q.toNat : Int) = q := Int.toNat_of_nonneg hlow
  -- The item has not been worn before, so that no slot held it.
  have hunworn : ∀ r y, (s.world.players s.me).anWear r = some y → y ≠ p := by
    rintro r y hy rfl
    have hinfo := hok.nWearInfo r y hy
    rw [hnew] at hinfo
    unfold WEAR_NONE at hinfo
    omega
  have hold : ∀ r y, r ≠ q.toNat → (s'.world.players s.me).anWear r = some y →
      r ∉ S ∧ (s.world.players s.me).anWear r = some y := by
    intro r y hr hy
    rw [hp.anWear, if_neg hr] at hy
    split_ifs at hy with hS
    exact ⟨hS, hy⟩
  have hself : (s'.world.players s.me).anWear q.toNat = some p := (hp.anWear _).trans (if_pos rfl)
  have hslots : ∀ (P : Nat → ItemPtr → Prop), P q.toNat p →
      (∀ r y, r ∉ S → (s.world.players s.me).anWear r = some y → P r y) →
      ∀ r y, (s'.world.players s'.me).anWear r = some y → P r y := by
    intro P hPp hPold r y hy
    rw [hp.me] at hy
    by_cases hr : r = q.toNat
    · rw [hr, hself] at hy
      rw [hr, ← Option.some.inj hy]
      exact hPp
    · obtain ⟨hS, hy⟩ := hold r y hr hy
      exact hPold r y hS hy
  have hlist : (s'.world.inv (bag s'.me)).vList = (s.world.inv (bag s.me)).vList := by
    rw [hp.me]
    exact hp.quiet.vList _
  refine ⟨hself, hp.self, hcast ▸ hallowed, fun r hr => ?_, fun r y hy hgone => ?_, ?_⟩
  · rw [hp.anWear, if_neg hr]
    split_ifs
    · exact .inr rfl
    · exact .inl rfl
  · have hne := hunworn r y hy
    by_cases hS : r ∈ S
    · exact hp.off r hS y hne hy
    · rw [hp.anWear, if_neg hS] at hgone
      split_ifs at hgone with hr
      · -- The slot was cleared if it was taken.
        have hworn : s.worn q = some y := by
          unfold Wearer.worn
          rw [← hr]
          exact hy
        exact absurd (hr ▸ hc.mem (self_mem_overlapped hworn) hworn) hS
      · exact absurd hy hgone
  · refine ⟨?_, ?_, ?_, ?_, ?_, ⟨hands_of_placed hok ha hc hp, rings_of_placed hok ha hallowed hring hc hp,
      costume_of_placed hok ha hc hp⟩⟩
    · exact hslots (fun r _ => r < 24) (by omega) fun r y _ hy => hok.inArray r y hy
    · refine hslots (fun r y => (s'.world.items y).inst.nWearInfo = r) hp.self fun r y hS hy => ?_
      rw [hp.kept y (hunworn r y hy) fun r' hr' hy' => ?_]
      · exact hok.nWearInfo r y hy
      · have h₁ := hok.nWearInfo r y hy
        have h₂ := hok.nWearInfo r' y hy'
        have hrr : r = r' := by omega
        exact hS (hrr ▸ hr')
    · rw [hlist]
      exact hslots (fun _ y => y ∈ (s.world.inv (bag s.me)).vList) hmem fun r y _ hy => hok.held r y hy
    · intro y hy
      rw [hp.itemBase]
      exact hok.based y (hlist ▸ hy)
    · refine hslots (fun r y => Allowed (s'.wearType y) r) ?_ fun r y _ hy => ?_
      · rw [hp.wearType, hcast]
        exact hallowed
      · rw [hp.wearType]
        exact hok.allowed r y hy

end

end

/-! ## `Puton` -/

section

variable {l : List Int}

theorem WearOk.basedWorn (hok : WearOk s) : Based s.world s.me := fun q y hy => hok.based y (hok.held q y hy)

theorem toNat_lt_of_mem (ha : Accepted s p pos q) {a : Int} (hmem : a ∈ s.overlapped p q) : a.toNat < 24 := by
  have hhigh := ha.high
  rcases mem_overlapped hmem with rfl | ⟨-, rfl | rfl⟩ | ⟨-, rfl | rfl⟩ | ⟨rfl, -⟩ | ⟨rfl, -⟩ <;> omega

/-- Only the slot itself can be the locked one. -/
theorem locked_of_mem {a : Int} (hmem : a ∈ s.overlapped p q) (hl : Locked s.world s.me a.toNat) :
    q = ARMULET ∧ Locked s.world s.me 8 := by
  have height : a.toNat = 8 := hl.1
  have hq : a = q := by
    rcases mem_overlapped hmem with h | ⟨-, h | h⟩ | ⟨-, h | h⟩ | ⟨h, -⟩ | ⟨h, -⟩ <;> omega
  refine ⟨?_, height ▸ hl⟩
  show q = 8
  omega

/-- The armulet of a player in chaos stays, and nothing has been changed. -/
theorem puton_locked (hok : WearOk s) (hin : s.isInInventory p = true)
    (hnew : (s.world.items p).inst.nWearInfo = WEAR_NONE) (htrans : s.translateWearPosition p pos = some (ARMULET, l))
    (hl : l = s.overlapped p ARMULET) (hlock : Locked s.world s.me 8) :
    s.puton p pos = some (.notActable, s.world) := by
  obtain ⟨y, hy⟩ := Option.isSome_iff_exists.mp hlock.2.2
  have hworn : s.worn ARMULET = some y := hy
  have hcons : ∃ tail, s.overlapped p ARMULET = ARMULET :: tail := by
    unfold overlapped
    rw [hworn]
    exact ⟨_, rfl⟩
  obtain ⟨tail, htail⟩ := hcons
  have hclear := clearAll_locked hok.basedWorn (q := ARMULET) (by decide) hlock tail
  unfold puton
  rw [if_neg (by rw [hin]; exact Bool.noConfusion), if_neg (not_not.mpr hnew), htrans]
  dsimp only
  rw [hl, htail, hclear]
  rfl

/-- Otherwise an accepted item is put on. -/
theorem puton_placed (hok : WearOk s) (hmem : p ∈ (s.world.inv (bag s.me)).vList) (hin : s.isInInventory p = true)
    (hnew : (s.world.items p).inst.nWearInfo = WEAR_NONE) (htrans : s.translateWearPosition p pos = some (q, l))
    (hl : l = s.overlapped p q) (ha : Accepted s p pos q) (hfree : ¬(q = ARMULET ∧ Locked s.world s.me 8)) :
    ∃ w₂ S, s.puton p pos = some (.success, w₂) ∧ Placed s (s.withWorld w₂) p q S ∧ Cleared s p q S := by
  have hlow := ha.low
  have hhigh := ha.high
  obtain ⟨w₁, S, hclear, hs, hclosed, hnone, honly⟩ := clearAll_stripped hok.basedWorn (l := s.overlapped p q)
    (fun a hmem => lt_trans (toNat_lt_of_mem ha hmem) (by decide)) fun a hmem hlock => hfree (locked_of_mem hmem hlock)
  have hall : ∀ a ∈ s.overlapped p q, a.toNat ∈ S ∨ s.worn a = none := by
    intro a hmem
    have h := hnone a hmem
    rw [hs.anWear] at h
    split_ifs at h with hS
    · exact .inl hS
    · exact .inr h
  have hslot : (w₁.players s.me).anWear q.toNat = none := by
    cases hworn : s.worn q with
    | none =>
      rw [hs.anWear]
      split_ifs
      · rfl
      · exact hworn
    | some y => exact hnone q (self_mem_overlapped hworn)
  have hbase : (w₁.items p).itemBase.isSome := by
    rw [hs.quiet.base]
    exact hok.based p hmem
  have hspare : q.toNat < MAX_SPARE_ITEM_WEAR := by
    unfold MAX_SPARE_ITEM_WEAR
    omega
  obtain ⟨w₂, hrun, hon⟩ := putonItem_putOn hspare hslot hbase
  refine ⟨w₂, S, ?_, placed_of hs hon, hclosed, hall, honly⟩
  unfold puton
  rw [if_neg (by rw [hin]; exact Bool.noConfusion), if_neg (not_not.mpr hnew), htrans]
  dsimp only
  rw [hl, hclear, Option.bind_some]
  dsimp only
  rw [if_pos rfl, if_pos hhigh, hrun]
  rfl

/-- The slot of an armulet is reached from its own position only. -/
theorem Accepted.armulet (ha : Accepted s p pos q) (hq : q = ARMULET) : pos = ARMULET := by
  have hcases := ha.cases
  have htype : ∀ x, s.typePosition p x = if s.ringWorn = true ∧ s.wearType p = 9 then 10
      else if s.wearType p = 99 then 0 else if x = 94 then 9 else x := fun _ => rfl
  simp only [htype] at hcases
  have hq' : q = 8 := hq
  show pos = 8
  rcases hcases with ⟨h, -⟩ | ⟨-, h, -⟩ | ⟨-, h, -⟩ <;> split_ifs at h <;> omega

/-- At the position of an armulet, an item that comes to another slot suits. -/
theorem Accepted.suits_of_ne (ha : Accepted s p pos q) (hpos : pos = ARMULET) (hq : q ≠ ARMULET) : Suits s p pos := by
  rcases ha.cases with ⟨hslot, -⟩ | ⟨hone, -⟩ | ⟨hfifteen, -⟩
  · unfold typePosition at hslot
    unfold Suits
    split_ifs at hslot with hring htwo htwofinger
    · rw [hring.2]
      exact .inl hring.1
    · rw [if_pos htwo]
      trivial
    · rw [hpos] at htwofinger
      cases htwofinger
    · exact absurd (hslot.trans hpos) hq
  · rw [hpos] at hone
    cases hone
  · rw [hpos] at hfifteen
    cases hfifteen

/-- A success is safe only in an allowed slot. -/
theorem allowed_of_safely {s' : Wearer} {S : List Nat} {r : Nat} (hc : Cleared s p q S) (hp : Placed s s' p q S)
    (ha : Accepted s p pos q) (hsafe : PutOnSafely s s' p r) : Allowed (s.wearType p) q ∧ RingFree s p := by
  have hlow := ha.low
  have hinfo := hp.self.symm.trans hsafe.nWearInfo
  have hr : (r : Int) = q := by omega
  have hallowed : Allowed (s.wearType p) q := hr ▸ hsafe.allowed
  refine ⟨hallowed, fun htype ring hworn htwo => ?_⟩
  have hten : q = 10 := by
    rcases hallowed with h | ⟨h, -⟩ | ⟨h, -⟩ | ⟨h, -⟩ | ⟨h, -⟩ | ⟨h, -⟩
    · exact h.trans htype
    all_goals
      rw [htype] at h
      cases h
  subst hten
  -- The ring of two fingers stays on.
  have hstays : (9 : Nat) ∉ S := by
    intro hS
    rcases hc.only 9 hS with ⟨a, hmem, heq⟩ | h | ⟨h, -⟩
    · rcases mem_overlapped hmem with rfl | ⟨h, -⟩ | ⟨h, -⟩ | ⟨rfl, -⟩ | ⟨-, h⟩
      · cases heq
      · exact absurd (ha.right_of_twoHand h) (by decide)
      · cases h
      · cases heq
      · rw [htype] at h
        cases h
    · cases h
    · cases h
  have hring := (hp.worn_stays (a := RING) (by decide) hstays).trans hworn
  have hnone := hsafe.ok.apart.rings ring hring ((hp.wearType ring).trans htwo)
  rw [hp.worn, if_pos (by decide)] at hnone
  cases hnone

theorem puton_refused (h : s.isInInventory p = true → (s.world.items p).inst.nWearInfo ≠ WEAR_NONE) :
    ∃ r, r ≠ .success ∧ s.puton p pos = some (r, s.world) := by
  unfold puton
  by_cases hin : s.isInInventory p = false
  · exact ⟨.accessDenied, nofun, if_pos hin⟩
  · rw [if_neg hin, if_pos (h (Bool.eq_true_of_not_eq_false hin))]
    exact ⟨.notActable, nofun, rfl⟩

/-- What `Puton` does with an item that is carried and not worn, when no position is found. -/
theorem puton_of_translate_none (hin : s.isInInventory p = true)
    (hnew : (s.world.items p).inst.nWearInfo = WEAR_NONE) (htrans : s.translateWearPosition p pos = none) :
    s.puton p pos = some (.notActable, s.world) := by
  unfold puton
  rw [if_neg (by rw [hin]; exact Bool.noConfusion), if_neg (not_not.mpr hnew), htrans]

/-- An accepted position in the spare range is past the end of the array that `Puton` writes. -/
theorem puton_spare (hin : s.isInInventory p = true) (hnew : (s.world.items p).inst.nWearInfo = WEAR_NONE)
    (hrange : MAX_ITEM_WEAR ≤ pos) (htrans : s.translateWearPosition p pos = some (pos, [])) :
    s.puton p pos = none := by
  unfold puton
  rw [if_neg (by rw [hin]; exact Bool.noConfusion), if_neg (not_not.mpr hnew), htrans]
  exact if_neg (not_lt.mpr hrange)

/-- **What `Puton` comes to**: a refusal that changes nothing, an index past the array, or a success. -/
theorem puton_cases (hok : WearOk s) (hmem : p ∈ (s.world.inv (bag s.me)).vList) (pos : Int) :
    ((∃ r, r ≠ .success ∧ s.puton p pos = some (r, s.world)) ∧ Careful s p pos) ∨
    (s.puton p pos = none ∧ ¬Careful s p pos) ∨
    ∃ q S w₂, s.puton p pos = some (.success, w₂) ∧ (s.world.items p).inst.nWearInfo = WEAR_NONE ∧
      Accepted s p pos q ∧ Cleared s p q S ∧ Placed s (s.withWorld w₂) p q S ∧ (Careful s p pos ↔ Suits s p pos) := by
  by_cases hready : s.isInInventory p = true ∧ (s.world.items p).inst.nWearInfo = WEAR_NONE
  · obtain ⟨hin, hnew⟩ := hready
    by_cases hrange : MAX_ITEM_WEAR ≤ pos ∧ pos < MAX_SPARE_ITEM_WEAR
    · refine .inr (.inl ⟨?_, fun h => (h hin hnew).1 hrange⟩)
      have htrans : s.translateWearPosition p pos = some (pos, []) := if_pos hrange
      exact puton_spare hin hnew hrange.1 htrans
    · have hcareful : Careful s p pos ↔ ((s.translateWearPosition p pos).isSome →
          (pos = ARMULET ∧ Locked s.world s.me 8) ∨ Suits s p pos) :=
        ⟨fun h => (h hin hnew).2, fun h _ _ => ⟨hrange, h⟩⟩
      cases htrans : s.translateWearPosition p pos with
      | none =>
        refine .inl ⟨⟨.notActable, nofun, puton_of_translate_none hin hnew htrans⟩, hcareful.mpr fun h => ?_⟩
        rw [htrans] at h
        cases h
      | some a =>
        obtain ⟨q, l⟩ := a
        obtain ⟨ha, hl⟩ := translate_cases hrange htrans
        by_cases hlock : q = ARMULET ∧ Locked s.world s.me 8
        · refine .inl ⟨⟨.notActable, nofun, ?_⟩, hcareful.mpr fun _ => .inl ⟨ha.armulet hlock.1, hlock.2⟩⟩
          obtain ⟨rfl, hlock⟩ := hlock
          exact puton_locked hok hin hnew htrans hl hlock
        · obtain ⟨w₂, S, hsuccess, hp, hc⟩ := puton_placed hok hmem hin hnew htrans hl ha hlock
          refine .inr (.inr ⟨q, S, w₂, hsuccess, hnew, ha, hc, hp, hcareful.trans ⟨fun h => ?_, fun h _ => .inr h⟩⟩)
          rcases h (by rw [htrans]; rfl) with h | h
          · exact ha.suits_of_ne h.1 fun hq => hlock ⟨hq, h.2⟩
          · exact h
  · exact .inl ⟨puton_refused fun hin hnew => hready ⟨hin, hnew⟩, fun hin hnew => absurd ⟨hin, hnew⟩ hready⟩

/-- **When `Puton` does what it should**, in any state. -/
theorem sound_iff_careful (hok : WearOk s) (hmem : p ∈ (s.world.inv (bag s.me)).vList) (pos : Int) :
    Sound s p pos ↔ Careful s p pos := by
  rcases puton_cases hok hmem pos with ⟨⟨r, hr, hrun⟩, hcareful⟩ | ⟨hnone, hcareless⟩ |
    ⟨q, S, w₂, hrun, hnew, ha, hc, hp, hcareful⟩
  · exact iff_of_true ⟨r, s.world, hrun, fun h => absurd h hr, fun _ => ⟨rfl, fun _ => rfl⟩⟩ hcareful
  · refine iff_of_false ?_ hcareless
    rintro ⟨r, w', hrun, -⟩
    rw [hnone] at hrun
    cases hrun
  · rw [hcareful, ← allowed_iff_suits ha]
    constructor
    · rintro ⟨r, w', hrun', hsafe, -⟩
      obtain ⟨rfl, rfl⟩ := Prod.mk.inj (Option.some.inj (hrun.symm.trans hrun'))
      obtain ⟨r, hsafe⟩ := hsafe rfl
      exact allowed_of_safely hc hp ha hsafe
    · rintro ⟨hallowed, hring⟩
      exact ⟨.success, w₂, hrun, fun _ => ⟨_, putOnSafely_of_placed hok ha hallowed hring hc hp hmem hnew⟩,
        fun h => absurd rfl h⟩

/-- A careful call keeps what the worn items keep. -/
theorem WearOk.puton {r : ResultCode} (hok : WearOk s) (hmem : p ∈ (s.world.inv (bag s.me)).vList)
    (hcareful : Careful s p pos) (hrun : s.puton p pos = some (r, w')) : WearOk (s.withWorld w') := by
  rcases puton_cases hok hmem pos with ⟨⟨r, -, h⟩, -⟩ | ⟨-, hcareless⟩ | ⟨q, S, w₂, h, hnew, ha, hc, hp, hiff⟩
  · obtain ⟨rfl, rfl⟩ := Prod.mk.inj (Option.some.inj (h.symm.trans hrun))
    exact hok
  · exact absurd hcareful hcareless
  · obtain ⟨rfl, rfl⟩ := Prod.mk.inj (Option.some.inj (h.symm.trans hrun))
    obtain ⟨hallowed, hring⟩ := (allowed_iff_suits ha).mpr (hiff.mp hcareful)
    exact (putOnSafely_of_placed hok ha hallowed hring hc hp hmem hnew).ok

end

end Wearer

end RZEmulator.Chihiro
