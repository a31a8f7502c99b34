import RZEmulator.Chihiro.Claims

/-!
# The index of an item

`nIdx` is the place an item has in its inventory when a character is read back, `m_nIndex` the last index its
inventory issued. `SameNumbers` says that a change touches neither; of `Push`, `Pop` and `Erase` only what
they do to the two is said here: an item that is attached raises the counter to its index, and what `Pop`
splits off carries the index of its stack (`CopyFrom`).
-/

namespace RZEmulator.Chihiro.World

variable {w w' w₁ w₂ : World} {r r' : InvRef} {p q x : ItemPtr} {h : Handle} {c : Int}

/-- No item has another index and no inventory has issued one. -/
structure SameNumbers (w w' : World) : Prop where
  nIdx : ∀ q, (w'.items q).inst.nIdx = (w.items q).inst.nIdx
  nIndex : ∀ r, (w'.inv r).nIndex = (w.inv r).nIndex

namespace SameNumbers

theorem refl (w : World) : SameNumbers w w := ⟨fun _ => rfl, fun _ => rfl⟩

theorem trans (h₁ : SameNumbers w w₁) (h₂ : SameNumbers w₁ w₂) : SameNumbers w w₂ :=
  ⟨fun q => (h₂.nIdx q).trans (h₁.nIdx q), fun r => (h₂.nIndex r).trans (h₁.nIndex r)⟩

theorem updItem (w : World) (p : ItemPtr) {f : Item → Item} (hf : ∀ i, (f i).inst.nIdx = i.inst.nIdx) :
    SameNumbers w (w.updItem p f) := by
  refine ⟨fun q => ?_, fun _ => rfl⟩
  rw [updItem_items]
  split_ifs with hq
  · rw [hf, hq]
  · rfl

theorem updPlayer (w : World) (h : Handle) {g : Player → Player}
    (hg : ∀ a k, ((g a).inv k).nIndex = (a.inv k).nIndex) : SameNumbers w (w.updPlayer h g) := by
  refine ⟨fun _ => rfl, fun r => ?_⟩
  simp only [inv, updPlayer_players]
  split_ifs with hr
  · rw [hg, hr]
  · rfl

theorem updInv (w : World) (r : InvRef) {u : Inventory → Inventory} (hu : ∀ i, (u i).nIndex = i.nIndex) :
    SameNumbers w (w.updInv r u) := by
  refine ⟨fun _ => rfl, fun r' => ?_⟩
  rw [updInv_inv]
  split_ifs with hr
  · rw [hu, hr]
  · rfl

theorem allocItemHandle (w : World) (p : ItemPtr) : SameNumbers w (w.allocItemHandle p) :=
  ⟨(updItem w p (f := (·.assignHandle w.nItemTop (w.nItemIndex + 1))) fun _ => rfl).nIdx, fun _ => rfl⟩

theorem updateWeightWithInventory (w : World) (h : Handle) :
    SameNumbers w (w.updateWeightWithInventory h) := by
  apply updPlayer w h
  intro a k
  cases k <;> rfl

end SameNumbers

/-! ## The event receiver -/

theorem putonItem_sameNumbers {pos : Nat} (hrun : w.putonItem h pos p = some w') : SameNumbers w w' := by
  simp only [putonItem, Option.bind_eq_bind, Option.bind_eq_some_iff, Option.pure_def,
    Option.some.injEq] at hrun
  obtain ⟨base, -, w₁, hw₁, weight, -, rfl⟩ := hrun
  refine SameNumbers.trans ?_ (.updateWeightWithInventory _ h)
  refine SameNumbers.trans ?_ (.updInv w₁ _ fun _ => rfl)
  have hwear : ∀ v : World, v.unitPutonItem h pos p = some w₁ → SameNumbers v w₁ := fun v hv => by
    unfold unitPutonItem at hv
    split_ifs at hv
    obtain rfl := Option.some.inj hv
    refine SameNumbers.trans (.updPlayer v h fun a k => ?_) (.updItem _ p fun _ => rfl)
    cases k <;> rfl
  refine SameNumbers.trans ?_ (hwear _ hw₁)
  split_ifs
  · apply SameNumbers.updPlayer w h
    intro a k
    cases k <;> rfl
  · exact .refl w

theorem takeOver_sameNumbers (hrun : w.takeOver r p = some w') : SameNumbers w w' := by
  have howner : ∀ uid acc, SameNumbers w (w.updItem p (·.setOwnerInfo r.owner uid acc)) :=
    fun uid acc => .updItem w p fun _ => rfl
  unfold takeOver at hrun
  split at hrun
  · split_ifs at hrun
    · exact (howner _ _).trans (putonItem_sameNumbers hrun)
    · obtain rfl := Option.some.inj hrun
      exact howner _ _
  · obtain rfl := Option.some.inj hrun
    exact howner _ _

theorem onAdd_sameNumbers (hrun : w.onAdd r p = some w') : SameNumbers w w' := by
  obtain ⟨w₁, hw₁, rfl⟩ := Option.map_eq_some_iff.mp hrun
  have hidentify : SameNumbers w₁ (w₁.identify p) := by
    unfold identify
    split_ifs
    · exact .allocItemHandle w₁ p
    · exact .refl w₁
  exact ((takeOver_sameNumbers hw₁).trans hidentify).trans (.updateWeightWithInventory _ _)

theorem onRemove_sameNumbers (w : World) (r : InvRef) (p : ItemPtr) : SameNumbers w (w.onRemove r p) := by
  refine SameNumbers.trans ?_ (.updateWeightWithInventory _ _)
  have howner : SameNumbers w (w.updItem p (·.setOwnerInfo 0 0 0)) := .updItem w p fun _ => rfl
  have hcard : ∀ v : World, SameNumbers v (v.unBindSkillCard p) := fun v => by
    unfold unBindSkillCard
    split
    · exact .refl v
    · split_ifs
      · exact .updItem v p fun _ => rfl
      · exact .refl v
  unfold giveUp
  split_ifs
  · split
    · exact howner.trans (hcard _)
    · exact howner
  · exact .refl w

/-! ## The operations -/

theorem carry_sameNumbers (w : World) (r : InvRef) (p : ItemPtr) (d : ℚ) : SameNumbers w (w.carry r p d) := by
  unfold carry
  split_ifs
  · exact .updInv w r fun _ => rfl
  · exact .updInv w r fun _ => rfl

theorem setCount_sameNumbers (w : World) (r : InvRef) (p : ItemPtr) (n : Int) :
    SameNumbers w (w.setCount r p n) :=
  (SameNumbers.updItem w p (f := (·.setCount n)) fun _ => rfl).trans (.updateWeightWithInventory _ _)

theorem rawPush_sameNumbers (hrun : w.rawPush r p = some w') : SameNumbers w w' := by
  obtain ⟨expires, -, hadd⟩ := Option.bind_eq_some_iff.mp hrun
  have henter : SameNumbers w (w.updInv r (·.enter p expires)) := .updInv w r fun _ => rfl
  have hplace : SameNumbers _ ((w.updInv r (·.enter p expires)).updItem p
      (·.setStorageIndex (w.inv r).vList.length)) := .updItem _ p fun _ => rfl
  exact (henter.trans hplace).trans (onAdd_sameNumbers hadd)

theorem rawPop_sameNumbers (hrun : w.rawPop r p = some w') : SameNumbers w w' := by
  obtain ⟨back, -, rfl⟩ := Option.map_eq_some_iff.mp hrun
  refine (onRemove_sameNumbers w r p).trans ?_
  unfold takeOut
  split_ifs
  · refine SameNumbers.trans ?_ (.updInv _ r fun _ => rfl)
    exact .updItem _ back fun _ => rfl
  · exact .updInv _ r fun _ => rfl

/-- What `Pop` gives carries the index of the stack; every other index is what it was. -/
theorem pop_numbers {o : Option ItemPtr} (hrun : w.pop r p c = some (o, w')) :
    (∀ q, q ≠ w.nextItem → (w'.items q).inst.nIdx = (w.items q).inst.nIdx) ∧
      (∀ x, o = some x → (w'.items x).inst.nIdx = (w.items p).inst.nIdx) ∧
        ∀ r', (w'.inv r').nIndex = (w.inv r').nIndex := by
  unfold pop at hrun
  split_ifs at hrun
  · simp only [Option.bind_eq_bind, Option.bind_eq_some_iff, Option.pure_def, Option.some.injEq,
      Prod.mk.injEq] at hrun
    obtain ⟨d, -, n, -, rfl, rfl⟩ := hrun
    have hsame := (carry_sameNumbers (w.divide p c) r p (-d)).trans (setCount_sameNumbers _ r p n)
    refine ⟨fun q hq => ?_, fun x hx => ?_, hsame.nIndex⟩
    · rw [hsame.nIdx, divide, updItem_items_of_ne _ _ _ hq]
      exact congrArg (fun i : Item => i.inst.nIdx) (if_neg hq)
    · obtain rfl := Option.some.inj hx
      rw [hsame.nIdx, divide, updItem_items_same]
      rfl
  · simp only [Option.bind_eq_bind, Option.bind_eq_some_iff, Option.pure_def, Option.some.injEq,
      Prod.mk.injEq] at hrun
    obtain ⟨d, -, w₁, hw₁, rfl, rfl⟩ := hrun
    have hsame := (carry_sameNumbers w r p (-d)).trans (rawPop_sameNumbers hw₁)
    refine ⟨fun q _ => hsame.nIdx q, fun x hx => ?_, hsame.nIndex⟩
    obtain rfl := Option.some.inj hx
    exact hsame.nIdx p
  · obtain ⟨rfl, rfl⟩ := Prod.mk.inj (Option.some.inj hrun)
    refine ⟨fun _ _ => rfl, fun x hx => ?_, fun _ => rfl⟩
    cases hx

/-- `Push` gives no index; an item that is attached raises the counter to the one it has. -/
theorem push_numbers (hrun : w.push r x c = some (q, w')) :
    (∀ a, (w'.items a).inst.nIdx = (w.items a).inst.nIdx) ∧
      ∀ r', (w'.inv r').nIndex = if r' = r ∧ w.joinTarget r x = none
        then max (w.inv r).nIndex (w.items x).inst.nIdx else (w.inv r').nIndex := by
  unfold push at hrun
  cases hjoin : w.joinTarget r x with
  | none =>
    rw [hjoin] at hrun
    simp only [Option.bind_eq_bind, Option.bind_eq_some_iff, Option.pure_def, Option.some.injEq,
      Prod.mk.injEq] at hrun
    obtain ⟨d, -, w₁, hw₁, rfl, rfl⟩ := hrun
    have hsame := (carry_sameNumbers w r x d).trans (rawPush_sameNumbers hw₁)
    refine ⟨hsame.nIdx, fun r' => ?_⟩
    rw [updInv_inv]
    by_cases hr : r' = r
    · rw [if_pos hr, if_pos ⟨hr, rfl⟩]
      dsimp only
      rw [hsame.nIndex, hsame.nIdx]
    · rw [if_neg hr, if_neg fun h => hr h.1, hsame.nIndex]
  | some e =>
    rw [hjoin] at hrun
    simp only [Option.bind_eq_bind, Option.bind_eq_some_iff, Option.pure_def, Option.some.injEq,
      Prod.mk.injEq] at hrun
    obtain ⟨d, -, n, -, rfl, rfl⟩ := hrun
    have hsame := (carry_sameNumbers w r e d).trans (setCount_sameNumbers _ r e n)
    refine ⟨hsame.nIdx, fun r' => ?_⟩
    rw [hsame.nIndex, if_neg fun h => by cases h.2]

theorem erase_sameNumbers (hrun : w.erase r p c = some w') : SameNumbers w w' := by
  unfold erase at hrun
  split_ifs at hrun
  · simp only [Option.bind_eq_bind, Option.bind_eq_some_iff, Option.pure_def, Option.some.injEq] at hrun
    obtain ⟨d, -, n, -, rfl⟩ := hrun
    exact (carry_sameNumbers w r p (-d)).trans (setCount_sameNumbers _ r p n)
  · simp only [Option.bind_eq_bind, Option.bind_eq_some_iff, Option.pure_def, Option.some.injEq] at hrun
    obtain ⟨d, -, w₁, hw₁, rfl⟩ := hrun
    exact ((carry_sameNumbers w r p (-d)).trans (rawPop_sameNumbers hw₁)).trans (.updItem w₁ p fun _ => rfl)

end RZEmulator.Chihiro.World
