import RZEmulator.Chihiro.Arrival

/-!
# Items name their whereabouts

`GoodsOk` is what the handlers of all item messages keep. Beyond `WorldOk` it says that an item which names
an owner is in that owner's inventory, so that a look at the item alone tells where it is. Whatever is taken
out of an inventory names nobody, until it is put into another one.
-/

namespace RZEmulator.Chihiro.World

open Item (Alike)

variable {w w' : World} {r : InvRef} {p q x : ItemPtr} {c : Int}

/-- What an item says of its whereabouts is true, as far as it names a player in the pool. -/
structure Claim (w : World) (p : ItemPtr) : Prop where
  inventory : (w.items p).isInInventory = true → w.playerPool (w.items p).inst.OwnerHandle = true →
    p ∈ (w.inv (bag (w.items p).inst.OwnerHandle)).vList
  storage : (w.items p).isInStorage = true → w.playerPool (w.items p).inst.OwnerHandle = true →
    p ∈ (w.inv (locker (w.items p).inst.OwnerHandle)).vList

/-- What the handlers of item messages keep. The players in the pool are logged in, have an account and a
legal amount of gold in the storage. -/
structure GoodsOk (w : World) : Prop extends WorldOk w where
  online : ∀ h, w.playerPool h = true → (w.players h).loginComplete = true ∧ (w.players h).accountId ≠ 0
  storageGold : ∀ h, w.playerPool h = true →
    0 ≤ (w.players h).nStorageGold ∧ (w.players h).nStorageGold ≤ MAX_GOLD_FOR_STORAGE
  claims : ∀ k p, w.itemPool k = some p → Claim w p

theorem Claim.of_isFree (hfree : (w.items p).isFree = true) : Claim w p := by
  simp only [Item.isFree, Bool.and_eq_true, Bool.not_eq_true'] at hfree
  exact ⟨fun h => absurd (hfree.1.symm.trans h) (by decide), fun h => absurd (hfree.2.symm.trans h) (by decide)⟩

/-- An item that says what it said and is where it was. -/
theorem Claim.alike (hclaim : Claim w p) (halike : Alike (w.items p) (w'.items p))
    (hpool : w'.playerPool = w.playerPool)
    (hkept : ∀ r, p ∈ (w.inv r).vList → p ∈ (w'.inv r).vList) : Claim w' p := by
  refine ⟨fun hin hplayer => ?_, fun hin hplayer => ?_⟩
  · rw [halike.isInInventory] at hin
    rw [halike.OwnerHandle] at hplayer ⊢
    exact hkept _ (hclaim.inventory hin (hpool ▸ hplayer))
  · rw [halike.isInStorage] at hin
    rw [halike.OwnerHandle] at hplayer ⊢
    exact hkept _ (hclaim.storage hin (hpool ▸ hplayer))

namespace GoodsOk

/-- Of a world with true claims only the inventories and the claims have to be looked at again. -/
theorem later (hok : GoodsOk w) (hl : Later w w') (hok' : WorldOk w')
    (hclaims : ∀ k p, w'.itemPool k = some p → Claim w' p) : GoodsOk w' where
  toWorldOk := hok'
  online h hh := by
    rw [show (w'.players h).loginComplete = _ from congrArg Player.Persona.loginComplete (hl.persona h),
      show (w'.players h).accountId = _ from congrArg Player.Persona.accountId (hl.persona h)]
    exact hok.online h (hl.playerPool ▸ hh)
  storageGold h hh := by
    rw [show (w'.players h).nStorageGold = _ from congrArg Player.Persona.nStorageGold (hl.persona h)]
    exact hok.storageGold h (hl.playerPool ▸ hh)
  claims := hclaims

variable (hok : GoodsOk w)

include hok

theorem login (hr : w.playerPool r.owner = true) : (w.players r.owner).loginComplete = true :=
  (hok.online _ hr).1

theorem takenFrom (hr : w.playerPool r.owner = true) (ht : TakenFrom w w' r p x c) : GoodsOk w' := by
  refine hok.later ht.later ht.ok fun k q hk => ?_
  by_cases hqx : q = x
  · rw [hqx]
    exact .of_isFree (ht.free (hok.login hr))
  · have hq := (ht.pool k q hk).resolve_left hqx
    exact (hok.claims k q hq).alike (ht.alike q hqx) ht.later.playerPool fun r' hmem =>
      (ht.mem r' q).mpr ⟨hmem, hqx⟩

theorem erasedFrom (hr : w.playerPool r.owner = true) (he : ErasedFrom w w' r p c) : GoodsOk w' := by
  refine hok.later he.later he.ok fun k q hk => ?_
  rw [he.itemPool] at hk
  by_cases hgone : q = p ∧ (w.items p).inst.nCount ≤ c
  · rw [hgone.1]
    exact .of_isFree (he.free hgone.2 (hok.login hr))
  · have hstays : q = p → c < (w.items p).inst.nCount := fun heq => not_le.mp fun hle => hgone ⟨heq, hle⟩
    exact (hok.claims k q hk).alike (he.alike q hstays) he.later.playerPool fun r' hmem =>
      (he.mem r' q).mpr ⟨hmem, hstays⟩

theorem putInto (hx : (w.items x).isFree = true) (hp : PutInto w w' r x q c) : GoodsOk w' := by
  refine hok.later hp.later hp.ok fun k a hk => ?_
  by_cases hax : a = x
  · subst hax
    by_cases hqx : q = a
    · obtain ⟨howner, huid, hacc⟩ := hp.held hqx
      have hmem : a ∈ (w'.inv r).vList := (hp.mem r a).mpr (.inr ⟨rfl, rfl, hqx⟩)
      obtain ⟨h, kind⟩ := r
      refine ⟨fun hin _ => ?_, fun hin _ => ?_⟩
      · rw [howner]
        cases kind with
        | inventory => exact hmem
        | storage => simp [Item.isInInventory, huid, holderUid] at hin
      · rw [howner]
        cases kind with
        | inventory => simp [Item.isInStorage, hacc, holderAccount] at hin
        | storage => exact hmem
    · refine .of_isFree ?_
      rw [(hp.joined hqx).2.2]
      exact hx
  · have ha := (hp.pool k a hk).resolve_left hax
    exact (hok.claims k a ha).alike (hp.alike a hax) hp.later.playerPool fun r' hmem =>
      (hp.mem r' a).mpr (.inl hmem)

/-- A change of a free item that neither goods nor tags take note of. -/
theorem touched (hx : ∀ r, x ∉ (w.inv r).vList) (hfree : (w.items x).isFree = true) (ht : Touched x w w') :
    GoodsOk w' := by
  refine hok.later ht.later (ht.worldOk hok.toWorldOk hx) fun k q hk => ?_
  rw [ht.tags.itemPool] at hk
  by_cases hqx : q = x
  · subst hqx
    refine .of_isFree ?_
    rw [ht.isFree]
    exact hfree
  · refine (hok.claims k q hk).alike ?_ ht.later.playerPool fun r' hmem => ?_
    · rw [ht.quiet.other q hqx]
      exact .refl _
    · rw [ht.quiet.vList]
      exact hmem

end GoodsOk

end RZEmulator.Chihiro.World
