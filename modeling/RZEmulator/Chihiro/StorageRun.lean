import RZEmulator.Chihiro.StorageMove
import RZEmulator.Chihiro.TradeExchange

/-!
# Runs of storage requests

The system in which any number of players send storage requests in any order, while the other handlers make
any other well-formed world of the present one. `conserves_iff` says of every request in every reachable
world exactly when it conserves what the player has: an item request does unless a joined stack overflows, a
gold request unless its amount is so negative that the balance it is to be added to cannot pay for it.
-/

namespace RZEmulator.Chihiro

open Lib

namespace World

variable {w w' : World} {me h : Handle} {r r' : InvRef} {p : ItemPtr} {c g s : Int} {packet : StoragePacket}

/-! ## What a request should do -/

/-- `count` of the gold in the inventory has gone to the storage. -/
def goldMoved (w : World) (me : Handle) (count : Int) : World :=
  (w.setGold me ((w.players me).nGold - count)).setStorageGold me ((w.players me).nStorageGold + count)

/-- What a request does if it does anything. -/
def StorageEffect (w w' : World) (me : Handle) (packet : StoragePacket) : Prop :=
  match packet.mode with
  | .itemInventoryToStorage => ∃ p, w.itemPool packet.item_handle = some p ∧ 0 < packet.count ∧
      Moved w w' (bag me) (locker me) p packet.count
  | .itemStorageToInventory => ∃ p, w.itemPool packet.item_handle = some p ∧ 0 < packet.count ∧
      Moved w w' (locker me) (bag me) p packet.count
  | .goldInventoryToStorage => w' = w.goldMoved me packet.count
  | .goldStorageToInventory => w' = w.goldMoved me (-packet.count)
  | .storageClose => w' = w.updPlayer me fun p => { p with bIsUsingStorage := false }
  | .other => False

/-- A request changes nothing or does what it says, and conserves what the player has in both places. -/
structure Conserves (w w' : World) (me : Handle) (packet : StoragePacket) : Prop where
  effect : w' = w ∨ StorageEffect w w' me packet
  gold : (w'.players me).nGold + (w'.players me).nStorageGold =
    (w.players me).nGold + (w.players me).nStorageGold
  legal : LegalGold w' me
  storageLegal : 0 ≤ (w'.players me).nStorageGold ∧ (w'.players me).nStorageGold ≤ MAX_GOLD_FOR_STORAGE
  units : ∀ code, units code w' (bag me) + units code w' (locker me) =
    units code w (bag me) + units code w (locker me)

/-- The amount of a gold request can be booked off the balance `g` and to the balance `s`, or is refused
because the balance `g` would exceed its maximum. -/
def GoldSound (g s max count : Int) : Prop := g - count < 2 ^ 63 ∧ (max < g - count ∨ 0 ≤ s + count)

/-- When a request is handled as it should be: it is turned down, or its units fit the stack they join, or
its amount is sound. -/
def StorageSound (w : World) (me : Handle) (packet : StoragePacket) : Prop :=
  w.storageBusy me = true ∨
    match packet.mode with
    | .itemInventoryToStorage => ∀ p, w.storageItem me packet = some p → (w.items p).isInInventory = true →
        w.isBeltCard me p = some false → w.canStore me p packet.count = some true →
          FitsStack w (locker me) p packet.count
    | .itemStorageToInventory => ∀ p, w.storageItem me packet = some p → (w.items p).isInStorage = true →
        w.canFetch me p packet.count = some true → FitsStack w (bag me) p packet.count
    | .goldInventoryToStorage => GoldSound (w.players me).nGold (w.players me).nStorageGold
        MAX_GOLD_FOR_INVENTORY packet.count
    | .goldStorageToInventory => GoldSound (w.players me).nStorageGold (w.players me).nGold
        MAX_GOLD_FOR_STORAGE packet.count
    | .storageClose => True
    | .other => True

/-! ## Gold -/

@[simp] theorem setStorageGold_nStorageGold (w : World) (h : Handle) (n : Int) (k : Handle) :
    ((w.setStorageGold h n).players k).nStorageGold = if k = h then n else (w.players k).nStorageGold := by
  rw [setStorageGold, updPlayer_players]
  split_ifs <;> rfl

@[simp] theorem setStorageGold_nGold (w : World) (h : Handle) (n : Int) (k : Handle) :
    ((w.setStorageGold h n).players k).nGold = (w.players k).nGold := by
  rw [setStorageGold, updPlayer_players]
  split_ifs with hk
  · rw [hk]
  · rfl

@[simp] theorem setGold_nStorageGold (w : World) (h : Handle) (n : Int) (k : Handle) :
    ((w.setGold h n).players k).nStorageGold = (w.players k).nStorageGold := by
  rw [setGold, updPlayer_players]
  split_ifs with hk
  · rw [hk]
  · rfl

theorem setStorageGold_self (w : World) (h : Handle) :
    w.setStorageGold h (w.players h).nStorageGold = w := by
  have hplayers : (w.setStorageGold h (w.players h).nStorageGold).players = w.players := by
    funext k
    rw [setStorageGold, updPlayer_players]
    split_ifs with hk
    · rw [hk]
    · rfl
  exact congrArg (fun ps => { w with players := ps }) hplayers

theorem setStorageGold_setGold (w : World) (h : Handle) (m n : Int) :
    (w.setStorageGold h m).setGold h n = (w.setGold h n).setStorageGold h m := by
  simp only [setGold, setStorageGold, updPlayer]
  congr 1
  funext k
  split_ifs <;> rfl

/-- `ChangeGold`, by the amount alone. -/
theorem changeGold_cases (w : World) (h : Handle) (n : Int) (hg : LegalGold w h) :
    w.changeGold h n = if MAX_GOLD_FOR_INVENTORY < n then (.tooMuchMoney, w)
      else if n < 0 then (.tooCheap, w) else (.success, w.setGold h n) := by
  obtain ⟨hlow, hhigh⟩ := hg
  split_ifs with hmax hneg
  · rw [changeGold, if_pos (by omega), if_pos hmax]
  · exact changeGold_of_neg hlow hneg
  · exact changeGold_of_legal (by omega) (by omega)

/-- `ChangeStorageGold`, by the amount alone. -/
theorem changeStorageGold_cases (w : World) (h : Handle) (n : Int)
    (hg : 0 ≤ (w.players h).nStorageGold ∧ (w.players h).nStorageGold ≤ MAX_GOLD_FOR_STORAGE) :
    w.changeStorageGold h n = if MAX_GOLD_FOR_STORAGE < n then (.tooMuchMoney, w)
      else if n < 0 then (.tooCheap, w) else (.success, w.setStorageGold h n) := by
  obtain ⟨hlow, hhigh⟩ := hg
  split_ifs with hmax hneg
  · rw [changeStorageGold, if_pos (by omega), if_pos hmax]
  · have hle : ¬n > MAX_GOLD_FOR_STORAGE := by omega
    rw [changeStorageGold, if_pos (by omega), if_neg hle, if_pos hneg]
  · unfold changeStorageGold
    split_ifs with hne
    · rfl
    · rw [← not_not.mp hne, setStorageGold_self]

/-- A balance `f` pays `c` to a balance `t`: refused where it has not got as much, where the other one would get too much and where
it may not be left with what remains. -/
theorem transferGold_eq {f t maxf maxt : Int} {pay : Int → ResultCode × World} {paid : Int → World} (held : World → Int)
    (receive : World → Int → ResultCode × World) (booked : Int → Int → World) (hc : IsInt64 c) (hf : 0 ≤ f ∧ f ≤ maxf)
    (ht : 0 ≤ t ∧ t ≤ maxt) (hmaxf : maxf < 2 ^ 62) (hmaxt : maxt < 2 ^ 62)
    (hpay : ∀ n, pay n = if maxf < n then (.tooMuchMoney, w) else if n < 0 then (.tooCheap, w) else (.success, paid n))
    (hheld : ∀ n, held (paid n) = t)
    (hreceive : ∀ n m, (receive (paid n) m).2 = if maxt < m then paid n else if m < 0 then paid n else booked n m) :
    (if f < c then some w
      else (add64 t c).bind fun sum =>
        if sum > maxt then some w
        else (add64 f (-c)).bind fun rest =>
          match pay rest with
          | (.success, w) => (add64 (held w) c).map fun sum => (receive w sum).2
          | (_, w) => some w) =
      if 2 ^ 63 ≤ f - c then none
      else if f < c ∨ maxt < t + c ∨ maxf < f - c then some w
      else if t + c < 0 then some (paid (f - c)) else some (booked (f - c) (t + c)) := by
  unfold IsInt64 at hc
  by_cases hlt : f < c
  · rw [if_pos hlt, if_neg (by omega), if_pos (.inl hlt)]
  have hsum : IsInt64 (t + c) := by
    unfold IsInt64
    omega
  rw [if_neg hlt, add64_of_isInt64 hsum, Option.bind_some]
  by_cases hmax : t + c > maxt
  · rw [if_pos hmax, if_neg (by omega), if_pos (.inr (.inl hmax))]
  rw [if_neg hmax]
  by_cases hover : 2 ^ 63 ≤ f - c
  · have hno : ¬IsInt64 (f + -c) := by
      unfold IsInt64
      omega
    rw [if_pos hover, add64, if_neg hno, Option.bind_none]
  have hrest : IsInt64 (f + -c) := by
    unfold IsInt64
    omega
  rw [if_neg hover, add64_of_isInt64 hrest, Option.bind_some, ← sub_eq_add_neg, hpay]
  by_cases hrich : maxf < f - c
  · rw [if_pos hrich, if_pos (.inr (.inr hrich))]
  rw [if_neg hrich, if_neg (by omega), if_neg (by omega)]
  simp only [hheld, add64_of_isInt64 hsum, Option.map_some]
  rw [hreceive, if_neg hmax]
  split_ifs with hneg
  · rfl
  · rfl

/-- The four ways `GOLD_INVENTORY_TO_STORAGE` can end. -/
theorem storeGold_eq (hok : GoodsOk w) (hme : w.playerPool me = true) (hc : IsInt64 c)
    (hg : g = (w.players me).nGold) (hs : s = (w.players me).nStorageGold) :
    w.storeGold me c = if 2 ^ 63 ≤ g - c then none
      else if g < c ∨ MAX_GOLD_FOR_STORAGE < s + c ∨ MAX_GOLD_FOR_INVENTORY < g - c then some w
      else if s + c < 0 then some (w.setGold me (g - c)) else some (w.goldMoved me c) := by
  have hgold := hok.gold me hme
  have hstore := hok.storageGold me hme
  subst hg hs
  refine transferGold_eq (fun w => (players w me).nStorageGold) (fun w => changeStorageGold w me)
    (fun n m => (w.setGold me n).setStorageGold me m) hc hgold hstore (by decide) (by decide)
    (fun n => changeGold_cases w me n hgold) (fun n => setGold_nStorageGold w me n me) fun n m => ?_
  rw [changeStorageGold_cases _ me _ (by rw [setGold_nStorageGold]; exact hstore)]
  split_ifs with hmax hneg
  · rfl
  · rfl
  · rfl

/-- The four ways `GOLD_STORAGE_TO_INVENTORY` can end. -/
theorem fetchGold_eq (hok : GoodsOk w) (hme : w.playerPool me = true) (hc : IsInt64 c)
    (hg : g = (w.players me).nGold) (hs : s = (w.players me).nStorageGold) :
    w.fetchGold me c = if 2 ^ 63 ≤ s - c then none
      else if s < c ∨ MAX_GOLD_FOR_INVENTORY < g + c ∨ MAX_GOLD_FOR_STORAGE < s - c then some w
      else if g + c < 0 then some (w.setStorageGold me (s - c)) else some (w.goldMoved me (-c)) := by
  have hgold := hok.gold me hme
  have hstore := hok.storageGold me hme
  subst hg hs
  have hmoved : w.goldMoved me (-c) =
      (w.setStorageGold me ((w.players me).nStorageGold - c)).setGold me ((w.players me).nGold + c) := by
    rw [setStorageGold_setGold, goldMoved, sub_neg_eq_add, ← sub_eq_add_neg]
  rw [hmoved]
  refine transferGold_eq (fun w => (players w me).nGold) (fun w => changeGold w me)
    (fun n m => (w.setStorageGold me n).setGold me m) hc hstore hgold (by decide) (by decide)
    (fun n => changeStorageGold_cases w me n hstore) (fun n => setStorageGold_nGold w me n me) fun n m => ?_
  rw [changeGold_cases _ me _ (by unfold LegalGold; rw [setStorageGold_nGold]; exact hgold)]
  split_ifs with hmax hneg
  · rfl
  · rfl
  · rfl

/-- A player may come to any legal amounts of gold. -/
theorem GoodsOk.setGolds (hok : GoodsOk w) (me : Handle) (hg : 0 ≤ g ∧ g ≤ MAX_GOLD_FOR_INVENTORY)
    (hs : 0 ≤ s ∧ s ≤ MAX_GOLD_FOR_STORAGE) : GoodsOk ((w.setGold me g).setStorageGold me s) := by
  have hfield : ∀ {α : Type} (f : Player → α), (∀ (a : Player) m n, f { a with nGold := m, nStorageGold := n } = f a) →
      ∀ k, f (((w.setGold me g).setStorageGold me s).players k) = f (w.players k) := fun f hf k => by
    simp only [setStorageGold, setGold, updPlayer_players, if_true]
    by_cases hk : k = me
    · rw [if_pos hk, hk]
      exact hf (w.players me) g s
    · rw [if_neg hk, if_neg hk]
  have hsame : SameGoods w ((w.setGold me g).setStorageGold me s) := by
    refine ⟨rfl, rfl, rfl, rfl, rfl, rfl, funext fun r => ?_, hfield (·.uid) fun _ _ _ => rfl,
      hfield (·.inWorld) fun _ _ _ => rfl, hfield (·.aBindSummonCard) fun _ _ _ => rfl⟩
    refine hfield (·.inv r.kind) (fun a _ _ => ?_) r.owner
    cases r.kind <;> rfl
  refine ⟨hok.toWorldOk.sameGoods hsame (fun k hk => ?_) fun k hk => ?_, fun k hk => ?_, fun k hk => ?_,
    fun j p hj => ?_⟩
  · rw [setStorageGold_nGold, setGold_nGold]
    split_ifs
    · exact hg
    · exact hok.gold k hk
  · rw [hfield (·.trade) fun _ _ _ => rfl]
    exact hok.window k hk
  · rw [hfield (·.loginComplete) fun _ _ _ => rfl, hfield (·.accountId) fun _ _ _ => rfl]
    exact hok.online k hk
  · rw [setStorageGold_nStorageGold, setGold_nStorageGold]
    split_ifs
    · exact hs
    · exact hok.storageGold k hk
  · obtain ⟨hin, hst⟩ := hok.claims j p hj
    refine ⟨fun h₁ h₂ => ?_, fun h₁ h₂ => ?_⟩
    · rw [hsame.inv]
      exact hin h₁ h₂
    · rw [hsame.inv]
      exact hst h₁ h₂

theorem goldMoved_nGold (w : World) (me : Handle) (c : Int) :
    ((w.goldMoved me c).players me).nGold = (w.players me).nGold - c := by
  rw [goldMoved, setStorageGold_nGold, setGold_nGold, if_pos rfl]

theorem goldMoved_nStorageGold (w : World) (me : Handle) (c : Int) :
    ((w.goldMoved me c).players me).nStorageGold = (w.players me).nStorageGold + c := by
  rw [goldMoved, setStorageGold_nStorageGold, if_pos rfl]

theorem goldMoved_units (w : World) (me : Handle) (c code : Int) (r : InvRef) :
    units code (w.goldMoved me c) r = units code w r := by
  have hinv : (w.goldMoved me c).inv r = w.inv r := by
    simp only [goldMoved, setGold, setStorageGold, inv, updPlayer_players]
    split_ifs with hr
    · rw [hr]
      cases r.kind <;> rfl
    · rfl
  exact total_congr _ (by rw [hinv]) fun _ _ => rfl

theorem Conserves.refl (hok : GoodsOk w) (hme : w.playerPool me = true) : Conserves w w me packet :=
  ⟨.inl rfl, rfl, hok.gold me hme, hok.storageGold me hme, fun _ => rfl⟩

theorem Conserves.of_goldMoved (hg : 0 ≤ (w.players me).nGold - c ∧ (w.players me).nGold - c ≤ MAX_GOLD_FOR_INVENTORY)
    (hs : 0 ≤ (w.players me).nStorageGold + c ∧ (w.players me).nStorageGold + c ≤ MAX_GOLD_FOR_STORAGE)
    (heffect : StorageEffect w (w.goldMoved me c) me packet) : Conserves w (w.goldMoved me c) me packet := by
  refine ⟨.inr heffect, ?_, ?_, ?_, fun code => ?_⟩
  · rw [goldMoved_nGold, goldMoved_nStorageGold]
    omega
  · rw [LegalGold, goldMoved_nGold]
    exact hg
  · rw [goldMoved_nStorageGold]
    exact hs
  · rw [goldMoved_units, goldMoved_units]

/-- **A deposit of gold.** -/
theorem storeGold_conserves_iff (hok : GoodsOk w) (hme : w.playerPool me = true) (hc : IsInt64 packet.count)
    (hmode : packet.mode = .goldInventoryToStorage) :
    (∃ w', w.storeGold me packet.count = some w' ∧ Conserves w w' me packet) ↔
      GoldSound (w.players me).nGold (w.players me).nStorageGold MAX_GOLD_FOR_INVENTORY packet.count := by
  have hgold := hok.gold me hme
  have hstore := hok.storageGold me hme
  have hmax : MAX_GOLD_FOR_STORAGE = 100000000000 := rfl
  unfold GoldSound
  rw [storeGold_eq hok hme hc rfl rfl]
  split_ifs with hover hstay hneg
  · simp only [false_and, exists_false, false_iff]
    omega
  · simp only [Option.some.injEq, exists_eq_left']
    refine ⟨fun _ => ?_, fun _ => .refl hok hme⟩
    omega
  · simp only [Option.some.injEq, exists_eq_left']
    refine ⟨fun h => ?_, fun h => ?_⟩
    · have hsum := h.gold
      rw [setGold_nGold, if_pos rfl, setGold_nStorageGold] at hsum
      omega
    · omega
  · simp only [Option.some.injEq, exists_eq_left']
    refine ⟨fun _ => by omega, fun _ => .of_goldMoved (by omega) (by omega) ?_⟩
    simp only [StorageEffect, hmode]

/-- **A withdrawal of gold.** -/
theorem fetchGold_conserves_iff (hok : GoodsOk w) (hme : w.playerPool me = true) (hc : IsInt64 packet.count)
    (hmode : packet.mode = .goldStorageToInventory) :
    (∃ w', w.fetchGold me packet.count = some w' ∧ Conserves w w' me packet) ↔
      GoldSound (w.players me).nStorageGold (w.players me).nGold MAX_GOLD_FOR_STORAGE packet.count := by
  have hgold := hok.gold me hme
  have hstore := hok.storageGold me hme
  have hmax : MAX_GOLD_FOR_INVENTORY = 100000000000 := rfl
  unfold GoldSound
  rw [fetchGold_eq hok hme hc rfl rfl]
  split_ifs with hover hstay hneg
  · simp only [false_and, exists_false, false_iff]
    omega
  · simp only [Option.some.injEq, exists_eq_left']
    refine ⟨fun _ => ?_, fun _ => .refl hok hme⟩
    omega
  · simp only [Option.some.injEq, exists_eq_left']
    refine ⟨fun h => ?_, fun h => ?_⟩
    · have hsum := h.gold
      rw [setStorageGold_nGold, setStorageGold_nStorageGold, if_pos rfl] at hsum
      omega
    · omega
  · simp only [Option.some.injEq, exists_eq_left']
    refine ⟨fun _ => by omega, fun _ => .of_goldMoved (by omega) (by omega) ?_⟩
    simp only [StorageEffect, hmode]

/-! ## Items -/

theorem locker_ne_bag (me : Handle) : locker me ≠ bag me := fun h => by cases congrArg InvRef.kind h

theorem Moved.gold (hm : Moved w w' r r' p c) (h : Handle) : (w'.players h).nGold = (w.players h).nGold :=
  congrArg Player.Persona.nGold (hm.persona h)

theorem Moved.storageGold (hm : Moved w w' r r' p c) (h : Handle) :
    (w'.players h).nStorageGold = (w.players h).nStorageGold :=
  congrArg Player.Persona.nStorageGold (hm.persona h)

theorem Conserves.of_moved (hok : GoodsOk w) (hme : w.playerPool me = true)
    (hr : (r = bag me ∧ r' = locker me) ∨ (r = locker me ∧ r' = bag me)) (hm : Moved w w' r r' p c)
    (heffect : StorageEffect w w' me packet) : Conserves w w' me packet := by
  refine ⟨.inr heffect, ?_, ?_, ?_, fun code => ?_⟩
  · rw [hm.gold, hm.storageGold]
  · rw [LegalGold, hm.gold]
    exact hok.gold me hme
  · rw [hm.storageGold]
    exact hok.storageGold me hme
  · have hne := locker_ne_bag me
    rcases hr with ⟨rfl, rfl⟩ | ⟨rfl, rfl⟩
    · rw [hm.units, hm.units]
      simp only [hne, hne.symm, false_and, true_and, if_false]
      omega
    · rw [hm.units, hm.units]
      simp only [hne, hne.symm, false_and, true_and, if_false]
      omega

/-- The last step of both `Move...` functions. -/
theorem Movable.move (hm : Movable w r r' p c) (reindex : Bool)
    (hwhole : (w.items p).isJoinable = true ∨ (w.items p).inst.nCount = c) {o : Option (Bool × World)}
    (ho : o = if ¬(w.items p).isJoinable then (w.moveWhole r r' p c).map fun w => (true, w)
      else (w.movePart r r' p c reindex).map fun w => (true, w)) :
    (∀ b w', o = some (b, w') → GoodsOk w' ∧ Moved w w' r r' p c) ∧ (o.isSome ↔ FitsStack w r' p c) := by
  subst ho
  split_ifs with hjoin
  · refine ⟨fun b w' hrun => ?_, ?_⟩
    · obtain ⟨w₁, hw₁, heq⟩ := Option.map_eq_some_iff.mp hrun
      obtain ⟨-, rfl⟩ := Prod.mk.inj heq
      exact hm.movePart hw₁
    · rw [Option.isSome_map]
      exact hm.movePart_isSome
  · have hcount := hwhole.resolve_left hjoin
    have hno : (w.items p).isJoinable = false := by simpa using hjoin
    refine ⟨fun b w' hrun => ?_, ?_⟩
    · obtain ⟨w₁, hw₁, heq⟩ := Option.map_eq_some_iff.mp hrun
      obtain ⟨-, rfl⟩ := Prod.mk.inj heq
      exact hm.moveWhole hcount hw₁
    · rw [Option.isSome_map]
      refine ⟨fun _ e he => ?_, fun _ => hm.moveWhole_isSome hcount hno⟩
      rw [joinTarget, hno] at he
      cases he

theorem storageItem_eq_some (h : w.storageItem me packet = some p) :
    0 < packet.count ∧ w.itemPool packet.item_handle = some p ∧ (w.items p).inst.OwnerHandle = me := by
  unfold storageItem at h
  split_ifs at h with hpos
  obtain ⟨hpool, howner⟩ := Option.filter_eq_some_iff.mp h
  exact ⟨not_le.mp hpos, hpool, of_decide_eq_true howner⟩

/-- `canStore` has an answer; if it is yes, the item can be moved. -/
theorem canStore_spec (hok : GoodsOk w) (hme : w.playerPool me = true) (hitem : w.storageItem me packet = some p)
    (hin : (w.items p).isInInventory = true) : (w.canStore me p packet.count).isSome ∧
      (w.isBeltCard me p).isSome ∧ (w.canStore me p packet.count = some true →
        Movable w (bag me) (locker me) p packet.count ∧
          ((w.items p).isJoinable = true ∨ (w.items p).inst.nCount = packet.count)) := by
  obtain ⟨hpos, hpool, rfl⟩ := storageItem_eq_some hitem
  have hmem := (hok.claims _ p hpool).inventory hin hme
  obtain ⟨base, hbase⟩ := Option.isSome_iff_exists.mp ((hok.stocked _).based p hmem)
  have herasable : (w.isErasable (w.items p).inst.OwnerHandle p).isSome := by
    unfold isErasable
    rw [hbase]
    split_ifs <;> rfl
  refine ⟨?_, by rw [isBeltCard, hbase]; rfl, fun hcan => ?_⟩
  · obtain ⟨erasable, herasable⟩ := Option.isSome_iff_exists.mp herasable
    rw [canStore, herasable, Option.bind_some, hbase]
    cases erasable <;> rfl
  · obtain ⟨erasable, -, hcan⟩ := Option.bind_eq_some_iff.mp hcan
    cases erasable with
    | false => cases hcan
    | true =>
      rw [if_neg (by decide), hbase, Option.map_some, Option.some.injEq, decide_eq_true_eq] at hcan
      obtain ⟨-, -, -, hle, hwhole⟩ := hcan
      exact ⟨⟨hok, hme, locker_ne_bag _, hmem, (hok.held _ p hmem).coded rfl, hpos, hle⟩, hwhole⟩

/-- So has `canFetch`. -/
theorem canFetch_spec (hok : GoodsOk w) (hme : w.playerPool me = true) (hitem : w.storageItem me packet = some p)
    (hin : (w.items p).isInStorage = true) : (w.canFetch me p packet.count).isSome ∧
      (w.canFetch me p packet.count = some true → Movable w (locker me) (bag me) p packet.count ∧
        ((w.items p).isJoinable = true ∨ (w.items p).inst.nCount = packet.count)) := by
  obtain ⟨hpos, hpool, rfl⟩ := storageItem_eq_some hitem
  have hmem := (hok.claims _ p hpool).storage hin hme
  have hcheck := (hok.stocked _).check hmem
  have hcoded : (w.items p).inst.Code ≠ 0 := by
    unfold Item.isInStorage at hin
    simp only [Bool.and_eq_true, bne_iff_ne] at hin
    exact hin.2
  obtain ⟨base, hbase⟩ := Option.isSome_iff_exists.mp ((hok.stocked _).based p hmem)
  have htakeable : (w.isTakeable (w.items p).inst.OwnerHandle (w.items p).handle).isSome := by
    unfold isTakeable
    rw [(hok.held _ p hmem).pooled]
    dsimp only
    rw [Item.getWeight, hbase]
    split_ifs <;> rfl
  have hno : (some false).isSome ∧ (some false = some true → Movable w (locker (w.items p).inst.OwnerHandle)
      (bag (w.items p).inst.OwnerHandle) p packet.count ∧
        ((w.items p).isJoinable = true ∨ (w.items p).inst.nCount = packet.count)) := ⟨rfl, fun h => absurd h (by decide)⟩
  unfold canFetch
  rw [if_neg (not_not.mpr hin), if_neg (not_not.mpr hcheck)]
  by_cases husing : (w.players (w.items p).inst.OwnerHandle).bIsUsingStorage = true
  swap
  · rw [if_pos husing]
    exact hno
  rw [if_neg (not_not.mpr husing)]
  by_cases hacc : (w.items p).nAccountID ≠ (w.players (w.items p).inst.OwnerHandle).accountId
  · rw [if_pos hacc]
    exact hno
  rw [if_neg hacc]
  by_cases hle : (w.items p).inst.nCount < packet.count
  · rw [if_pos hle]
    exact hno
  rw [if_neg hle]
  by_cases hpart : ¬(w.items p).isJoinable = true ∧ (w.items p).inst.nCount ≠ packet.count
  · rw [if_pos hpart]
    exact hno
  rw [if_neg hpart]
  refine ⟨htakeable, fun _ => ⟨⟨hok, hme, (locker_ne_bag _).symm, hmem, hcoded, hpos, not_lt.mp hle⟩, ?_⟩⟩
  by_cases hjoin : (w.items p).isJoinable = true
  · exact .inl hjoin
  · exact .inr (not_not.mp fun hne => hpart ⟨hjoin, hne⟩)

/-- **A deposit of items.** -/
theorem storeItem_spec (hok : GoodsOk w) (hme : w.playerPool me = true)
    (hmode : packet.mode = .itemInventoryToStorage) :
    (∀ w', w.storeItem me packet = some w' → GoodsOk w' ∧ Conserves w w' me packet) ∧
      ((w.storeItem me packet).isSome ↔ ∀ p, w.storageItem me packet = some p →
        (w.items p).isInInventory = true → w.isBeltCard me p = some false →
          w.canStore me p packet.count = some true → FitsStack w (locker me) p packet.count) := by
  unfold storeItem
  cases hitem : w.storageItem me packet with
  | none =>
    refine ⟨fun w' heq => ?_, fun _ p hp => (by cases hp), fun _ => rfl⟩
    obtain rfl := Option.some.inj heq
    exact ⟨hok, .refl hok hme⟩
  | some p =>
    have hstay : ∀ w', some w = some w' → GoodsOk w' ∧ Conserves w w' me packet := fun w' heq => by
      obtain rfl := Option.some.inj heq
      exact ⟨hok, .refl hok hme⟩
    simp only [Option.some.injEq, forall_eq']
    split_ifs with hin
    swap
    · exact ⟨hstay, fun _ h => absurd h hin, fun _ => rfl⟩
    obtain ⟨hcan, hbelt, hmovable⟩ := canStore_spec hok hme hitem hin
    obtain ⟨belt, hbelt⟩ := Option.isSome_iff_exists.mp hbelt
    obtain ⟨can, hcan⟩ := Option.isSome_iff_exists.mp hcan
    simp only [hbelt, Option.bind_some, moveInventoryToStorage, hcan]
    cases belt with
    | true => exact ⟨hstay, fun _ _ h => (by cases h), fun _ => rfl⟩
    | false =>
      cases can with
      | false => exact ⟨hstay, fun _ _ _ h => (by cases h), fun _ => rfl⟩
      | true =>
        obtain ⟨hm, hwhole⟩ := hmovable hcan
        obtain ⟨hres, hsome⟩ := hm.move true hwhole rfl
        obtain ⟨hpos, hpool, -⟩ := storageItem_eq_some hitem
        simp only [Bool.false_eq_true, not_true_eq_false, if_false, Option.isSome_map]
        refine ⟨fun w' hrun => ?_, fun h _ _ _ => hsome.mp h, fun h => hsome.mpr (h hin trivial trivial)⟩
        obtain ⟨⟨b, w₁⟩, hmove, rfl⟩ := Option.map_eq_some_iff.mp hrun
        obtain ⟨hok', hmoved⟩ := hres b w₁ hmove
        refine ⟨hok', .of_moved hok hme (.inl ⟨rfl, rfl⟩) hmoved ?_⟩
        rw [StorageEffect, hmode]
        exact ⟨p, hpool, hpos, hmoved⟩

/-- **A withdrawal of items.** -/
theorem fetchItem_spec (hok : GoodsOk w) (hme : w.playerPool me = true)
    (hmode : packet.mode = .itemStorageToInventory) :
    (∀ w', w.fetchItem me packet = some w' → GoodsOk w' ∧ Conserves w w' me packet) ∧
      ((w.fetchItem me packet).isSome ↔ ∀ p, w.storageItem me packet = some p →
        (w.items p).isInStorage = true → w.canFetch me p packet.count = some true →
          FitsStack w (bag me) p packet.count) := by
  unfold fetchItem
  cases hitem : w.storageItem me packet with
  | none =>
    refine ⟨fun w' heq => ?_, fun _ p hp => (by cases hp), fun _ => rfl⟩
    obtain rfl := Option.some.inj heq
    exact ⟨hok, .refl hok hme⟩
  | some p =>
    have hstay : ∀ w', some w = some w' → GoodsOk w' ∧ Conserves w w' me packet := fun w' heq => by
      obtain rfl := Option.some.inj heq
      exact ⟨hok, .refl hok hme⟩
    simp only [Option.some.injEq, forall_eq']
    split_ifs with hin
    swap
    · exact ⟨hstay, fun _ h => absurd h hin, fun _ => rfl⟩
    obtain ⟨hcan, hmovable⟩ := canFetch_spec hok hme hitem hin
    obtain ⟨can, hcan⟩ := Option.isSome_iff_exists.mp hcan
    simp only [moveStorageToInventory, hcan, Option.bind_some]
    cases can with
    | false => exact ⟨hstay, fun _ _ h => (by cases h), fun _ => rfl⟩
    | true =>
      obtain ⟨hm, hwhole⟩ := hmovable hcan
      obtain ⟨hres, hsome⟩ := hm.move false hwhole rfl
      obtain ⟨hpos, hpool, -⟩ := storageItem_eq_some hitem
      simp only [not_true_eq_false, if_false, Option.isSome_map]
      refine ⟨fun w' hrun => ?_, fun h _ _ => hsome.mp h, fun h => hsome.mpr (h hin trivial)⟩
      obtain ⟨⟨b, w₁⟩, hmove, rfl⟩ := Option.map_eq_some_iff.mp hrun
      obtain ⟨hok', hmoved⟩ := hres b w₁ hmove
      refine ⟨hok', .of_moved hok hme (.inr ⟨rfl, rfl⟩) hmoved ?_⟩
      rw [StorageEffect, hmode]
      exact ⟨p, hpool, hpos, hmoved⟩

/-! ## Requests -/

theorem GoodsOk.closeStorage (hok : GoodsOk w) (me : Handle) :
    GoodsOk (w.updPlayer me fun p => { p with bIsUsingStorage := false }) := by
  have hfield : ∀ {α : Type} (f : Player → α), (∀ a : Player, f { a with bIsUsingStorage := false } = f a) →
      ∀ k, f ((w.updPlayer me fun p => { p with bIsUsingStorage := false }).players k) = f (w.players k) :=
    fun f hf k => by
      rw [updPlayer_players]
      split_ifs with hk
      · rw [hk]
        exact hf _
      · rfl
  have hsame : SameGoods w (w.updPlayer me fun p => { p with bIsUsingStorage := false }) :=
    .updPlayer w me (fun _ => ⟨rfl, rfl⟩) (fun _ => rfl) (fun _ => rfl) fun _ => rfl
  refine ⟨hok.toWorldOk.sameGoods hsame (fun k hk => ?_) fun k hk => ?_, fun k hk => ?_, fun k hk => ?_,
    fun j p hj => ?_⟩
  · rw [hfield (·.nGold) fun _ => rfl]
    exact hok.gold k hk
  · rw [hfield (·.trade) fun _ => rfl]
    exact hok.window k hk
  · rw [hfield (·.loginComplete) fun _ => rfl, hfield (·.accountId) fun _ => rfl]
    exact hok.online k hk
  · rw [hfield (·.nStorageGold) fun _ => rfl]
    exact hok.storageGold k hk
  · obtain ⟨hin, hst⟩ := hok.claims j p hj
    refine ⟨fun h₁ h₂ => ?_, fun h₁ h₂ => ?_⟩
    · rw [hsame.inv]
      exact hin h₁ h₂
    · rw [hsame.inv]
      exact hst h₁ h₂

theorem closeStorage_conserves (hok : GoodsOk w) (hme : w.playerPool me = true)
    (hmode : packet.mode = .storageClose) :
    Conserves w (w.updPlayer me fun p => { p with bIsUsingStorage := false }) me packet := by
  refine ⟨.inr ?_, ?_, ?_, ?_, fun code => ?_⟩
  · simp only [StorageEffect, hmode]
  · rw [updPlayer_players_same]
  · unfold LegalGold
    rw [updPlayer_players_same]
    exact hok.gold me hme
  · rw [updPlayer_players_same]
    exact hok.storageGold me hme
  · have hsame : SameGoods w (w.updPlayer me fun p => { p with bIsUsingStorage := false }) :=
      .updPlayer w me (fun _ => ⟨rfl, rfl⟩) (fun _ => rfl) (fun _ => rfl) fun _ => rfl
    have hunits : ∀ r, units code (w.updPlayer me fun p => { p with bIsUsingStorage := false }) r =
        units code w r := fun r => total_congr _ (by rw [hsame.inv]) fun _ _ => rfl
    rw [hunits, hunits]

/-- A request keeps the world well-formed, whether or not it conserves anything. -/
theorem onStorage_ok (hok : GoodsOk w) (hme : w.playerPool me = true) (hc : IsInt64 packet.count)
    (hrun : w.onStorage me packet = some w') : GoodsOk w' := by
  have hgold := hok.gold me hme
  have hstore := hok.storageGold me hme
  have hmaxs : MAX_GOLD_FOR_STORAGE = 100000000000 := rfl
  have hmaxg : MAX_GOLD_FOR_INVENTORY = 100000000000 := rfl
  unfold onStorage at hrun
  split_ifs at hrun
  · obtain rfl := Option.some.inj hrun
    exact hok
  cases hmode : packet.mode with
  | itemInventoryToStorage =>
    rw [hmode] at hrun
    exact ((storeItem_spec hok hme hmode).1 w' hrun).1
  | itemStorageToInventory =>
    rw [hmode] at hrun
    exact ((fetchItem_spec hok hme hmode).1 w' hrun).1
  | goldInventoryToStorage =>
    rw [hmode] at hrun
    dsimp only at hrun
    rw [storeGold_eq hok hme hc rfl rfl] at hrun
    split_ifs at hrun
    · obtain rfl := Option.some.inj hrun
      exact hok
    · obtain rfl := Option.some.inj hrun
      have hkeep := hok.setGolds me (g := (w.players me).nGold - packet.count) (by omega) hstore
      rwa [← setGold_nStorageGold w me ((w.players me).nGold - packet.count) me, setStorageGold_self] at hkeep
    · obtain rfl := Option.some.inj hrun
      exact hok.setGolds me (by omega) (by omega)
  | goldStorageToInventory =>
    rw [hmode] at hrun
    dsimp only at hrun
    rw [fetchGold_eq hok hme hc rfl rfl] at hrun
    split_ifs at hrun
    · obtain rfl := Option.some.inj hrun
      exact hok
    · obtain rfl := Option.some.inj hrun
      have hkeep := hok.setGolds me (s := (w.players me).nStorageGold - packet.count) hgold (by omega)
      rwa [setGold_self] at hkeep
    · obtain rfl := Option.some.inj hrun
      exact hok.setGolds me (by omega) (by omega)
  | storageClose =>
    rw [hmode] at hrun
    obtain rfl := Option.some.inj hrun
    exact hok.closeStorage me
  | other =>
    rw [hmode] at hrun
    obtain rfl := Option.some.inj hrun
    exact hok

end World

/-! ## The system -/

inductive StorageEvent
  | storage (me : Handle) (packet : StoragePacket)
  /-- Another handler makes the world `w`. -/
  | other (w : World)

/-- Players send storage requests in well-formed worlds; the other handlers keep them so. -/
def storageSystem : System World StorageEvent where
  Init w := World.GoodsOk w
  Step w e w' :=
    match e with
    | .storage me packet => w.playerPool me = true ∧ IsInt64 packet.count ∧ w.onStorage me packet = some w'
    | .other w₁ => w' = w₁ ∧ World.GoodsOk w₁

namespace World

variable {w : World} {me : Handle} {packet : StoragePacket} {h : History World StorageEvent}

theorem goodsOk_of_run (hrun : storageSystem.Run h w) : GoodsOk w := by
  refine hrun.invariant (I := fun _ w => GoodsOk w) (fun _ hw => hw) fun _ s e t _ hs _ hstep => ?_
  cases e with
  | storage me packet => exact onStorage_ok hs hstep.1 hstep.2.1 hstep.2.2
  | other w₁ => exact hstep.1 ▸ hstep.2

/-- **Storage conservation**: a request in a reachable world changes nothing or moves exactly what it says,
with what the player has in both places together unchanged, if and only if it is sound. -/
theorem conserves_iff (hrun : storageSystem.Run h w) (hme : w.playerPool me = true)
    (hc : IsInt64 packet.count) :
    (∃ w', w.onStorage me packet = some w' ∧ Conserves w w' me packet) ↔ StorageSound w me packet := by
  have hok := goodsOk_of_run hrun
  unfold onStorage StorageSound
  by_cases hbusy : w.storageBusy me = true
  · rw [if_pos hbusy]
    exact ⟨fun _ => .inl hbusy, fun _ => ⟨w, rfl, .refl hok hme⟩⟩
  rw [if_neg hbusy, or_iff_right hbusy]
  have hitem : ∀ {o : Option World} {P : Prop},
      (∀ w', o = some w' → GoodsOk w' ∧ Conserves w w' me packet) ∧ (o.isSome ↔ P) →
        ((∃ w', o = some w' ∧ Conserves w w' me packet) ↔ P) := fun hspec => by
    rw [← hspec.2, Option.isSome_iff_exists]
    exact ⟨fun ⟨w', hw', _⟩ => ⟨w', hw'⟩, fun ⟨w', hw'⟩ => ⟨w', hw', (hspec.1 w' hw').2⟩⟩
  cases hmode : packet.mode with
  | itemInventoryToStorage =>
    dsimp only
    exact hitem (storeItem_spec hok hme hmode)
  | itemStorageToInventory =>
    dsimp only
    exact hitem (fetchItem_spec hok hme hmode)
  | goldInventoryToStorage =>
    dsimp only
    exact storeGold_conserves_iff hok hme hc hmode
  | goldStorageToInventory =>
    dsimp only
    exact fetchGold_conserves_iff hok hme hc hmode
  | storageClose => exact ⟨fun _ => trivial, fun _ => ⟨_, rfl, closeStorage_conserves hok hme hmode⟩⟩
  | other => exact ⟨fun _ => trivial, fun _ => ⟨w, rfl, .refl hok hme⟩⟩

/-- Player 1 has a stack of five units, ten pieces of gold and the storage open. -/
def vault : World where
  items _ := { inst := { OwnerHandle := 1, UID := 1, Code := 7, nIdx := 1, nOwnerUID := 1, nCount := 5 }
               itemBase := some { flaglist := fun f => if f = .duplicate then 1 else 0 }
               handle := 1 }
  nextItem := 1
  itemPool k := if k = 1 then some 0 else none
  nItemTop := 2
  nItemIndex := 1
  itemBase _ := some { flaglist := fun f => if f = .duplicate then 1 else 0 }
  players h := { uid := h, accountId := 1, loginComplete := true, inWorld := true, bIsUsingStorage := true
                 nGold := 10, inventory := { vList := if h = 1 then [0] else [] } }
  playerPool h := h == 1
  unitHasSkill _ _ := false
  mapRegionSize := 180

theorem vault_pool {h : Handle} (hh : vault.playerPool h = true) : h = 1 := beq_iff_eq.mp hh

theorem vault_vList {r : InvRef} {p : ItemPtr} (hp : p ∈ (vault.inv r).vList) : r = bag 1 ∧ p = 0 := by
  rcases r with ⟨h, kind⟩
  cases kind with
  | storage => cases hp
  | inventory =>
    have hlist : (vault.inv ⟨h, .inventory⟩).vList = if h = 1 then [0] else [] := rfl
    rw [hlist] at hp
    split_ifs at hp with hh
    · rw [hh]
      exact ⟨rfl, List.mem_singleton.mp hp⟩
    · cases hp

theorem vault_stocked (r : InvRef) : Stocked vault r := by
  have hnil : (vault.inv r).vExpireItemList = [] := by
    rcases r with ⟨h, kind⟩
    cases kind <;> rfl
  refine ⟨fun i a ha => ?_, ?_, fun p _ => rfl, fun p hp => ?_⟩
  · obtain ⟨rfl, rfl⟩ := vault_vList (List.mem_of_getElem? ha)
    obtain ⟨hi, -⟩ := List.getElem?_eq_some_iff.mp ha
    have hzero : i = 0 := Nat.lt_one_iff.mp hi
    rw [hzero]
    rfl
  · rw [hnil]
    exact List.Perm.of_eq (List.filter_eq_nil_iff.mpr fun _ _ => Bool.false_ne_true).symm
  · rw [(vault_vList hp).2]
    exact Nat.one_pos

theorem vault_ok : GoodsOk vault where
  stocked := vault_stocked
  apart r r' p hp hp' := (vault_vList hp).1.trans (vault_vList hp').1.symm
  held r p hp := by
    obtain ⟨rfl, rfl⟩ := vault_vList hp
    exact ⟨rfl, rfl, by decide, fun _ => by decide, fun _ => ⟨rfl, rfl⟩⟩
  fresh k hk := by
    have hlt : (1 : Nat) < k := hk
    exact if_neg (Nat.ne_of_gt hlt)
  gold h _ := by
    show (0 : Int) ≤ 10 ∧ (10 : Int) ≤ MAX_GOLD_FOR_INVENTORY
    decide
  uid h hh := by
    show (0 : Int) < (h : Int) ∧ (h : Int) < 2 ^ 32
    rw [vault_pool hh]
    decide
  uid_inj h k _ _ heq := Int.ofNat.inj heq
  window _ _ := table_nil
  online _ _ := ⟨rfl, one_ne_zero⟩
  storageGold _ _ := by
    show (0 : Int) ≤ 0 ∧ (0 : Int) ≤ MAX_GOLD_FOR_STORAGE
    decide
  claims k p hk := by
    have hpool : (if k = 1 then some 0 else none) = some p := hk
    split_ifs at hpool
    obtain rfl := Option.some.inj hpool
    exact ⟨fun _ _ => List.mem_singleton_self 0, fun hst _ => absurd hst (by decide)⟩

/-- Three of the five units go to the storage. -/
theorem conserves_vault : ∃ w', vault.onStorage 1 ⟨.itemInventoryToStorage, 1, 3⟩ = some w' ∧
    Conserves vault w' 1 ⟨.itemInventoryToStorage, 1, 3⟩ := by
  refine (conserves_iff (.init vault_ok) (by decide) (by decide)).mpr (.inr fun p _ _ _ _ e he => ?_)
  have hmem := (joinTarget_eq_some he).1
  cases hmem

/-- A deposit of less than no gold adds to the gold in the inventory and to nothing else. -/
theorem not_conserves : ¬ ∀ (h : History World StorageEvent) (w : World), storageSystem.Run h w →
    ∀ me packet, w.playerPool me = true → IsInt64 packet.count →
      ∃ w', w.onStorage me packet = some w' ∧ Conserves w w' me packet := by
  intro hall
  obtain ⟨w', hrun, hcons⟩ := hall [] vault (.init vault_ok) 1 ⟨.goldInventoryToStorage, 0, -5⟩ (by decide) (by decide)
  have hgold : (vault.onStorage 1 ⟨.goldInventoryToStorage, 0, -5⟩).map
      (fun w => (w.players 1).nGold + (w.players 1).nStorageGold) = some 15 := by decide +kernel
  rw [hrun, Option.map_some, Option.some.injEq, hcons.gold] at hgold
  exact absurd hgold (by decide)

end World

end RZEmulator.Chihiro
