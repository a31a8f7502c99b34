import RZEmulator.Chihiro.SoulStone

/-!
# Crafting soul stones

A craft is refused and changes nothing, or does what `Crafted` says. The checks look at the sockets as they were before, one
stone at a time; `crafted_iff` says for which requests that is enough.
-/

namespace RZEmulator.Chihiro

namespace CraftState

variable {K : Type} [DecidableEq K]

/-! ## What a craft should do -/

/-- The units of an item in the inventory. -/
def units (s : CraftState) (h : Nat) : Nat := if s.inventory h then (s.objects h).count else 0

/-- What the sockets should hold. -/
def socketCode (s : CraftState) (pct : SoulStoneRequest) (nSocketCount : Int) (k : Fin 4) : Int :=
  match given pct nSocketCount k with
  | some h => (s.objects h).code
  | none => (s.objects pct.craft_item_handle).socket k

/-- How many other sockets hold a stone of the kind of the one in the socket `i`. -/
def alike (itemBase : Int → Option (StoneBase K)) (nSocketCount : Int) (codes : Fin 4 → Int) (i : Fin 4) : Nat :=
  ((socketsOf nSocketCount).filter fun k =>
    k ≠ i ∧ codes k ≠ 0 ∧ (itemBase (codes k)).map (·.kind) = (itemBase (codes i)).map (·.kind)).length

/-- The price of the stones that are given. -/
def fee (itemBase : Int → Option (StoneBase K)) (s : CraftState) (pct : SoulStoneRequest) : List (Fin 4) → Int
  | [] => 0
  | i :: is =>
    (if pct.soulstone_handle i = 0 then 0
      else match itemBase (s.objects (pct.soulstone_handle i)).code with
        | none => 0
        | some sb => sb.price.tdiv 10) + fee itemBase s pct is

/-- The craft that the request asks for, of an item with the given number of sockets. -/
structure Crafted (itemBase : Int → Option (StoneBase K)) (nSocketCount : Int) (s s' : CraftState) (pct : SoulStoneRequest) :
    Prop where
  gold : s'.gold = s.gold - fee itemBase s pct (socketsOf nSocketCount)
  held : s'.inventory pct.craft_item_handle = true
  sockets : ∀ k, (s'.objects pct.craft_item_handle).socket k = s.socketCode pct nSocketCount k
  few : ∀ i h, given pct nSocketCount i = some h →
    alike itemBase nSocketCount (s'.objects pct.craft_item_handle).socket i < maxReplicatableCount nSocketCount
  consumed : ∀ i h, given pct nSocketCount i = some h → s'.units h = s.units h - 1
  others : ∀ h, (∀ i, given pct nSocketCount i ≠ some h) → s'.units h = s.units h
  rest : ∀ h ≠ pct.craft_item_handle, (s'.objects h).socket = (s.objects h).socket

/-- The request is refused and changes nothing, or it is answered with success and the craft is done. -/
def CraftRight (itemBase : Int → Option (StoneBase K)) (s : CraftState) (pct : SoulStoneRequest) : Prop :=
  ∃ r s', s.onSoulStoneCraft itemBase pct = some (r, s') ∧
    (r ≠ .SUCCESS → s'.gold = s.gold ∧ s'.objects = s.objects ∧ s'.inventory = s.inventory) ∧
    (r = .SUCCESS → ∃ base, itemBase (s.objects pct.craft_item_handle).code = some base ∧
      Crafted itemBase base.socket s s' pct)

/-! ## When it does -/

/-- The stones are different piles, too many of a kind do not come together, and the item is not the last unit of one. -/
structure Fitting (itemBase : Int → Option (StoneBase K)) (nSocketCount : Int) (s : CraftState) (pct : SoulStoneRequest) : Prop where
  distinct : ∀ i j h, given pct nSocketCount i = some h → given pct nSocketCount j = some h → i = j
  few : ∀ i h, given pct nSocketCount i = some h →
    alike itemBase nSocketCount (s.socketCode pct nSocketCount) i < maxReplicatableCount nSocketCount
  held : ∀ i, given pct nSocketCount i = some pct.craft_item_handle → 1 < (s.objects pct.craft_item_handle).count

/-- The window has been opened at some time, the checks find every item base, and a request that passes them is a fitting one. -/
def CarefulCraft (itemBase : Int → Option (StoneBase K)) (s : CraftState) (pct : SoulStoneRequest) : Prop :=
  s.contact ≠ none ∧ (s.contact ≠ some 0 → s.inventory pct.craft_item_handle = true →
    ∃ base, itemBase (s.objects pct.craft_item_handle).code = some base ∧ (1 ≤ base.socket → base.socket ≤ 4 →
      checkStones itemBase s pct base.socket 0 false (socketsOf base.socket) ≠ none ∧
      ∀ cost, checkStones itemBase s pct base.socket 0 false (socketsOf base.socket) = some (.ok (cost, true)) →
        cost ≤ s.gold → s.goldChanges (s.gold - cost) → Fitting itemBase base.socket s pct))

/-! ## The checks -/

section

variable {itemBase : Int → Option (StoneBase K)} {s s' : CraftState} {pct : SoulStoneRequest} {nSocketCount : Int}
  {socket : Fin 4 → Int} {kind : K} {nMax n : Nat} {i : Fin 4} {is ks : List (Fin 4)} {cost cost' : Int} {valid valid' : Bool}

theorem checkReplicas_bases (h : checkReplicas itemBase socket kind nMax i n ks = some false) :
    ∀ k ∈ ks, socket k ≠ 0 → k ≠ i → (itemBase (socket k)).isSome = true := by
  induction ks generalizing n with
  | nil => nofun
  | cons k ks ih =>
    unfold checkReplicas at h
    rw [List.forall_mem_cons]
    by_cases hother : socket k ≠ 0 ∧ k ≠ i
    · rw [if_pos hother] at h
      cases hbase : itemBase (socket k) with
      | none =>
        rw [hbase] at h
        cases h
      | some ibs =>
        rw [hbase] at h
        dsimp only at h
        refine ⟨fun _ _ => rfl, ?_⟩
        split_ifs at h
        · cases h
        · exact ih h
        · exact ih h
    · rw [if_neg hother] at h
      exact ⟨fun hne hki => absurd ⟨hne, hki⟩ hother, ih h⟩

/-- A stone that passes the checks: it is in the inventory, has an item base, and so has everything in the other sockets. -/
structure Checked (itemBase : Int → Option (StoneBase K)) (s : CraftState) (pct : SoulStoneRequest) (nSocketCount : Int)
    (i : Fin 4) : Prop where
  inventory : s.inventory (pct.soulstone_handle i) = true
  base : (itemBase (s.objects (pct.soulstone_handle i)).code).isSome = true
  bases : ∀ k ∈ socketsOf nSocketCount, (s.objects pct.craft_item_handle).socket k ≠ 0 → k ≠ i →
    (itemBase ((s.objects pct.craft_item_handle).socket k)).isSome = true

theorem checkStone_ok {c : Option Int} (h : checkStone itemBase s pct nSocketCount i = some (.ok c)) :
    (pct.soulstone_handle i ≠ 0 → Checked itemBase s pct nSocketCount i) ∧ c.getD 0 = fee itemBase s pct [i] := by
  unfold checkStone at h
  unfold fee fee
  by_cases hzero : pct.soulstone_handle i = 0
  · rw [if_pos hzero] at h ⊢
    cases h
    exact ⟨fun hne => absurd hzero hne, rfl⟩
  · rw [if_neg hzero] at h ⊢
    split_ifs at h with hinv
    · cases h
    · cases hbase : itemBase (s.objects (pct.soulstone_handle i)).code with
      | none =>
        rw [hbase] at h
        cases h
      | some sb =>
        rw [hbase] at h
        dsimp only at h
        split_ifs at h with htype
        · cases h
        · split at h
          · cases h
          · cases h
          · rename_i hreplicas
            cases h
            refine ⟨fun _ => ⟨by simpa using hinv, by rw [hbase]; rfl, checkReplicas_bases hreplicas⟩, ?_⟩
            rw [Int.add_zero]
            rfl

theorem checkStones_ok (h : checkStones itemBase s pct nSocketCount cost valid is = some (.ok (cost', valid'))) :
    (∀ i ∈ is, pct.soulstone_handle i ≠ 0 → Checked itemBase s pct nSocketCount i) ∧ cost' = cost + fee itemBase s pct is := by
  induction is generalizing cost valid with
  | nil =>
    cases h
    exact ⟨nofun, (Int.add_zero _).symm⟩
  | cons i is ih =>
    unfold checkStones at h
    have hfee : ∀ c : Int, c = fee itemBase s pct [i] → cost + c + fee itemBase s pct is = cost + fee itemBase s pct (i :: is) := by
      intro c hc
      rw [hc, fee, fee, fee, Int.add_zero, Int.add_assoc]
    rw [List.forall_mem_cons]
    split at h
    · cases h
    · cases h
    · rename_i hcheck
      obtain ⟨hchecked, hcost⟩ := checkStone_ok hcheck
      obtain ⟨hrest, htotal⟩ := ih h
      refine ⟨⟨hchecked, hrest⟩, ?_⟩
      rw [htotal, ← hfee _ hcost]
      exact congrArg (· + _) (Int.add_zero _).symm
    · rename_i hcheck
      obtain ⟨hchecked, hcost⟩ := checkStone_ok hcheck
      obtain ⟨hrest, htotal⟩ := ih h
      refine ⟨⟨hchecked, hrest⟩, ?_⟩
      rw [htotal, ← hfee _ hcost]
      rfl

theorem checkStone_error {r : CraftResult} (h : checkStone itemBase s pct nSocketCount i = some (.error r)) : r ≠ .SUCCESS := by
  unfold checkStone at h
  dsimp only at h
  split_ifs at h
  · cases h
  · cases h
    exact nofun
  · split at h
    · cases h
    · split_ifs at h
      · cases h
        exact nofun
      · split at h <;> cases h
        exact nofun

theorem checkStones_error {r : CraftResult} (h : checkStones itemBase s pct nSocketCount cost valid is = some (.error r)) :
    r ≠ .SUCCESS := by
  induction is generalizing cost valid with
  | nil => cases h
  | cons i is ih =>
    unfold checkStones at h
    split at h
    · cases h
    · rename_i hcheck
      cases h
      exact checkStone_error hcheck
    · exact ih h
    · exact ih h

/-- A request is valid when it gives a stone. -/
theorem checkStones_valid (h : checkStones itemBase s pct nSocketCount cost false is = some (.ok (cost', true))) :
    ∃ i ∈ is, pct.soulstone_handle i ≠ 0 := by
  induction is generalizing cost with
  | nil => cases h
  | cons i is ih =>
    by_cases hzero : pct.soulstone_handle i = 0
    · have hcheck : checkStone itemBase s pct nSocketCount i = some (.ok none) := if_pos hzero
      unfold checkStones at h
      rw [hcheck] at h
      obtain ⟨j, hj, hne⟩ := ih h
      exact ⟨j, List.mem_cons_of_mem _ hj, hne⟩
    · exact ⟨i, List.mem_cons_self, hzero⟩

theorem mem_socketsOf : i ∈ socketsOf nSocketCount ↔ (i.val : Int) < nSocketCount := by
  unfold socketsOf
  rw [List.mem_filter, decide_eq_true_iff]
  exact and_iff_right (List.mem_finRange i)

theorem given_eq_some_iff {h : Nat} : given pct nSocketCount i = some h ↔
    i ∈ socketsOf nSocketCount ∧ pct.soulstone_handle i ≠ 0 ∧ pct.soulstone_handle i = h := by
  rw [mem_socketsOf]
  unfold given
  split_ifs with hgiven
  · rw [Option.some.injEq]
    exact ⟨fun h => ⟨hgiven.1, hgiven.2, h⟩, fun h => h.2.2⟩
  · exact iff_of_false nofun fun h => hgiven ⟨h.1, h.2.1⟩

end

/-! ## One stone -/

section

variable {s s' : CraftState} {craft h x : Nat} {i k : Fin 4} {is : List (Fin 4)} {stones : Fin 4 → Option Nat} {e e' : Int}

/-- What inserting the stone `h` into the socket `i` does. -/
structure Inserted (craft : Nat) (i : Fin 4) (h : Nat) (s s' : CraftState) : Prop where
  gold : s'.gold = s.gold
  code : ∀ x, (s'.objects x).code = (s.objects x).code
  socket : ∀ k, (s'.objects craft).socket k = if k = i then (s.objects h).code else (s.objects craft).socket k
  rest : ∀ x ≠ craft, (s'.objects x).socket = (s.objects x).socket
  away : ∀ x ≠ h, s'.inventory x = s.inventory x ∧ (s'.objects x).count = (s.objects x).count
  taken : s'.units h = s.units h - 1
  left : s'.inventory h = decide (1 < (s.objects h).count)

theorem updObject_objects (item : CraftItem) : (s.updObject h item).objects x = if x = h then item else s.objects x :=
  Function.update_apply ..

theorem units_of_inventory (hinv : s.inventory h = true) : s.units h = (s.objects h).count := if_pos hinv

theorem units_of_not_inventory (hinv : s.inventory h = false) : s.units h = 0 :=
  if_neg (by rw [hinv]; exact Bool.false_ne_true)

/-- What erasing one unit of an item does. -/
structure Erased (h : Nat) (s s' : CraftState) : Prop where
  gold : s'.gold = s.gold
  same : ∀ x, (s'.objects x).code = (s.objects x).code ∧ (s'.objects x).socket = (s.objects x).socket
  away : ∀ x ≠ h, s'.inventory x = s.inventory x ∧ (s'.objects x).count = (s.objects x).count
  taken : s'.units h = s.units h - 1
  left : s'.inventory h = decide (1 < (s.objects h).count)

theorem eraseItem_erased (hinv : s.inventory h = true) : ∃ s', s.eraseItem h = some s' ∧ Erased h s s' := by
  unfold eraseItem
  rw [if_neg (by rw [hinv]; exact nofun)]
  by_cases hmany : (s.objects h).count > 1
  · rw [if_pos hmany]
    refine ⟨_, rfl, rfl, fun x => ?_, fun x hx => ⟨rfl, ?_⟩, ?_, hinv.trans (decide_eq_true hmany).symm⟩
    · rw [updObject_objects]
      split_ifs with hx
      · rw [hx]
        exact ⟨rfl, rfl⟩
      · exact ⟨rfl, rfl⟩
    · rw [updObject_objects, if_neg hx]
    · have hinv' : (s.updObject h { s.objects h with count := (s.objects h).count - 1 }).inventory h = true := hinv
      rw [units_of_inventory hinv, units_of_inventory hinv', updObject_objects, if_pos rfl]
  · rw [if_neg hmany]
    refine ⟨_, rfl, rfl, fun x => ⟨rfl, rfl⟩, fun x hx => ⟨Function.update_of_ne hx .., rfl⟩, ?_,
      (Function.update_self ..).trans (decide_eq_false hmany).symm⟩
    rw [units_of_inventory hinv, units_of_not_inventory (Function.update_self ..)]
    omega

/-- Filling a socket leaves the units and the codes as they are. -/
theorem units_updObject {item : CraftItem} (hcount : item.count = (s.objects craft).count) :
    (s.updObject craft item).units x = s.units x ∧ ((s.updObject craft item).objects x).count = (s.objects x).count := by
  have hsame : ((s.updObject craft item).objects x).count = (s.objects x).count := by
    rw [updObject_objects]
    split_ifs with hx
    · rw [hcount, hx]
    · rfl
  refine ⟨?_, hsame⟩
  unfold units
  rw [hsame]
  rfl

theorem insertStone_inserted (craft : Nat) (i : Fin 4) (hinv : s.inventory h = true) :
    ∃ s', s.insertStone craft i h = some s' ∧ Inserted craft i h s s' := by
  obtain ⟨item, hitem⟩ : ∃ item : CraftItem, item = { s.objects craft with
    socket := Function.update (s.objects craft).socket i (s.objects h).code } := ⟨_, rfl⟩
  have hcount : item.count = (s.objects craft).count := by rw [hitem]
  obtain ⟨s', hs', her⟩ := eraseItem_erased (s := s.updObject craft item) (h := h) hinv
  refine ⟨s', by rw [← hs', hitem]; rfl, her.gold, fun x => ?_, fun k => ?_, fun x hx => ?_, fun x hx => ?_, ?_, ?_⟩
  · rw [(her.same x).1, updObject_objects]
    split_ifs with hx
    · rw [hx, hitem]
    · rfl
  · rw [(her.same craft).2, updObject_objects, if_pos rfl, hitem]
    exact Function.update_apply ..
  · rw [(her.same x).2, updObject_objects, if_neg hx]
  · exact ⟨(her.away x hx).1, (her.away x hx).2.trans (units_updObject hcount).2⟩
  · rw [her.taken, (units_updObject hcount).1]
  · rw [her.left, (units_updObject hcount).2]

theorem insertStone_none (hinv : s.inventory h = false) : s.insertStone craft i h = none := if_pos hinv

theorem Inserted.units_of_ne (hins : Inserted craft i h s s') (hx : x ≠ h) : s'.units x = s.units x := by
  unfold units
  rw [(hins.away x hx).1, (hins.away x hx).2]

theorem inserted_of_insertStone (hs : s.insertStone craft i h = some s') : s.inventory h = true ∧ Inserted craft i h s s' := by
  cases hinv : s.inventory h with
  | false =>
    rw [insertStone_none hinv] at hs
    cases hs
  | true =>
    obtain ⟨s₁, hs₁, hins⟩ := insertStone_inserted craft i hinv
    rw [hs₁] at hs
    cases hs
    exact ⟨rfl, hins⟩

/-! ## The loop over the sockets -/

/-- What the loop does when every stone is given for one socket. -/
structure AllInserted (craft : Nat) (stones : Fin 4 → Option Nat) (is : List (Fin 4)) (s s' : CraftState) : Prop where
  gold : s'.gold = s.gold
  code : ∀ x, (s'.objects x).code = (s.objects x).code
  filled : ∀ k ∈ is, ∀ h, stones k = some h → (s'.objects craft).socket k = (s.objects h).code
  kept : ∀ k, (k ∈ is → stones k = none) → (s'.objects craft).socket k = (s.objects craft).socket k
  rest : ∀ x ≠ craft, (s'.objects x).socket = (s.objects x).socket
  taken : ∀ k ∈ is, ∀ h, stones k = some h → s'.units h = s.units h - 1 ∧ s'.inventory h = decide (1 < (s.objects h).count)
  away : ∀ x, (∀ k ∈ is, stones k ≠ some x) →
    s'.units x = s.units x ∧ s'.inventory x = s.inventory x ∧ (s'.objects x).count = (s.objects x).count

theorem AllInserted.skip (h : AllInserted craft stones is s s') (hi : stones i = none) :
    AllInserted craft stones (i :: is) s s' where
  gold := h.gold
  code := h.code
  filled := List.forall_mem_cons.mpr ⟨fun _ hx => absurd (hi.symm.trans hx) nofun, h.filled⟩
  kept := fun k hk => h.kept k fun hmem => hk (List.mem_cons_of_mem _ hmem)
  rest := h.rest
  taken := List.forall_mem_cons.mpr ⟨fun _ hx => absurd (hi.symm.trans hx) nofun, h.taken⟩
  away := fun x hx => h.away x (List.forall_mem_cons.mp hx).2

theorem AllInserted.cons {s₁ : CraftState} (hins : Inserted craft i h s s₁) (hrest : AllInserted craft stones is s₁ s')
    (hi : stones i = some h) (hnot : i ∉ is) (hother : ∀ k ∈ is, stones k ≠ some h) :
    AllInserted craft stones (i :: is) s s' where
  gold := hrest.gold.trans hins.gold
  code := fun x => (hrest.code x).trans (hins.code x)
  filled := by
    rw [List.forall_mem_cons]
    refine ⟨fun x hx => ?_, fun k hk x hx => (hrest.filled k hk x hx).trans (hins.code x)⟩
    obtain rfl := Option.some.inj (hi.symm.trans hx)
    rw [hrest.kept i fun hmem => absurd hmem hnot, hins.socket, if_pos rfl]
  kept := fun k hk => by
    have hki : k ≠ i := by
      rintro rfl
      exact absurd (hi.symm.trans (hk List.mem_cons_self)) nofun
    rw [hrest.kept k fun hmem => hk (List.mem_cons_of_mem _ hmem), hins.socket, if_neg hki]
  rest := fun x hx => (hrest.rest x hx).trans (hins.rest x hx)
  taken := by
    rw [List.forall_mem_cons]
    refine ⟨fun x hx => ?_, fun k hk x hx => ?_⟩
    · obtain rfl := Option.some.inj (hi.symm.trans hx)
      obtain ⟨hunits, hinv, -⟩ := hrest.away h hother
      exact ⟨hunits.trans hins.taken, hinv.trans hins.left⟩
    · have hxh : x ≠ h := by
        rintro rfl
        exact hother k hk hx
      obtain ⟨hunits, hinv⟩ := hrest.taken k hk x hx
      rw [hunits, hinv, hins.units_of_ne hxh, (hins.away x hxh).2]
      exact ⟨rfl, rfl⟩
  away := fun x hx => by
    rw [List.forall_mem_cons] at hx
    have hxh : x ≠ h := by
      rintro rfl
      exact hx.1 hi
    obtain ⟨hunits, hinv, hcount⟩ := hrest.away x hx.2
    exact ⟨hunits.trans (hins.units_of_ne hxh), hinv.trans (hins.away x hxh).1, hcount.trans (hins.away x hxh).2⟩

/-- Different stones that are in the inventory all find their sockets. -/
theorem insertStones_of_distinct (hnodup : is.Nodup)
    (hdistinct : ∀ i ∈ is, ∀ j ∈ is, ∀ h, stones i = some h → stones j = some h → i = j)
    (hinv : ∀ i ∈ is, ∀ h, stones i = some h → s.inventory h = true) (e : Int) :
    ∃ r, insertStones craft stones e s is = some r ∧ AllInserted craft stones is s r.1 := by
  induction is generalizing s e with
  | nil => exact ⟨_, rfl, rfl, fun _ => rfl, nofun, fun _ _ => rfl, fun _ _ => rfl, nofun, fun _ _ => ⟨rfl, rfl, rfl⟩⟩
  | cons i is ih =>
    rw [List.nodup_cons] at hnodup
    have hd : ∀ j ∈ is, ∀ k ∈ is, ∀ h, stones j = some h → stones k = some h → j = k :=
      fun j hj k hk => hdistinct j (List.mem_cons_of_mem _ hj) k (List.mem_cons_of_mem _ hk)
    unfold insertStones
    cases hi : stones i with
    | none =>
      obtain ⟨r, hr, hall⟩ := ih hnodup.2 hd (fun j hj => hinv j (List.mem_cons_of_mem _ hj)) _
      exact ⟨r, hr, hall.skip hi⟩
    | some h =>
      obtain ⟨s₁, hs₁, hins⟩ := insertStone_inserted craft i (hinv i List.mem_cons_self h hi)
      have hother : ∀ k ∈ is, stones k ≠ some h := by
        intro k hk hkh
        rw [hdistinct i List.mem_cons_self k (List.mem_cons_of_mem _ hk) h hi hkh] at hnodup
        exact hnodup.1 hk
      have hinv₁ : ∀ j ∈ is, ∀ x, stones j = some x → s₁.inventory x = true := by
        intro j hj x hx
        have hxh : x ≠ h := by
          rintro rfl
          exact hother j hj hx
        rw [(hins.away x hxh).1]
        exact hinv j (List.mem_cons_of_mem _ hj) x hx
      obtain ⟨r, hr, hall⟩ := ih hnodup.2 hd hinv₁ _
      dsimp only
      rw [hs₁]
      exact ⟨r, hr, .cons hins hall hi hnodup.1 hother⟩

variable {r : CraftState × Int}

theorem insertStones_cons (hs : insertStones craft stones e s (i :: is) = some r) :
    (stones i = none ∧ ∃ e', insertStones craft stones e' s is = some r) ∨
      ∃ h s₁, stones i = some h ∧ s.inventory h = true ∧ Inserted craft i h s s₁ ∧
        ∃ e', insertStones craft stones e' s₁ is = some r := by
  unfold insertStones at hs
  cases hi : stones i with
  | none =>
    rw [hi] at hs
    exact .inl ⟨rfl, _, hs⟩
  | some h =>
    rw [hi] at hs
    dsimp only at hs
    cases hs₁ : s.insertStone craft i h with
    | none =>
      rw [hs₁] at hs
      cases hs
    | some s₁ =>
      rw [hs₁] at hs
      obtain ⟨hinv, hins⟩ := inserted_of_insertStone hs₁
      exact .inr ⟨h, s₁, rfl, hinv, hins, _, hs⟩

theorem Inserted.units_le (hins : Inserted craft i h s s') (x : Nat) : s'.units x ≤ s.units x := by
  by_cases hx : x = h
  · rw [hx, hins.taken]
    omega
  · rw [hins.units_of_ne hx]

theorem insertStones_units_le (hs : insertStones craft stones e s is = some r) (x : Nat) : r.1.units x ≤ s.units x := by
  induction is generalizing s e with
  | nil =>
    cases hs
    exact Nat.le_refl _
  | cons i is ih =>
    rcases insertStones_cons hs with ⟨-, e', hs⟩ | ⟨h, s₁, -, -, hins, e', hs⟩
    · exact ih hs
    · exact Nat.le_trans (ih hs) (hins.units_le x)

/-- A stone that is given is in the inventory, and a unit of it is gone. -/
theorem insertStones_once (hs : insertStones craft stones e s is = some r) (hi : i ∈ is) (hx : stones i = some x) :
    s.inventory x = true ∧ r.1.units x ≤ s.units x - 1 := by
  induction is generalizing s e with
  | nil => cases hi
  | cons k is ih =>
    rcases insertStones_cons hs with ⟨hk, e', hs⟩ | ⟨h, s₁, hk, hinv, hins, e', hs⟩
    · rcases List.mem_cons.mp hi with rfl | hi
      · exact absurd (hk.symm.trans hx) nofun
      · exact ih hs hi
    · by_cases hxh : x = h
      · subst hxh
        exact ⟨hinv, Nat.le_trans (insertStones_units_le hs x) (Nat.le_of_eq hins.taken)⟩
      · rcases List.mem_cons.mp hi with rfl | hi
        · exact absurd (Option.some.inj (hx.symm.trans hk)) hxh
        · obtain ⟨hinv₁, hunits⟩ := ih hs hi
          rw [(hins.away x hxh).1] at hinv₁
          rw [hins.units_of_ne hxh] at hunits
          exact ⟨hinv₁, hunits⟩

/-- A stone that is given twice loses two units. -/
theorem insertStones_twice {j : Fin 4} (hs : insertStones craft stones e s is = some r) (hi : i ∈ is) (hj : j ∈ is)
    (hij : i ≠ j) (hx : stones i = some x) (hx' : stones j = some x) : 2 ≤ s.units x ∧ r.1.units x ≤ s.units x - 2 := by
  induction is generalizing s e with
  | nil => cases hi
  | cons k is ih =>
    have hlater : ∀ l, l ∈ k :: is → l ≠ k → l ∈ is := fun l hl hlk => (List.mem_cons.mp hl).resolve_left hlk
    rcases insertStones_cons hs with ⟨hk, e', hs⟩ | ⟨h, s₁, hk, hinv, hins, e', hs⟩
    · have hne : ∀ l, stones l = some x → l ≠ k := by
        rintro l hl rfl
        exact absurd (hk.symm.trans hl) nofun
      exact ih hs (hlater i hi (hne i hx)) (hlater j hj (hne j hx'))
    · by_cases hxh : x = h
      · subst hxh
        -- one of the two is still to come
        obtain ⟨l, hl, hlx⟩ : ∃ l ∈ is, stones l = some x := by
          by_cases hik : i = k
          · exact ⟨j, hlater j hj (fun hjk => hij (hik.trans hjk.symm)), hx'⟩
          · exact ⟨i, hlater i hi hik, hx⟩
        obtain ⟨hinv₁, hunits⟩ := insertStones_once hs hl hlx
        rw [hins.left] at hinv₁
        have hcount := of_decide_eq_true hinv₁
        have htaken := hins.taken
        rw [units_of_inventory hinv] at htaken ⊢
        omega
      · have hne : ∀ l, stones l = some x → l ≠ k := by
          rintro l hl rfl
          exact hxh (Option.some.inj (hl.symm.trans hk))
        have htail := ih hs (hlater i hi (hne i hx)) (hlater j hj (hne j hx'))
        rw [hins.units_of_ne hxh] at htail
        exact htail

end

/-! ## The craft -/

section

variable {itemBase : Int → Option (StoneBase K)} {base : StoneBase K} {s s' : CraftState} {pct : SoulStoneRequest} {cost : Int}

omit [DecidableEq K] in
theorem socketEndurance_isSome {socket : Fin 4 → Int} {is : List (Fin 4)}
    (h : ∀ i ∈ is, socket i ≠ 0 → (itemBase (socket i)).isSome = true) (n : Int) :
    ∃ total, socketEndurance itemBase socket n is = some total := by
  induction is generalizing n with
  | nil => exact ⟨n, rfl⟩
  | cons i is ih =>
    rw [List.forall_mem_cons] at h
    unfold socketEndurance
    split_ifs with hne
    · obtain ⟨b, hb⟩ := Option.isSome_iff_exists.mp (h.1 hne)
      rw [hb]
      exact ih h.2 _
    · exact ih h.2 n

/-- The states are the same but for the endurance and the contact. -/
structure SameGoods (s s' : CraftState) : Prop where
  gold : s'.gold = s.gold
  inventory : s'.inventory = s.inventory
  object : ∀ x, (s'.objects x).socket = (s.objects x).socket ∧ (s'.objects x).count = (s.objects x).count

theorem SameGoods.units (h : SameGoods s s') (x : Nat) : s'.units x = s.units x := by
  unfold CraftState.units
  rw [h.inventory, (h.object x).2]

omit [DecidableEq K] in
theorem setCurrentEndurance_goods {craft : Nat} {n : Int} (h : s.setCurrentEndurance itemBase base craft n = some s') :
    SameGoods s s' := by
  unfold setCurrentEndurance at h
  cases htotal : socketEndurance itemBase (s.objects craft).socket 0 (socketsOf base.socket) with
  | none =>
    rw [htotal] at h
    cases h
  | some total =>
    rw [htotal] at h
    dsimp only at h
    obtain rfl := Option.some.inj h
    refine ⟨rfl, rfl, fun x => ?_⟩
    rw [updObject_objects]
    by_cases hx : x = craft
    · rw [if_pos hx, hx]
      exact ⟨rfl, rfl⟩
    · rw [if_neg hx]
      exact ⟨rfl, rfl⟩

omit [DecidableEq K] in
theorem craft_goods (h : s.craft itemBase base pct = some s') : ∃ r,
    insertStones pct.craft_item_handle (given pct base.socket) 0 s (List.finRange 4) = some r ∧ SameGoods r.1 s' := by
  unfold craft at h
  cases hr : insertStones pct.craft_item_handle (given pct base.socket) 0 s (List.finRange 4) with
  | none =>
    rw [hr] at h
    cases h
  | some r =>
    rw [hr] at h
    dsimp only at h
    cases hend : r.1.setCurrentEndurance itemBase base pct.craft_item_handle r.2 with
    | none =>
      rw [hend] at h
      cases h
    | some s₁ =>
      rw [hend] at h
      have hgoods := setCurrentEndurance_goods hend
      obtain rfl := Option.some.inj h
      exact ⟨r, rfl, hgoods.gold, hgoods.inventory, hgoods.object⟩

omit [DecidableEq K] in
/-- The sockets after a craft of different stones. -/
theorem AllInserted.socketCode {g : Int}
    (h : AllInserted pct.craft_item_handle (given pct base.socket) (List.finRange 4) { s with gold := g } s') :
    (s'.objects pct.craft_item_handle).socket = s.socketCode pct base.socket := by
  funext k
  unfold CraftState.socketCode
  cases hk : given pct base.socket k with
  | none => exact h.kept k fun _ => hk
  | some x => exact h.filled k (List.mem_finRange k) x hk

theorem given_checked (hcheck : checkStones itemBase s pct base.socket 0 false (socketsOf base.socket) = some (.ok (cost, true)))
    {i : Fin 4} {x : Nat} (hi : given pct base.socket i = some x) :
    s.inventory x = true ∧ (itemBase (s.objects x).code).isSome = true := by
  obtain ⟨hmem, hne, rfl⟩ := given_eq_some_iff.mp hi
  have hchecked := (checkStones_ok hcheck).1 i hmem hne
  exact ⟨hchecked.inventory, hchecked.base⟩

/-- Every socket has an item base when the checks have passed. -/
theorem socketCode_isSome
    (hcheck : checkStones itemBase s pct base.socket 0 false (socketsOf base.socket) = some (.ok (cost, true))) :
    ∀ k ∈ socketsOf base.socket, s.socketCode pct base.socket k ≠ 0 →
      (itemBase (s.socketCode pct base.socket k)).isSome = true := by
  intro k hk hne
  unfold socketCode at hne ⊢
  cases hgiven : given pct base.socket k with
  | some x => exact (given_checked hcheck hgiven).2
  | none =>
    rw [hgiven] at hne
    obtain ⟨i, hi, hstone⟩ := checkStones_valid hcheck
    refine ((checkStones_ok hcheck).1 i hi hstone).bases k hk hne ?_
    rintro rfl
    rw [given_eq_some_iff.mpr ⟨hk, hstone, rfl⟩] at hgiven
    cases hgiven

/-- Different stones that have passed the checks are all inserted. -/
theorem insertStones_of_checked
    (hcheck : checkStones itemBase s pct base.socket 0 false (socketsOf base.socket) = some (.ok (cost, true)))
    (hdistinct : ∀ i j x, given pct base.socket i = some x → given pct base.socket j = some x → i = j) :
    ∃ r, insertStones pct.craft_item_handle (given pct base.socket) 0 { s with gold := s.gold - cost } (List.finRange 4) = some r ∧
      AllInserted pct.craft_item_handle (given pct base.socket) (List.finRange 4) { s with gold := s.gold - cost } r.1 :=
  insertStones_of_distinct (s := { s with gold := s.gold - cost }) (List.nodup_finRange 4) (fun i _ j _ => hdistinct i j)
    (fun _ _ _ hi => (given_checked hcheck hi).1) 0

/-- A stone that is given twice is taken at least twice, so that a craft done right has different stones. -/
theorem fitting_of_crafted (hcheck : checkStones itemBase s pct base.socket 0 false (socketsOf base.socket) = some (.ok (cost, true)))
    {s' : CraftState} (hcraft : craft itemBase base { s with gold := s.gold - cost } pct = some s')
    (hdone : Crafted itemBase base.socket s s' pct) : Fitting itemBase base.socket s pct := by
  obtain ⟨r, hr, hgoods⟩ := craft_goods hcraft
  have hdistinct : ∀ i j x, given pct base.socket i = some x → given pct base.socket j = some x → i = j := by
    intro i j x hi hj
    by_contra hij
    obtain ⟨htwo, hless⟩ := insertStones_twice hr (List.mem_finRange i) (List.mem_finRange j) hij hi hj
    have hone := hdone.consumed i x hi
    rw [hgoods.units] at hone
    change 2 ≤ s.units x at htwo
    change _ ≤ s.units x - 2 at hless
    omega
  obtain ⟨r', hr', hall⟩ := insertStones_of_checked hcheck hdistinct
  rw [hr] at hr'
  obtain rfl := Option.some.inj hr'
  refine ⟨hdistinct, fun i x hi => ?_, fun i hi => ?_⟩
  · have hfew := hdone.few i x hi
    rw [(hgoods.object _).1, hall.socketCode] at hfew
    exact hfew
  · have hheld := hdone.held
    rw [hgoods.inventory, (hall.taken i (List.mem_finRange i) _ hi).2] at hheld
    exact of_decide_eq_true hheld

theorem crafted_of_fitting (hinv : s.inventory pct.craft_item_handle = true)
    (hcheck : checkStones itemBase s pct base.socket 0 false (socketsOf base.socket) = some (.ok (cost, true)))
    (hfit : Fitting itemBase base.socket s pct) :
    ∃ s', craft itemBase base { s with gold := s.gold - cost } pct = some s' ∧ Crafted itemBase base.socket s s' pct := by
  obtain ⟨r, hr, hall⟩ := insertStones_of_checked hcheck hfit.distinct
  have hsockets := hall.socketCode
  obtain ⟨total, htotal⟩ := socketEndurance_isSome (socketCode_isSome hcheck) 0
  obtain ⟨s₁, hs₁⟩ : ∃ s₁, r.1.setCurrentEndurance itemBase base pct.craft_item_handle r.2 = some s₁ := by
    unfold setCurrentEndurance
    rw [hsockets, htotal]
    exact ⟨_, rfl⟩
  have hgoods := setCurrentEndurance_goods hs₁
  refine ⟨{ s₁ with contact := some 0 }, ?_, ?_, ?_, ?_, ?_, ?_, ?_, ?_⟩
  · unfold craft
    rw [hr]
    dsimp only
    rw [hs₁]
  · rw [show ({ s₁ with contact := some 0 } : CraftState).gold = s₁.gold from rfl, hgoods.gold, hall.gold,
      (checkStones_ok hcheck).2, Int.zero_add]
  · change s₁.inventory _ = true
    rw [hgoods.inventory]
    by_cases hself : ∃ i, given pct base.socket i = some pct.craft_item_handle
    · obtain ⟨i, hi⟩ := hself
      rw [(hall.taken i (List.mem_finRange i) _ hi).2]
      exact decide_eq_true (hfit.held i hi)
    · rw [(hall.away _ fun i _ hi => hself ⟨i, hi⟩).2.1]
      exact hinv
  · intro k
    change (s₁.objects _).socket k = _
    rw [(hgoods.object _).1, hsockets]
  · intro i x hi
    change alike itemBase base.socket (s₁.objects _).socket i < _
    rw [(hgoods.object _).1, hsockets]
    exact hfit.few i x hi
  · intro i x hi
    exact (hgoods.units x).trans (hall.taken i (List.mem_finRange i) x hi).1
  · intro x hx
    exact (hgoods.units x).trans (hall.away x fun i _ => hx i).1
  · intro x hx
    exact ((hgoods.object x).1).trans (hall.rest x hx)

/-- When the checks have passed, the craft is done right where the request is a fitting one. -/
theorem crafted_iff_fitting (hinv : s.inventory pct.craft_item_handle = true)
    (hcheck : checkStones itemBase s pct base.socket 0 false (socketsOf base.socket) = some (.ok (cost, true))) :
    (∃ s', craft itemBase base { s with gold := s.gold - cost } pct = some s' ∧ Crafted itemBase base.socket s s' pct) ↔
      Fitting itemBase base.socket s pct :=
  ⟨fun ⟨_, hcraft, hdone⟩ => fitting_of_crafted hcheck hcraft hdone, crafted_of_fitting hinv hcheck⟩

theorem craftRight_of_refused {r : CraftResult} (h : s.onSoulStoneCraft itemBase pct = some (r, s)) (hr : r ≠ .SUCCESS) :
    CraftRight itemBase s pct :=
  ⟨r, s, h, fun _ => ⟨rfl, rfl, rfl⟩, fun hsuccess => absurd hsuccess hr⟩

theorem not_craftRight (h : s.onSoulStoneCraft itemBase pct = none) : ¬CraftRight itemBase s pct := by
  rintro ⟨r, s', hsome, -⟩
  rw [h] at hsome
  cases hsome

section

variable {n : Nat} (hcontact : s.contact = some (n + 1)) (hinv : s.inventory pct.craft_item_handle = true)
  (hbase : itemBase (s.objects pct.craft_item_handle).code = some base) (hsocket : ¬(base.socket < 1 ∨ base.socket > 4))

include hcontact hinv hbase hsocket

/-- The answer once the item is known to have sockets. -/
theorem onSoulStoneCraft_of_sockets : s.onSoulStoneCraft itemBase pct =
    match checkStones itemBase s pct base.socket 0 false (socketsOf base.socket) with
    | none => none
    | some (.error r) => some (r, s)
    | some (.ok (_, false)) => some (.INVALID_ARGUMENT, s)
    | some (.ok (nCraftCost, true)) =>
      if s.gold < nCraftCost ∨ ¬s.goldChanges (s.gold - nCraftCost) then some (.NOT_ENOUGH_MONEY, s)
      else ({ s with gold := s.gold - nCraftCost }.craft itemBase base pct).map fun s' => (.SUCCESS, s') := by
  have hthere : ¬s.inventory pct.craft_item_handle = false := by
    rw [hinv]
    exact nofun
  unfold onSoulStoneCraft
  rw [hcontact]
  dsimp only
  rw [if_neg hthere, hbase]
  exact if_neg hsocket

/-- When the checks and the purse allow it, the answer is right where the request is a fitting one. -/
theorem craftRight_iff_fitting (hcheck : checkStones itemBase s pct base.socket 0 false (socketsOf base.socket) = some (.ok (cost, true)))
    (hgold : ¬(s.gold < cost ∨ ¬s.goldChanges (s.gold - cost))) :
    CraftRight itemBase s pct ↔ Fitting itemBase base.socket s pct := by
  have hanswer : s.onSoulStoneCraft itemBase pct =
      (craft itemBase base { s with gold := s.gold - cost } pct).map fun s' => (.SUCCESS, s') := by
    rw [onSoulStoneCraft_of_sockets hcontact hinv hbase hsocket, hcheck]
    exact if_neg hgold
  rw [← crafted_iff_fitting hinv hcheck]
  unfold CraftRight
  rw [hanswer]
  constructor
  · rintro ⟨r, s', hs', -, hdone⟩
    obtain ⟨s₁, hs₁, heq⟩ := Option.map_eq_some_iff.mp hs'
    cases heq
    obtain ⟨b, hb, hcrafted⟩ := hdone rfl
    rw [hbase] at hb
    cases hb
    exact ⟨_, hs₁, hcrafted⟩
  · rintro ⟨s', hs', hcrafted⟩
    exact ⟨.SUCCESS, s', by rw [hs']; rfl, fun h => absurd rfl h, fun _ => ⟨base, hbase, hcrafted⟩⟩

/-- Where the item has sockets, the answer is right where the checks come to an end and what passes them is a fitting request. -/
theorem craftRight_iff_checked : CraftRight itemBase s pct ↔
    checkStones itemBase s pct base.socket 0 false (socketsOf base.socket) ≠ none ∧
      ∀ cost, checkStones itemBase s pct base.socket 0 false (socketsOf base.socket) = some (.ok (cost, true)) →
        cost ≤ s.gold → s.goldChanges (s.gold - cost) → Fitting itemBase base.socket s pct := by
  have hanswer := onSoulStoneCraft_of_sockets hcontact hinv hbase hsocket
  cases hcheck : checkStones itemBase s pct base.socket 0 false (socketsOf base.socket) with
  | none =>
    rw [hcheck] at hanswer
    exact iff_of_false (not_craftRight hanswer) fun h => h.1 rfl
  | some answer =>
    rw [hcheck] at hanswer
    match answer, hcheck with
    | .error r, hcheck => exact iff_of_true (craftRight_of_refused hanswer (checkStones_error hcheck)) ⟨nofun, nofun⟩
    | .ok (cost, false), hcheck => exact iff_of_true (craftRight_of_refused hanswer nofun) ⟨nofun, nofun⟩
    | .ok (cost, true), hcheck =>
      dsimp only at hanswer
      by_cases hgold : s.gold < cost ∨ ¬s.goldChanges (s.gold - cost)
      · rw [if_pos hgold] at hanswer
        refine iff_of_true (craftRight_of_refused hanswer nofun) ⟨nofun, fun cost' heq hle hchange => ?_⟩
        cases heq
        rcases hgold with hless | hno
        · omega
        · exact absurd hchange hno
      · rw [craftRight_iff_fitting hcontact hinv hbase hsocket hcheck hgold]
        rw [not_or, not_not] at hgold
        exact ⟨fun hfit => ⟨nofun, fun _ _ _ _ => hfit⟩, fun h => h.2 cost rfl (by omega) hgold.2⟩

end

/-- **Soul stones.** A request is refused without a change or done right exactly where it is a careful one. -/
theorem craftRight_iff (itemBase : Int → Option (StoneBase K)) (s : CraftState) (pct : SoulStoneRequest) :
    CraftRight itemBase s pct ↔ CarefulCraft itemBase s pct := by
  unfold CarefulCraft
  have hanswer : s.onSoulStoneCraft itemBase pct = s.onSoulStoneCraft itemBase pct := rfl
  conv_rhs at hanswer => unfold onSoulStoneCraft
  cases hcontact : s.contact with
  | none =>
    rw [hcontact] at hanswer
    exact iff_of_false (not_craftRight hanswer) fun h => h.1 rfl
  | some n =>
    cases n with
    | zero =>
      rw [hcontact] at hanswer
      exact iff_of_true (craftRight_of_refused hanswer nofun) ⟨nofun, fun h => absurd rfl h⟩
    | succ n =>
      rw [hcontact] at hanswer
      dsimp only at hanswer
      refine Iff.trans ?_ (and_iff_right nofun).symm
      rw [imp_iff_right (by simp : (some (n + 1) ≠ some 0))]
      cases hinv : s.inventory pct.craft_item_handle with
      | false =>
        rw [if_pos hinv] at hanswer
        exact iff_of_true (craftRight_of_refused hanswer nofun) nofun
      | true =>
        rw [if_neg (by rw [hinv]; exact nofun)] at hanswer
        rw [imp_iff_right rfl]
        cases hbase : itemBase (s.objects pct.craft_item_handle).code with
        | none =>
          rw [hbase] at hanswer
          exact iff_of_false (not_craftRight hanswer) nofun
        | some base =>
          rw [hbase] at hanswer
          dsimp only at hanswer
          simp only [Option.some.injEq, exists_eq_left']
          by_cases hsocket : base.socket < 1 ∨ base.socket > 4
          · rw [if_pos hsocket] at hanswer
            exact iff_of_true (craftRight_of_refused hanswer nofun) fun _ _ => by omega
          · rw [imp_iff_right (by omega : 1 ≤ base.socket), imp_iff_right (by omega : base.socket ≤ 4)]
            exact craftRight_iff_checked hcontact hinv hbase hsocket

/-- Item bases by code: 1 is an item with two sockets, 2 and 3 are soul stones of the kinds 20 and 30. -/
def stoneBases (code : Int) : Option (StoneBase Nat) :=
  if code = 1 then some ⟨2, 0, 0, 0, 1000, 100, 0⟩
  else if code = 2 then some ⟨0, TYPE_SOULSTONE, GROUP_SOULSTONE, CLASS_SOULSTONE, 500, 10, 20⟩
  else if code = 3 then some ⟨0, TYPE_SOULSTONE, GROUP_SOULSTONE, CLASS_SOULSTONE, 700, 10, 30⟩
  else none

/-- A player with the item 10, five stones of one kind in the pile 11 and one more of them in the pile 12. -/
def stonePlayer : CraftState where
  gold := 1000
  objects := fun h => if h = 10 then ⟨1, 1, fun _ => 0, 100⟩ else ⟨2, if h = 11 then 5 else 1, fun _ => 0, 10⟩
  inventory := fun h => h = 10 ∨ h = 11 ∨ h = 12
  contact := some 1

/-- The two piles for the two sockets. -/
def twins : SoulStoneRequest := ⟨10, fun i => if i.val = 0 then 11 else if i.val = 1 then 12 else 0⟩

/-- **Failing input**: the two piles go into the two sockets of one item, where one stone of a kind is allowed. -/
theorem not_craftRight_twins : ¬∀ (s : CraftState) (pct : SoulStoneRequest), CraftRight stoneBases s pct := by
  intro hall
  have hbase : stoneBases (stonePlayer.objects twins.craft_item_handle).code = some ⟨2, 0, 0, 0, 1000, 100, 0⟩ := rfl
  have hcheck : checkStones stoneBases stonePlayer twins 2 0 false (socketsOf 2) = some (.ok (100, true)) := by decide
  have hfit := (craftRight_iff_fitting (n := 0) rfl rfl hbase (by decide) hcheck (by decide)).mp (hall stonePlayer twins)
  have hfew := hfit.few 0 11 (by decide)
  revert hfew
  decide

end

end CraftState

end RZEmulator.Chihiro
