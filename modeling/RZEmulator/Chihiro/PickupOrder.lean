import Mathlib.Data.List.TakeWhile
import RZEmulator.Chihiro.Item

/-!
# Who may take a dropped item

The checks of `WorldSession::onTakeItem`. A dropped item names up to three players or parties; `mayTake` is the loop over
them, and `inTurn_iff` says for which orders it gives everybody what the order says.
-/

namespace RZEmulator.Chihiro

/-- One priority of an `ItemPickupOrder`. -/
structure PickupEntry where
  hPlayer : Nat
  nPartyID : Int
  deriving DecidableEq

structure ItemPickupOrder where
  hPlayer : Fin 3 → Nat
  nPartyID : Fin 3 → Int

def ItemPickupOrder.entries (o : ItemPickupOrder) : List PickupEntry :=
  (List.finRange 3).map fun i => ⟨o.hPlayer i, o.nPartyID i⟩

/-- What the handler reads of an item on the ground. -/
structure DroppedItem where
  isInWorld : Bool := true
  OwnerHandle : Nat := 0
  isQuestItem : Bool := false
  Code : Int := 0
  nCount : Int := 1
  m_nDropTime : Nat
  m_pPickupOrder : ItemPickupOrder

/-- What the handler reads of the player who asks. -/
structure Taker where
  handle : Nat
  partyID : Int := 0
  gold : Int := 0
  /-- The distance to the item is above `GameRule::GetPickableRange()`. -/
  tooFar : Bool := false
  /-- `IsTakeableQuestItem` of the item's code. -/
  takesQuestItem : Bool := false

/-- What the handler answers; `silent` without a message, and `taken` where the item leaves the world. -/
inductive TakeAnswer
  | notExist | silent | tooFar | accessDenied | tooMuchMoney | taken
  deriving DecidableEq

namespace PickupEntry

def isEmpty (e : PickupEntry) : Bool := e.hPlayer == 0 && e.nPartyID == 0

/-- Neither the party nor the player of the entry is the taker's. -/
def rejects (e : PickupEntry) (x : Taker) : Bool :=
  (decide (e.nPartyID ≤ 0) || e.nPartyID != x.partyID) && e.hPlayer != x.handle

end PickupEntry

namespace Taker

variable (x : Taker)

/-- The loop over the priorities, `ry` being the time before which the next one that is not the taker's refuses him. -/
def passes (drop_duration : Nat) : Nat → List PickupEntry → Bool
  | _, [] => true
  | ry, e :: es =>
    if e.isEmpty then true
    else if e.rejects x then
      if drop_duration < ry then false else passes drop_duration (ry + 1000) es
    else passes drop_duration ry es

/-- The difference of two 32-bit times. -/
def dropDuration (item : DroppedItem) (ct : Nat) : Nat := (ct + 2 ^ 32 - item.m_nDropTime) % 2 ^ 32

/-- The pick-up order of the item lets the player take it at the time `ct`. -/
def mayTake (item : DroppedItem) (ct : Nat) : Bool :=
  x.passes (dropDuration item ct) 3000 item.m_pPickupOrder.entries

/-- `WorldSession::onTakeItem`, up to the place where the item is taken. -/
def onTakeItem (ct : Nat) : Option DroppedItem → TakeAnswer
  | none => .notExist
  | some item =>
    if item.isInWorld = false then .notExist
    else if item.OwnerHandle ≠ 0 then .silent
    else if x.tooFar then .tooFar
    else if item.isQuestItem && !x.takesQuestItem then .accessDenied
    else if x.mayTake item ct = false then .accessDenied
    else if item.Code = 0 ∧ x.partyID = 0 ∧ x.gold + item.nCount > MAX_GOLD_FOR_INVENTORY then .tooMuchMoney
    else .taken

/-- What else the item and the player must be like. -/
structure Takeable (item : DroppedItem) : Prop where
  isInWorld : item.isInWorld = true
  ownerless : item.OwnerHandle = 0
  near : x.tooFar = false
  quest : item.isQuestItem = true → x.takesQuestItem = true
  purse : item.Code = 0 → x.partyID = 0 → x.gold + item.nCount ≤ MAX_GOLD_FOR_INVENTORY

/-- The pick-up order is one of the checks, and every one of them must be passed. -/
theorem onTakeItem_eq_taken_iff (item : DroppedItem) (ct : Nat) :
    x.onTakeItem ct (some item) = .taken ↔ x.Takeable item ∧ x.mayTake item ct = true := by
  simp only [onTakeItem]
  constructor
  · intro h
    split_ifs at h with hworld howner hfar hquest hmay hpurse
    refine ⟨⟨by simpa using hworld, not_not.mp howner, by simpa using hfar, fun hq => ?_, fun hcode hparty => ?_⟩,
      by simpa using hmay⟩
    · by_contra hnot
      exact hquest (by simp [hq, hnot])
    · exact not_lt.mp fun hlt => hpurse ⟨hcode, hparty, hlt⟩
  · rintro ⟨⟨hworld, howner, hnear, hquest, hpurse⟩, hmay⟩
    rw [if_neg (by rw [hworld]; exact Bool.noConfusion), if_neg (not_not.mpr howner),
      if_neg (by rw [hnear]; exact Bool.noConfusion), if_neg (fun h => ?_), if_neg (by rw [hmay]; exact Bool.noConfusion),
      if_neg fun h => absurd (hpurse h.1 h.2.1) (not_le.mpr h.2.2)]
    rw [Bool.and_eq_true] at h
    rw [hquest h.1] at h
    exact absurd h.2 Bool.noConfusion

/-! ## What the order says -/

/-- The priorities of an order, up to the first that is empty. -/
def ranks (o : ItemPickupOrder) : List PickupEntry := o.entries.takeWhile fun e => !e.isEmpty

/-- When the protection of a priority begins; that of the next one after the last is the end of all protection. -/
def protectionBegins : Nat → Nat
  | 0 => 0
  | k + 1 => 3000 + 1000 * k

/-- The first priority that names the taker. -/
def rank (o : ItemPickupOrder) : Option Nat := (ranks o).findIdx? fun e => !e.rejects x

/-- The item has been lying there at the time `ct`. -/
def Lies (item : DroppedItem) (ct : Nat) : Prop := item.m_nDropTime ≤ ct ∧ ct < 2 ^ 32

/-- Everybody in his turn: whoever is named from the moment at which his protection begins, whoever is not named not
before all protection is over, and whoever may take the item may take it later. -/
structure InTurn (item : DroppedItem) : Prop where
  named : ∀ ct k, Lies item ct → x.rank item.m_pPickupOrder = some k →
    protectionBegins k ≤ ct - item.m_nDropTime → x.mayTake item ct = true
  unnamed : ∀ ct, Lies item ct → x.rank item.m_pPickupOrder = none →
    ct - item.m_nDropTime < protectionBegins (ranks item.m_pPickupOrder).length → x.mayTake item ct = false
  mono : ∀ ct ct', Lies item ct → Lies item ct' → ct ≤ ct' → x.mayTake item ct = true → x.mayTake item ct' = true

/-- No priority after the taker's first one rejects him. -/
def LastRank (o : ItemPickupOrder) : Prop :=
  ∀ k, x.rank o = some k → ∀ e ∈ (ranks o).drop k, e.rejects x = false

/-! ## The loop -/

variable {x} {d d' ry n k : Nat} {l : List PickupEntry} {item : DroppedItem} {o : ItemPickupOrder} {ct : Nat}

/-- The loop counts the priorities that reject the taker. -/
theorem passes_iff (x : Taker) (d ry : Nat) (l : List PickupEntry) :
    x.passes d ry l = true ↔
      ∀ n, (l.takeWhile fun e => !e.isEmpty).countP (fun e => e.rejects x) = n + 1 → ry + 1000 * n ≤ d := by
  induction l generalizing ry with
  | nil => exact iff_of_true rfl nofun
  | cons e es ih =>
    unfold passes
    cases hempty : e.isEmpty with
    | true =>
      rw [if_pos rfl, List.takeWhile_cons_of_neg (by rw [hempty]; decide)]
      exact iff_of_true rfl nofun
    | false =>
      rw [if_neg Bool.noConfusion, List.takeWhile_cons_of_pos (by rw [hempty]; rfl)]
      cases hrejects : e.rejects x with
      | false =>
        rw [if_neg Bool.noConfusion, List.countP_cons_of_neg (p := fun e : PickupEntry => e.rejects x) (by rw [hrejects]; exact Bool.noConfusion), ih]
      | true =>
        rw [if_pos rfl, List.countP_cons_of_pos (p := fun e : PickupEntry => e.rejects x) hrejects]
        by_cases hlt : d < ry
        · rw [if_pos hlt]
          refine iff_of_false Bool.noConfusion fun h => ?_
          have := h _ rfl
          omega
        · rw [if_neg hlt, ih]
          constructor
          · intro h n hn
            cases n with
            | zero => omega
            | succ n =>
              have := h n (by omega)
              omega
          · intro h n hn
            have := h (n + 1) (by omega)
            omega

/-- How many of the priorities reject the taker. -/
def rejections (x : Taker) (o : ItemPickupOrder) : Nat := (ranks o).countP fun e => e.rejects x

theorem dropDuration_eq (h : Lies item ct) : dropDuration item ct = ct - item.m_nDropTime := by
  obtain ⟨hle, hlt⟩ := h
  unfold dropDuration
  omega

/-- When the order lets the taker take the item. -/
theorem mayTake_iff (h : Lies item ct) :
    x.mayTake item ct = true ↔ protectionBegins (x.rejections item.m_pPickupOrder) ≤ ct - item.m_nDropTime := by
  unfold mayTake
  rw [passes_iff, dropDuration_eq h]
  change (∀ n, x.rejections item.m_pPickupOrder = n + 1 → _) ↔ _
  cases hn : x.rejections item.m_pPickupOrder with
  | zero => exact iff_of_true nofun (Nat.zero_le _)
  | succ n =>
    constructor
    · intro hall
      exact hall n rfl
    · intro hle m hm
      obtain rfl : n = m := Nat.succ.inj hm
      exact hle

theorem protectionBegins_lt_iff : protectionBegins k < protectionBegins n ↔ k < n := by
  cases k with
  | zero =>
    cases n with
    | zero => exact iff_of_false (lt_irrefl _) (lt_irrefl _)
    | succ n =>
      refine iff_of_true ?_ (Nat.succ_pos n)
      show 0 < 3000 + 1000 * n
      omega
  | succ k =>
    cases n with
    | zero => exact iff_of_false (Nat.not_lt_zero _) (Nat.not_lt_zero _)
    | succ n =>
      show 3000 + 1000 * k < 3000 + 1000 * n ↔ k + 1 < n + 1
      omega

/-! ## Who is named -/

/-- Where the taker's first priority is `k`, the `k` before it reject him, and so do those after it that name others. -/
theorem rejections_of_rank (hk : x.rank o = some k) :
    x.rejections o = k + ((ranks o).drop k).countP fun e => e.rejects x := by
  obtain ⟨hlt, -, hbefore⟩ := List.findIdx?_eq_some_iff_getElem.mp hk
  have hcount : ((ranks o).take k).countP (fun e => e.rejects x) = k := by
    have hall : ∀ e ∈ (ranks o).take k, e.rejects x = true := by
      intro e hmem
      obtain ⟨j, hj, rfl⟩ := List.mem_take_iff_getElem.mp hmem
      have := hbefore j (by omega)
      simpa using this
    rw [List.countP_eq_length.mpr hall, List.length_take]
    omega
  unfold rejections
  conv_lhs => rw [← List.take_append_drop k (ranks o)]
  rw [List.countP_append, hcount]

theorem rejections_of_unnamed (hnone : x.rank o = none) : x.rejections o = (ranks o).length := by
  unfold rejections
  rw [List.countP_eq_length]
  intro e hmem
  have := List.findIdx?_eq_none_iff.mp hnone e hmem
  simpa using this

theorem lastRank_iff (hk : x.rank o = some k) : x.LastRank o ↔ x.rejections o = k := by
  have hall : x.LastRank o ↔ ∀ e ∈ (ranks o).drop k, e.rejects x = false := by
    constructor
    · intro h
      exact h k hk
    · intro h k' hk'
      obtain rfl : k = k' := Option.some.inj (hk.symm.trans hk')
      exact h
  rw [hall, rejections_of_rank hk]
  constructor
  · intro h
    rw [List.countP_eq_zero.mpr fun e hmem => by rw [h e hmem]; exact Bool.noConfusion]
    rfl
  · intro h e hmem
    have hzero : ((ranks o).drop k).countP (fun e => e.rejects x) = 0 := by omega
    exact Bool.eq_false_iff.mpr (List.countP_eq_zero.mp hzero e hmem)

/-- The time at which the protection of a priority begins, counted from the drop, is a 32-bit number. -/
theorem protectionBegins_lt (hk : x.rank o = some k) : protectionBegins k < 2 ^ 32 := by
  have hlen : (ranks o).length ≤ 3 := (List.takeWhile_sublist _).length_le
  obtain ⟨hlt, -⟩ := List.findIdx?_eq_some_iff_getElem.mp hk
  cases k with
  | zero => decide
  | succ k =>
    show 3000 + 1000 * k < 2 ^ 32
    omega

/-- **Everybody in his turn**: the pick-up order of an item is kept for a player exactly where no priority after his first
one rejects him; the loop does not stop at the priority that names him. -/
theorem inTurn_iff (x : Taker) (o : ItemPickupOrder) :
    (∀ item : DroppedItem, item.m_pPickupOrder = o → x.InTurn item) ↔ x.LastRank o := by
  constructor
  · intro hall k hk
    have hin := hall ⟨true, 0, false, 0, 1, 0, o⟩ rfl
    have hlies : Lies ⟨true, 0, false, 0, 1, 0, o⟩ (protectionBegins k) := ⟨Nat.zero_le _, protectionBegins_lt hk⟩
    have hle := (mayTake_iff hlies).mp (hin.named _ k hlies hk le_rfl)
    have heq : x.rejections o = k := by
      have hge : k ≤ x.rejections o := by
        rw [rejections_of_rank hk]
        exact Nat.le_add_right _ _
      have hnot : ¬k < x.rejections o := fun h => absurd (protectionBegins_lt_iff.mpr h) (not_lt.mpr hle)
      omega
    exact (lastRank_iff hk).mpr heq k hk
  · rintro hlast item rfl
    refine ⟨fun ct k hlies hk hle => ?_, fun ct hlies hnone hlt => ?_, fun ct ct' hlies hlies' hle h => ?_⟩
    · rw [mayTake_iff hlies, (lastRank_iff hk).mp hlast]
      exact hle
    · rw [← Bool.not_eq_true, mayTake_iff hlies, rejections_of_unnamed hnone]
      omega
    · rw [mayTake_iff hlies] at h
      rw [mayTake_iff hlies']
      omega

/-- The first of two priorities names the player 5, the second one the party 9. -/
def twoRanks : ItemPickupOrder := ⟨fun i => if i.val = 0 then 5 else 0, fun i => if i.val = 1 then 9 else 0⟩

/-- **Failing input**: the player 5 is refused at first, though the first priority is his. -/
theorem not_inTurn : ¬∀ (x : Taker) (item : DroppedItem), x.InTurn item := by
  intro hall
  have h := (hall ⟨5, 0, 0, false, false⟩ ⟨true, 0, false, 0, 1, 0, twoRanks⟩).named 0 0 ⟨le_rfl, by decide⟩ (by decide)
    (Nat.zero_le _)
  revert h
  decide

end Taker

end RZEmulator.Chihiro
