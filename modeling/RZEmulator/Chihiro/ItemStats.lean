import RZEmulator.Chihiro.ItemWearEffect

/-!
# Stats from worn items

`applyStatByItem` of `CalculateStat.cpp`: the options `IEP_INC_PARAMETER_A` of the worn items and of the stones in them are added to
the seven stats. A worn item without sockets ends the loop over the slots.
-/

namespace RZEmulator.Chihiro

open Lib

/-! ## The loop -/

/-- `opt_type` and `opt_var` -/
structure ItemOption where
  opt_type : Int
  opt_var_0 : ℚ
  opt_var_1 : ℚ

/-- What the loop reads of `ItemTemplate`. -/
structure StatTemplate where
  opt : Fin 4 → ItemOption
  socket : Int
  use_min_level : Int
  use_max_level : Int

structure StatItem where
  getItemBase : StatTemplate
  Socket : Fin 4 → Int
  getCurrentEndurance : Int

/-- The worn items of a unit, what `TranslateWearPosition` says of them, and the items of the game. -/
structure WornGear where
  m_anWear : Fin 24 → Option StatItem
  translateWearPosition : Fin 24 → Bool
  getItemBase : Int → Option StatTemplate

namespace StatUnit

def incOption (u : StatUnit) (o : ItemOption) : StatUnit :=
  if o.opt_type = 0 then u
  else if o.opt_type = IEP_INC_PARAMETER_A then u.incParameter (BitVec.ofInt 32 (truncated o.opt_var_0)) o.opt_var_1 true
  else u

def incOptions (u : StatUnit) (base : StatTemplate) : StatUnit := (List.finRange 4).foldl (fun u x => u.incOption (base.opt x)) u

/-- A socket of the item. -/
def incStone (u : StatUnit) (w : WornGear) (item : StatItem) (x : Int) : StatUnit :=
  if x = 0 then u
  else
    match w.getItemBase x with
    | none => u
    | some SocketBase =>
      if u.traits.level < SocketBase.use_min_level ∨ u.traits.level > SocketBase.use_max_level then u
      else if item.getCurrentEndurance = 0 then u
      else u.incOptions SocketBase

/-- The slots that are left. -/
def applySlots (u : StatUnit) (w : WornGear) : List (Fin 24) → StatUnit
  | [] => u
  | i :: slots =>
    match w.m_anWear i with
    | none => u.applySlots w slots
    | some item =>
      if w.translateWearPosition i = false then u.applySlots w slots
      else
        let u := u.incOptions item.getItemBase
        -- leaves the function, not the slot
        if item.getItemBase.socket = 0 then u
        else ((List.finRange 4).foldl (fun u x => u.incStone w item (item.Socket x)) u).applySlots w slots

def applyStatByItem (u : StatUnit) (w : WornGear) : StatUnit := u.applySlots w (List.finRange 24)

end StatUnit

/-! ## The bonus of an item -/

/-- What the option adds to a stat. -/
def ItemOption.bonus (o : ItemOption) (f : StatField) : ℚ :=
  if o.opt_type = IEP_INC_PARAMETER_A ∧ (BitVec.ofInt 32 (truncated o.opt_var_0)).getLsbD f.flag = true then o.opt_var_1 else 0

def StatTemplate.bonus (base : StatTemplate) (f : StatField) : ℚ := ((List.finRange 4).map fun x => (base.opt x).bonus f).sum

/-- The range of levels of a stone admits the level. -/
def StatTemplate.Admits (base : StatTemplate) (level : Int) : Prop := base.use_min_level ≤ level ∧ level ≤ base.use_max_level

instance (base : StatTemplate) (level : Int) : Decidable (base.Admits level) := inferInstanceAs (Decidable (_ ∧ _))

namespace WornGear

variable (w : WornGear) (level : Int)

/-- The bonus of the stone in a socket. -/
def stoneBonus (item : StatItem) (x : Int) (f : StatField) : ℚ :=
  if x ≠ 0 ∧ item.getCurrentEndurance ≠ 0 then
    ((w.getItemBase x).filter fun base => decide (base.Admits level)).elim 0 fun base => base.bonus f
  else 0

def stonesBonus (item : StatItem) (f : StatField) : ℚ := ((List.finRange 4).map fun x => w.stoneBonus level item (item.Socket x) f).sum

/-- The item of the slot, if `TranslateWearPosition` accepts it. -/
def accepted (i : Fin 24) : Option StatItem := (w.m_anWear i).filter fun _ => w.translateWearPosition i

/-- What the item in the slot adds to a stat: its own options and those of its stones. -/
def slotBonus (i : Fin 24) (f : StatField) : ℚ :=
  (w.accepted i).elim 0 fun item => item.getItemBase.bonus f + w.stonesBonus level item f

/-- The slot holds an item without sockets. -/
def socketless (i : Fin 24) : Bool := (w.accepted i).any fun item => item.getItemBase.socket = 0

end WornGear

/-! ## What the loop adds -/

namespace StatUnit

/-- The stats raised, each by its own amount, and nothing else changed. -/
def addStats (u : StatUnit) (d : StatField → ℚ) : StatUnit :=
  u.setValue fun t =>
    match t with
    | .m_cStat f => u.value t + d f
    | _ => u.value t

theorem addStats_traits (u : StatUnit) (d : StatField → ℚ) : (u.addStats d).traits = u.traits := rfl

theorem addStats_zero (u : StatUnit) : u.addStats (fun _ => 0) = u := by
  have hvalue : (u.addStats fun _ => 0).value = u.value := by
    funext t
    cases t with
    | m_cStat f => exact add_zero _
    | _ => rfl
  exact congrArg u.setValue hvalue

theorem addStats_addStats (u : StatUnit) (d d' : StatField → ℚ) : (u.addStats d).addStats d' = u.addStats fun f => d f + d' f := by
  have hvalue : ((u.addStats d).addStats d').value = (u.addStats fun f => d f + d' f).value := by
    funext t
    cases t with
    | m_cStat f => exact add_assoc _ _ _
    | _ => rfl
  exact congrArg u.setValue hvalue

theorem addStats_inj {u : StatUnit} {d d' : StatField → ℚ} : u.addStats d = u.addStats d' ↔ ∀ f, d f = d' f := by
  refine ⟨fun h f => ?_, fun h => by rw [funext h]⟩
  have hvalue : u.value (.m_cStat f) + d f = u.value (.m_cStat f) + d' f := congrFun (congrArg value h) (.m_cStat f)
  exact add_left_cancel hvalue

/-- `incParameter` for the stats. -/
theorem incParameter_stats (u : StatUnit) (nBitset : BitVec 32) (v : ℚ) :
    u.incParameter nBitset v true = u.addStats fun f => if nBitset.getLsbD f.flag = true then v else 0 := by
  have h : AppliedExactly (.incParameter true) nBitset v u (u.incParameter nBitset v true) :=
    appliedExactly (fun h => by cases h) v
  generalize u.incParameter nBitset v true = u' at h
  obtain ⟨value, normal, range, hpRegen, mpRegen, traits⟩ := u'
  obtain ⟨hvalue, hnormal, hrange, hhp, hmp, htraits⟩ := h
  have hnormal' : normal = u.m_vNormalAdditionalDamage := hnormal.trans (List.append_nil _)
  have hrange' : range = u.m_vRangeAdditionalDamage := hrange.trans (List.append_nil _)
  have hhp' : hpRegen = u.hpRegenStopped := hhp.trans (Bool.or_false _)
  have hmp' : mpRegen = u.mpRegenStopped := hmp.trans (Bool.or_false _)
  have hvalue' : value = (u.addStats fun f => if nBitset.getLsbD f.flag = true then v else 0).value := by
    funext t
    refine (hvalue t).trans ?_
    cases t with
    | m_cStat f =>
      show (if (nBitset.getLsbD f.flag && true) = true then u.value (.m_cStat f) + v else u.value (.m_cStat f)) =
        u.value (.m_cStat f) + if nBitset.getLsbD f.flag = true then v else 0
      rw [Bool.and_true]
      split_ifs
      · rfl
      · exact (add_zero _).symm
    | _ => rfl
  dsimp only at htraits
  rw [hvalue', hnormal', hrange', hhp', hmp', htraits]
  rfl

theorem incOption_eq (u : StatUnit) (o : ItemOption) : u.incOption o = u.addStats o.bonus := by
  unfold incOption ItemOption.bonus
  by_cases htype : o.opt_type = IEP_INC_PARAMETER_A
  · rw [if_neg (by rw [htype]; decide), if_pos htype, incParameter_stats]
    congr 1
    funext f
    exact if_congr (and_iff_right htype).symm rfl rfl
  · have hzero : (fun f : StatField => if o.opt_type = IEP_INC_PARAMETER_A ∧
        (BitVec.ofInt 32 (truncated o.opt_var_0)).getLsbD f.flag = true then o.opt_var_1 else 0) = fun _ => 0 := by
      funext f
      exact if_neg fun h => htype h.1
    rw [hzero, addStats_zero, if_neg htype, ite_self]

/-- A loop whose every turn raises the stats raises them by the sum. -/
theorem foldl_addStats {α : Type*} {step : StatUnit → α → StatUnit} {bonus : α → StatField → ℚ} {x : UnitTraits}
    (hstep : ∀ u a, u.traits = x → step u a = u.addStats (bonus a)) (l : List α) {u : StatUnit} (hu : u.traits = x) :
    l.foldl step u = u.addStats fun f => (l.map fun a => bonus a f).sum := by
  induction l generalizing u with
  | nil => exact u.addStats_zero.symm
  | cons a l ih =>
    rw [List.foldl_cons, hstep u a hu, ih (u := u.addStats (bonus a)) hu, addStats_addStats]
    rfl

theorem incOptions_eq (u : StatUnit) (base : StatTemplate) : u.incOptions base = u.addStats base.bonus :=
  foldl_addStats (fun u x _ => u.incOption_eq (base.opt x)) _ rfl

theorem incStone_eq (u : StatUnit) (w : WornGear) (item : StatItem) (x : Int) :
    u.incStone w item x = u.addStats (w.stoneBonus u.traits.level item x) := by
  have hnone : ∀ {d : StatField → ℚ}, (∀ f, d f = 0) → u = u.addStats d := by
    intro d hd
    rw [funext hd]
    exact u.addStats_zero.symm
  unfold incStone WornGear.stoneBonus
  by_cases hx : x = 0
  · rw [if_pos hx]
    exact hnone fun f => if_neg fun h => h.1 hx
  rw [if_neg hx]
  cases hbase : w.getItemBase x with
  | none => exact hnone fun f => by split_ifs <;> rfl
  | some base =>
    dsimp only
    by_cases hlevel : base.Admits u.traits.level
    · rw [if_neg (not_or.mpr ⟨not_lt.mpr hlevel.1, not_lt.mpr hlevel.2⟩), Option.filter_some, if_pos (decide_eq_true hlevel)]
      by_cases hend : item.getCurrentEndurance = 0
      · rw [if_pos hend]
        exact hnone fun f => if_neg fun h => h.2 hend
      · rw [if_neg hend, incOptions_eq]
        congr 1
        funext f
        exact (if_pos ⟨hx, hend⟩).symm
    · have hout : u.traits.level < base.use_min_level ∨ u.traits.level > base.use_max_level := by
        by_contra h
        rw [not_or] at h
        exact hlevel ⟨not_lt.mp h.1, not_lt.mp h.2⟩
      rw [if_pos hout, Option.filter_some, if_neg (by rw [decide_eq_false hlevel]; exact Bool.false_ne_true)]
      exact hnone fun f => by split_ifs <;> rfl

end StatUnit

namespace WornGear

variable (w : WornGear) (level : Int)

/-- What the stones of the item in the slot add. -/
def slotStones (i : Fin 24) (f : StatField) : ℚ := (w.accepted i).elim 0 fun item => w.stonesBonus level item f

/-- What the loop leaves out: the stones of the first item without sockets, and the items behind it. -/
def lost (f : StatField) : List (Fin 24) → ℚ
  | [] => 0
  | i :: slots =>
    if w.socketless i = true then w.slotStones level i f + (slots.map fun j => w.slotBonus level j f).sum else lost f slots

/-- The stones of the first item without sockets and the items behind it raise no stat. -/
def NothingLost : Prop :=
  ∀ before i after, List.finRange 24 = before ++ i :: after → (∀ j ∈ before, w.socketless j = false) → w.socketless i = true →
    ∀ f, w.slotStones level i f + (after.map fun j => w.slotBonus level j f).sum = 0

theorem lost_append {before : List (Fin 24)} (hbefore : ∀ j ∈ before, w.socketless j = false) (f : StatField)
    (slots : List (Fin 24)) : w.lost level f (before ++ slots) = w.lost level f slots := by
  induction before with
  | nil => rfl
  | cons j before ih =>
    rw [List.cons_append, lost, hbefore j List.mem_cons_self, if_neg Bool.false_ne_true]
    exact ih fun k hk => hbefore k (List.mem_cons_of_mem j hk)

theorem lost_eq_zero_of_socketless {slots : List (Fin 24)} (h : ∀ j ∈ slots, w.socketless j = false) (f : StatField) :
    w.lost level f slots = 0 := by
  have hlost := w.lost_append level h f []
  rw [List.append_nil] at hlost
  exact hlost

theorem nothingLost_iff : w.NothingLost level ↔ ∀ f, w.lost level f (List.finRange 24) = 0 := by
  constructor
  · intro h f
    by_cases hall : ∀ j ∈ List.finRange 24, w.socketless j = false
    · exact w.lost_eq_zero_of_socketless level hall f
    · -- the slots in front of the first item without sockets
      have hany : (List.finRange 24).any w.socketless = true := by
        push Not at hall
        obtain ⟨j, hj, hsocketless⟩ := hall
        exact List.any_eq_true.mpr ⟨j, hj, Bool.eq_true_of_not_eq_false hsocketless⟩
      obtain ⟨i, hi⟩ := Option.isSome_iff_exists.mp (List.find?_isSome.mpr (List.any_eq_true.mp hany))
      obtain ⟨hi, before, after, hslots, hbefore⟩ := List.find?_eq_some_iff_append.mp hi
      have hbefore' : ∀ j ∈ before, w.socketless j = false := fun j hj => by
        have := hbefore j hj
        rwa [Bool.not_eq_true'] at this
      rw [hslots, w.lost_append level hbefore' f, lost, if_pos hi]
      exact h before i after hslots hbefore' hi f
  · intro h before i after hslots hbefore hi f
    have hlost := h f
    rw [hslots, w.lost_append level hbefore f, lost, if_pos hi] at hlost
    exact hlost

end WornGear

/-- The loop adds what the slots are worth, less what it leaves out. -/
theorem StatUnit.applySlots_eq (w : WornGear) (slots : List (Fin 24)) (u : StatUnit) :
    u.applySlots w slots = u.addStats fun f =>
      (slots.map fun i => w.slotBonus u.traits.level i f).sum - w.lost u.traits.level f slots := by
  induction slots generalizing u with
  | nil =>
    have hzero : (fun f : StatField => (([] : List (Fin 24)).map fun i => w.slotBonus u.traits.level i f).sum -
        w.lost u.traits.level f []) = fun _ => 0 := funext fun f => sub_zero 0
    rw [hzero, addStats_zero]
    rfl
  | cons i slots ih =>
    have hskip : w.accepted i = none → u.applySlots w slots = u.addStats fun f =>
        ((i :: slots).map fun i => w.slotBonus u.traits.level i f).sum - w.lost u.traits.level f (i :: slots) := by
      intro haccepted
      rw [ih, addStats_inj]
      intro f
      rw [List.map_cons, List.sum_cons, WornGear.lost, WornGear.socketless, WornGear.slotBonus, haccepted, Option.any_none,
        if_neg Bool.false_ne_true, Option.elim_none, zero_add]
    unfold applySlots
    cases hworn : w.m_anWear i with
    | none => exact hskip (by rw [WornGear.accepted, hworn]; rfl)
    | some item =>
      dsimp only
      cases htranslate : w.translateWearPosition i with
      | false => exact hskip (by rw [WornGear.accepted, hworn, Option.filter_some, htranslate, if_neg Bool.false_ne_true])
      | true =>
        have haccepted : w.accepted i = some item := by rw [WornGear.accepted, hworn, Option.filter_some, htranslate, if_pos rfl]
        rw [if_neg (by decide)]
        by_cases hsocket : item.getItemBase.socket = 0
        · rw [if_pos hsocket, incOptions_eq, addStats_inj]
          intro f
          rw [List.map_cons, List.sum_cons, WornGear.lost, WornGear.socketless, WornGear.slotBonus, WornGear.slotStones, haccepted,
            Option.any_some, if_pos (decide_eq_true hsocket), Option.elim_some, Option.elim_some]
          ring
        · have hstones : (List.finRange 4).foldl (fun u x => u.incStone w item (item.Socket x)) (u.addStats item.getItemBase.bonus) =
              (u.addStats item.getItemBase.bonus).addStats (w.stonesBonus u.traits.level item) :=
            foldl_addStats (x := u.traits) (fun v x hv => by rw [incStone_eq, hv]) _ rfl
          rw [if_neg hsocket, incOptions_eq, hstones, ih, addStats_addStats, addStats_addStats, addStats_inj]
          intro f
          rw [List.map_cons, List.sum_cons, WornGear.lost, WornGear.socketless, WornGear.slotBonus, haccepted,
            Option.any_some, decide_eq_false hsocket, if_neg Bool.false_ne_true, Option.elim_some, addStats_traits, addStats_traits]
          ring

namespace StatUnit

/-- Every stat is raised by the sum of what the worn items add, and nothing else changes. -/
def BonusRight (u : StatUnit) (w : WornGear) : Prop :=
  u.applyStatByItem w = u.addStats fun f => ((List.finRange 24).map fun i => w.slotBonus u.traits.level i f).sum

/-- **The bonus is right if and only if nothing is lost** behind an item without sockets. -/
theorem bonusRight_iff (u : StatUnit) (w : WornGear) : u.BonusRight w ↔ w.NothingLost u.traits.level := by
  unfold BonusRight applyStatByItem
  rw [applySlots_eq, addStats_inj, w.nothingLost_iff]
  exact forall_congr' fun f => sub_eq_self

/-- An item that raises the strength by 5. -/
def strengthItem : StatItem where
  getItemBase :=
    { opt := fun x => if x.val = 0 then ⟨IEP_INC_PARAMETER_A, 1, 5⟩ else ⟨0, 0, 0⟩
      socket := 0
      use_min_level := 0
      use_max_level := 0 }
  Socket _ := 0
  getCurrentEndurance := 1

/-- Two of these items. -/
def twoStrengthItems : WornGear where
  m_anWear i := if i = 2 ∨ i = 3 then some strengthItem else none
  translateWearPosition _ := true
  getItemBase _ := none

/-- The second item raises nothing. -/
theorem not_bonusRight_second : ¬ rider.BonusRight twoStrengthItems := by
  intro h
  have hvalue := congrFun (congrArg value h) (.m_cStat .strength)
  exact absurd hvalue (by decide +kernel)

end StatUnit

end RZEmulator.Chihiro
