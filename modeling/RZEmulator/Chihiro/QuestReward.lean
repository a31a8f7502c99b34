import RZEmulator.Chihiro.QuestLog
import RZEmulator.Chihiro.StorageRun

/-!
# The items of a quest that ends

The loop over the objectives takes its demands from the piles of the inventory one after the other, each from the
first stack of its code (`eraseItems_spec`). The rewards are put on the piles in turn (`giveRewards_spec`), and
`HasRoom` says when all of them can be. An amount is that of the template rounded to single precision.
-/

namespace RZEmulator.Chihiro

open Lib World SingleFloat

theorem scaled_one (n : Int) : scaled n 1 = rounded n := by
  unfold scaled
  rw [mul_one, Rat.num_intCast, Rat.den_intCast]
  exact Int.tdiv_one _

theorem rounded_near_of_isInt32 {n : Int} (hn : IsInt32 n) : n - 256 ≤ rounded n ∧ rounded n ≤ n + 256 := by
  have hulp := ulp_le (n := n) (k := 8) (by unfold IsInt32 at hn; omega)
  have hnear := rounded_near n
  omega

theorem isInt64_rounded {n : Int} (hn : IsInt32 n) : IsInt64 (rounded n) := by
  have hnear := rounded_near_of_isInt32 hn
  unfold IsInt32 at hn
  unfold IsInt64
  omega

namespace World

variable {w w' : World} {h : Handle} {ds : List (Int × Int)}

/-! ## Objectives -/

theorem eraseItems_cons (h : Handle) (code count : Int) (ds : List (Int × Int)) (w : World) :
    Adventurer.eraseItems h ((code, count) :: ds) w =
      if code ≠ 0 then
        match w.findByCode (bag h) code with
        | some p => (w.erase (bag h) p count).bind (Adventurer.eraseItems h ds)
        | none => Adventurer.eraseItems h ds w
      else Adventurer.eraseItems h ds w := rfl

theorem filter_coded {code count : Int} (hcode : code ≠ 0) (ds : List (Int × Int)) :
    ((code, count) :: ds).filter (fun d => d.1 ≠ 0) = (code, count) :: ds.filter (fun d => d.1 ≠ 0) :=
  List.filter_cons_of_pos (by simpa using hcode)

/-- Without a stack of the code nothing is taken. -/
theorem take_of_findByCode_none (hok : WorldOk w) {code : Int} (hfind : w.findByCode (bag h) code = none) (count : Int) :
    (w.piles (bag h)).take code count = w.piles (bag h) := by
  unfold Stacks.take
  rw [first_piles (hok.stocked _).position, hfind]
  rfl

/-- **The loop over the objectives**: the demands are taken from the piles one after the other. -/
theorem eraseItems_spec (hok : GoodsOk w) (hh : w.playerPool h = true)
    (hrun : Adventurer.eraseItems h ds w = some w') :
    GoodsOk w' ∧ Later w w' ∧
      w'.piles (bag h) = Stacks.takeAll (ds.filter fun d => d.1 ≠ 0) (w.piles (bag h)) := by
  induction ds generalizing w with
  | nil =>
    obtain rfl := Option.some.inj hrun
    exact ⟨hok, .refl w, rfl⟩
  | cons d ds ih =>
    obtain ⟨code, count⟩ := d
    rw [eraseItems_cons] at hrun
    by_cases hcode : code ≠ 0
    · rw [if_pos hcode] at hrun
      rw [filter_coded hcode]
      have hall : ∀ l : Stacks Int, Stacks.takeAll ((code, count) :: ds.filter fun d => d.1 ≠ 0) l =
          Stacks.takeAll (ds.filter fun d => d.1 ≠ 0) (l.take code count) := fun _ => rfl
      rw [hall]
      cases hfind : w.findByCode (bag h) code with
      | none =>
        rw [hfind] at hrun
        rw [take_of_findByCode_none hok.toWorldOk hfind]
        exact ih hok hh hrun
      | some p =>
        rw [hfind] at hrun
        obtain ⟨w₁, herase, hrest⟩ := Option.bind_eq_some_iff.mp hrun
        have hfrom := erase_erasedFrom hok.toWorldOk (code_of_findByCode hfind).1 herase
        obtain ⟨hgoods, hlater, hpiles⟩ := ih (hok.erasedFrom (r := bag h) hh hfrom)
          ((congrFun hfrom.later.playerPool h).trans hh) hrest
        refine ⟨hgoods, hfrom.later.trans hlater, ?_⟩
        rw [hpiles, erase_piles hok.toWorldOk hfind herase]
    · rw [if_neg hcode] at hrun
      rw [List.filter_cons_of_neg (by simpa using hcode)]
      exact ih hok hh hrun

/-- Demands that are served are erased. -/
theorem eraseItems_isSome (hok : GoodsOk w) (hh : w.playerPool h = true)
    (hs : Stacks.Served (ds.filter fun d => d.1 ≠ 0) (w.piles (bag h))) : (Adventurer.eraseItems h ds w).isSome := by
  induction ds generalizing w with
  | nil => rfl
  | cons d ds ih =>
    obtain ⟨code, count⟩ := d
    rw [eraseItems_cons]
    by_cases hcode : code ≠ 0
    · rw [if_pos hcode]
      rw [filter_coded hcode] at hs
      obtain ⟨hhead, hrest⟩ := hs
      cases hfind : w.findByCode (bag h) code with
      | none =>
        rw [take_of_findByCode_none hok.toWorldOk hfind] at hrest
        exact ih hok hh hrest
      | some p =>
        have hmem := (code_of_findByCode hfind).1
        have hst := hok.stocked (bag h)
        have hcount : 0 ≤ count := by
          unfold Stacks.Suffices at hhead
          rw [first_piles hst.position, hfind] at hhead
          exact hhead.1
        have hsome : (w.erase (bag h) p count).isSome :=
          erase_isSome (hst.position.getElem? hmem) (hst.based p hmem) (hok.held _ p hmem).count hcount
        obtain ⟨w₁, herase⟩ := Option.isSome_iff_exists.mp hsome
        have hfrom := erase_erasedFrom hok.toWorldOk hmem herase
        rw [← erase_piles hok.toWorldOk hfind herase] at hrest
        dsimp only
        rw [herase, Option.bind_some]
        exact ih (hok.erasedFrom (r := bag h) hh hfrom) ((congrFun hfrom.later.playerPool h).trans hh) hrest
    · rw [if_neg hcode]
      rw [List.filter_cons_of_neg (by simpa using hcode)] at hs
      exact ih hok hh hs

end World

/-! ## Rewards -/

namespace Adventurer

variable {s s₁ s' : Adventurer} {r : Reward} {rs : List Reward} {code : Int}

/-- The inventory after a reward. -/
def rewarded (w : World) (r : Reward) (l : Stacks Int) : Stacks Int :=
  l.put (w.joins r.nItemCode) r.nItemCode (rounded r.nQuantity)

/-- A reward has a template and, on the stack that it joins, room. -/
def Fits (w : World) (r : Reward) (l : Stacks Int) : Prop :=
  0 ≤ rounded r.nQuantity ∧ (w.itemBase r.nItemCode).isSome ∧
    (w.joins r.nItemCode = true → ∀ st, l.first r.nItemCode = some st → IsInt64 (st.2 + rounded r.nQuantity))

/-- So does every reward when its turn comes. -/
def HasRoom (w : World) : List Reward → Stacks Int → Prop
  | [], _ => True
  | r :: rs, l => Fits w r l ∧ HasRoom w rs (rewarded w r l)

/-- The units of a code that the rewards are in the template. -/
def owed (code : Int) (rs : List Reward) : Int := (rs.map fun r => if r.nItemCode = code then r.nQuantity else 0).sum

/-- The units that are given for them. -/
def paid (code : Int) (rs : List Reward) : Int :=
  (rs.map fun r => if r.nItemCode = code then rounded r.nQuantity else 0).sum

/-- The rewards one after the other. -/
def giveRewards (s : Adventurer) (rs : List Reward) : Option Adventurer := rs.foldlM (fun s r => s.giveReward r 1) s

/-- What quests pay in items. -/
def Payment (r : Reward) : Prop := r.nItemCode ≠ 0 ∧ IsInt32 r.nQuantity

/-- Items have come or gone, and the quest log has heard of it. -/
structure Went (s s' : Adventurer) : Prop where
  later : Later s.world s'.world
  same : SameTasks { s with world := s'.world } s'

theorem Went.refl (s : Adventurer) : Went s s := ⟨.refl _, .refl s⟩

theorem Went.me (h : Went s s') : s'.me = s.me := (congrArg Adventurer.me h.same.eq).trans rfl

theorem Went.trans (h : Went s s₁) (h' : Went s₁ s') : Went s s' := by
  refine ⟨h.later.trans h'.later, ?_, h'.same.task.trans h.same.task⟩
  rw [h'.same.eq, h.same.eq]

theorem Ok.withWorld {w : World} (hok : Ok s) (hg : GoodsOk w) (hl : Later s.world w) : Ok { s with world := w } :=
  ⟨hg, (congrFun hl.playerPool s.me).trans hok.online, hok.keys, hok.active, hok.resource⟩

theorem hasRoom_congr {w w' : World} (hbase : w'.itemBase = w.itemBase) (l : Stacks Int) :
    HasRoom w' rs l ↔ HasRoom w rs l := by
  have hjoins : w'.joins = w.joins := by
    funext code
    unfold joins
    rw [hbase]
  induction rs generalizing l with
  | nil => exact Iff.rfl
  | cons r rs ih =>
    unfold HasRoom Fits rewarded
    rw [hjoins, hbase]
    exact and_congr_right fun _ => ih _

theorem giveReward_eq (hp : Payment r) (s : Adventurer) : s.giveReward r 1 =
    (toUInt (rounded r.nQuantity)).bind fun count =>
      (s.world.rewardItem s.me r.nItemCode (if r.nLevel < 1 then 1 else r.nLevel) count).bind fun a =>
        match a.1 with
        | some ni => { s with world := a.2 }.update (.itemCount (a.2.items ni).inst.Code (a.2.items ni).inst.nCount)
        | none => some { s with world := a.2 } := by
  unfold giveReward
  rewrite [if_pos hp.1, scaled_one]
  rfl

/-- What is heard of an item that has been pushed. -/
theorem giveReward_cases (hok : Ok s) (hp : Payment r) {a : Option ItemPtr × World}
    (hrun : s.world.rewardItem s.me r.nItemCode (if r.nLevel < 1 then 1 else r.nLevel) (rounded r.nQuantity) = some a)
    (hpos : 0 ≤ rounded r.nQuantity) : ∃ s', s.giveReward r 1 = some s' ∧ Ok s' ∧ Went s s' ∧
      s'.world.piles (bag s.me) = rewarded s.world r (s.world.piles (bag s.me)) := by
  obtain ⟨o, w⟩ := a
  obtain ⟨hgoods, hlater, ⟨ni, rfl, hcode⟩, hpiles⟩ :=
    rewardItem_spec hok.goods hok.online hp.1 (isInt64_rounded hp.2) hrun
  have hnew := hok.withWorld hgoods hlater
  obtain ⟨s', hs', hsame⟩ := update_sameTasks (e := .itemCount (w.items ni).inst.Code (w.items ni).inst.nCount)
    hnew.keys fun code count he => by
      obtain ⟨rfl, -⟩ := QuestEvent.itemCount.inj he
      exact hcode.trans_ne hp.1
  have hworld : s'.world = w := (congrArg Adventurer.world hsame.eq).trans rfl
  refine ⟨s', ?_, hnew.sameTasks hsame, ⟨hworld ▸ hlater, ?_⟩, ?_⟩
  · rw [giveReward_eq hp, toUInt, if_pos hpos, Option.bind_some, hrun, Option.bind_some]
    exact hs'
  · rw [hworld]
    exact hsame
  · rw [hworld]
    exact hpiles

/-- One reward. -/
theorem giveReward_spec (hok : Ok s) (hp : Payment r) (hrun : s.giveReward r 1 = some s') :
    Ok s' ∧ Went s s' ∧ s'.world.piles (bag s.me) = rewarded s.world r (s.world.piles (bag s.me)) := by
  have h := hrun
  rw [giveReward_eq hp] at h
  obtain ⟨count, hcount, h⟩ := Option.bind_eq_some_iff.mp h
  unfold toUInt at hcount
  split_ifs at hcount with hpos
  obtain rfl := Option.some.inj hcount
  obtain ⟨a, ha, -⟩ := Option.bind_eq_some_iff.mp h
  obtain ⟨s₁, hs₁, hrest⟩ := giveReward_cases hok hp ha hpos
  obtain rfl := Option.some.inj (hs₁.symm.trans hrun)
  exact hrest

theorem giveReward_isSome_iff (hok : Ok s) (hp : Payment r) :
    (s.giveReward r 1).isSome ↔ Fits s.world r (s.world.piles (bag s.me)) := by
  have hitem := @rewardItem_isSome_iff s.world s.me r.nItemCode (rounded r.nQuantity)
    (if r.nLevel < 1 then 1 else r.nLevel) hok.goods hok.online hp.1 (isInt64_rounded hp.2)
  unfold Fits
  rw [← hitem]
  constructor
  · intro hsome
    rw [giveReward_eq hp, toUInt] at hsome
    by_cases hpos : 0 ≤ rounded r.nQuantity
    · rw [if_pos hpos, Option.bind_some] at hsome
      exact ⟨hpos, Option.isSome_of_isSome_bind hsome⟩
    · rw [if_neg hpos] at hsome
      cases hsome
  · rintro ⟨hpos, hsome⟩
    obtain ⟨a, ha⟩ := Option.isSome_iff_exists.mp hsome
    obtain ⟨s', hs', -⟩ := giveReward_cases hok hp ha hpos
    rw [hs']
    rfl

theorem paid_cons (code : Int) (r : Reward) (rs : List Reward) :
    paid code (r :: rs) = (if r.nItemCode = code then rounded r.nQuantity else 0) + paid code rs := by
  unfold paid
  rw [List.map_cons, List.sum_cons]

/-- **All rewards.** -/
theorem giveRewards_spec (hok : Ok s) (hp : ∀ r ∈ rs, Payment r) (hrun : s.giveRewards rs = some s') :
    Ok s' ∧ Went s s' ∧ ∀ code, (s'.world.piles (bag s.me)).units code =
      (s.world.piles (bag s.me)).units code + paid code rs := by
  induction rs generalizing s with
  | nil =>
    obtain rfl := Option.some.inj hrun
    exact ⟨hok, .refl s, fun code => (add_zero _).symm⟩
  | cons r rs ih =>
    unfold giveRewards at hrun
    rw [List.foldlM_cons] at hrun
    obtain ⟨s₁, hs₁, hrest⟩ := Option.bind_eq_some_iff.mp hrun
    obtain ⟨hok₁, hwent₁, hpiles⟩ := giveReward_spec hok (hp r List.mem_cons_self) hs₁
    obtain ⟨hok', hwent', hunits⟩ := ih hok₁ (fun a ha => hp a (List.mem_cons_of_mem r ha)) hrest
    refine ⟨hok', hwent₁.trans hwent', fun code => ?_⟩
    rw [hwent₁.me] at hunits
    rw [hunits, hpiles, rewarded, Stacks.units_put, paid_cons]
    omega

theorem giveRewards_isSome_iff (hok : Ok s) (hp : ∀ r ∈ rs, Payment r) :
    (s.giveRewards rs).isSome ↔ HasRoom s.world rs (s.world.piles (bag s.me)) := by
  induction rs generalizing s with
  | nil => exact iff_of_true rfl trivial
  | cons r rs ih =>
    have hhead := hp r List.mem_cons_self
    have htail : ∀ a ∈ rs, Payment a := fun a ha => hp a (List.mem_cons_of_mem r ha)
    unfold giveRewards HasRoom
    rw [List.foldlM_cons, ← giveReward_isSome_iff hok hhead]
    cases hs₁ : s.giveReward r 1 with
    | none => exact iff_of_false Bool.false_ne_true fun h => Bool.false_ne_true h.1
    | some s₁ =>
      obtain ⟨hok₁, hwent, hpiles⟩ := giveReward_spec hok hhead hs₁
      have hrest := ih hok₁ htail
      rw [hasRoom_congr hwent.later.itemBase, hwent.me, hpiles] at hrest
      exact hrest.trans (and_iff_right rfl).symm

/-- The rewards of a quest: the fixed one and the one that is chosen. -/
def rewards (q : ActiveQuest) (nRewardID : Int) : List Reward :=
  (q.m_QuestBase.DefaultReward :: (optionalReward q nRewardID).toList).filter fun r => r.nItemCode ≠ 0

theorem payment_rewards {q : ActiveQuest} {nRewardID : Int} (hq : q.m_QuestBase.Legal) :
    ∀ r ∈ rewards q nRewardID, Payment r := by
  intro r hr
  obtain ⟨hmem, hcode⟩ := List.mem_filter.mp hr
  refine ⟨of_decide_eq_true hcode, ?_⟩
  rcases List.mem_cons.mp hmem with rfl | hopt
  · exact hq.default
  · unfold optionalReward at hopt
    split_ifs at hopt
    · obtain rfl := List.mem_singleton.mp hopt
      exact hq.optional _
    · cases hopt

theorem foldlM_giveReward (rs : List Reward) (s : Adventurer) :
    rs.foldlM (fun s r => s.giveReward r 1) s = s.giveRewards (rs.filter fun r => r.nItemCode ≠ 0) := by
  induction rs generalizing s with
  | nil => rfl
  | cons r rs ih =>
    rw [List.foldlM_cons]
    by_cases hcode : r.nItemCode ≠ 0
    · rw [List.filter_cons_of_pos (by simpa using hcode)]
      unfold giveRewards
      rw [List.foldlM_cons]
      refine congrArg _ (funext fun s => ?_)
      exact ih s
    · rw [List.filter_cons_of_neg (by simpa using hcode), giveReward, if_neg hcode]
      exact ih s

/-- The two places of the source that give rewards. -/
theorem giveReward_bind_optional (q : ActiveQuest) (nRewardID : Int) (s : Adventurer) :
    ((s.giveReward q.m_QuestBase.DefaultReward 1).bind fun s => s.giveOptionalReward q nRewardID 1) =
      s.giveRewards (rewards q nRewardID) := by
  unfold rewards
  rw [← foldlM_giveReward, List.foldlM_cons]
  refine congrArg _ (funext fun s => ?_)
  unfold giveOptionalReward
  cases optionalReward q nRewardID with
  | none => rfl
  | some r =>
    rw [Option.toList_some, List.foldlM_cons]
    exact (Option.bind_fun_some _).symm

end Adventurer

end RZEmulator.Chihiro
