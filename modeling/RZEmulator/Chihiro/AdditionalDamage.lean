import Mathlib.Algebra.Order.Archimedean.Basic
import RZEmulator.Chihiro.DropGroup

/-!
# Additional damage

`Unit::ProcessAdditionalDamage`, and the four functions that deal a hit with it: two for the hands, which have a loop over the
additional damages of their own before it, and two for skills. The main damage and what `DealDamage` returns for each additional
damage are given, and so are the random draws. `hitRight_iff` says for which lists and draws the damages are dealt and summed up as
they are to be.
-/

namespace RZEmulator.Chihiro

open DropTables

def TYPE_COUNT : Int := 7

structure AdditionalDamageInfo where
  ratio : Int
  require_type : Int
  type : Int
  nDamage : Int
  fDamage : ℚ

structure DamageInfo where
  nDamage : Int
  bMiss : Bool
  bPerfectBlock : Bool
  elemental_damage : Int → Int

/-- An additional damage that has been dealt: the place of its entry in the list, and the damage that was asked for and that was
dealt. -/
structure DealtDamage where
  place : Nat
  entry : AdditionalDamageInfo
  asked : Int
  dealt : Int

/-- A hit under way: `draw` is the number of the next random draw. -/
structure HitState where
  info : DamageInfo
  log : List DealtDamage
  draw : Nat

namespace HitState

variable (draws : Nat → Int) (victim : Nat → Int → Int → Int)

/-- The damage of an entry for the damage `nDamage`. -/
def askedFor (entry : AdditionalDamageInfo) (nDamage : Int) : Int :=
  if entry.nDamage ≠ 0 then entry.nDamage else truncated (entry.fDamage * nDamage)

/-- `DealDamage` for an entry; `victim` answers its calls, which are numbered. -/
def deal (s : HitState) (place : Nat) (entry : AdditionalDamageInfo) : DealtDamage :=
  ⟨place, entry, askedFor entry s.info.nDamage, victim s.log.length (askedFor entry s.info.nDamage) entry.type⟩

/-- `elemental_damage[type] += damage`, in 16 bits. -/
def addElemental (info : DamageInfo) (type damage : Int) : DamageInfo :=
  { info with elemental_damage := fun i => if i = type then (info.elemental_damage i + damage) % 2 ^ 16 else info.elemental_damage i }

def inRange (type : Int) : Bool := decide (0 ≤ type) && decide (type < TYPE_COUNT)

/-- The loop of `DealPhysicalNormalDamage` and `DealPhysicalNormalLeftHandDamage`; a type outside the array has no result. -/
def normalLoop : List AdditionalDamageInfo → Nat → HitState → Option HitState
  | [], _, s => some s
  | it :: list, place, s =>
    if draws s.draw < it.ratio then
      if inRange it.type = true then
        let x := s.deal victim place it
        let info := addElemental s.info it.type x.dealt
        normalLoop list (place + 1) ⟨{ info with nDamage := info.nDamage + x.dealt }, s.log ++ [x], s.draw + 1⟩
      else none
    else normalLoop list (place + 1) { s with draw := s.draw + 1 }

/-- The loop of `ProcessAdditionalDamage`, which adds the raw damage `nDamage` of the hit. -/
def additionalLoop (nDamage : ℚ) (elemental_type : Int) : List AdditionalDamageInfo → Nat → HitState → HitState
  | [], _, s => s
  | additional :: list, place, s =>
    if additional.require_type = 99 ∨ additional.require_type = elemental_type then
      if draws s.draw < additional.ratio then
        let x := s.deal victim place additional
        let info := if inRange additional.type = true then addElemental s.info additional.type x.dealt else s.info
        additionalLoop nDamage elemental_type list (place + 1)
          ⟨{ info with nDamage := truncated (info.nDamage + nDamage) }, s.log ++ [x], s.draw + 1⟩
      else additionalLoop nDamage elemental_type list (place + 1) { s with draw := s.draw + 1 }
    else additionalLoop nDamage elemental_type list (place + 1) s

def missed (info : DamageInfo) : Bool := info.bMiss || info.bPerfectBlock

/-- `Unit::ProcessAdditionalDamage`. -/
def processAdditionalDamage (nDamage : ℚ) (elemental_type : Int) (list : List AdditionalDamageInfo) (s : HitState) : HitState :=
  if missed s.info then s else s.additionalLoop draws victim nDamage elemental_type list 0

/-- The hit when the main damage has been dealt. -/
def start (main : DamageInfo) : HitState := ⟨{ main with elemental_damage := fun _ => 0 }, [], 0⟩

/-- `DealPhysicalNormalDamage` and `DealPhysicalNormalLeftHandDamage`, with the list of the hand. -/
def dealPhysicalNormalDamage (nDamage : ℚ) (elemental_type : Int) (list : List AdditionalDamageInfo) (main : DamageInfo) :
    Option HitState :=
  (if missed main then some (start main) else normalLoop draws victim list 0 (start main)).map
    (processAdditionalDamage draws victim nDamage elemental_type list)

/-- `DealPhysicalSkillDamage` and `DealMagicalSkillDamage`. -/
def dealSkillDamage (nDamage : ℚ) (elemental_type : Int) (list : List AdditionalDamageInfo) (main : DamageInfo) : Option HitState :=
  some ((start main).processAdditionalDamage draws victim nDamage elemental_type list)

/-! ## What is claimed -/

def sumOf (log : List DealtDamage) : Int := (log.map DealtDamage.dealt).sum

def sumOfType (type : Int) (log : List DealtDamage) : Int := sumOf (log.filter fun x => x.entry.type = type)

/-- The result `s` of a hit with the main damage `main`. -/
structure DealtRight (main : DamageInfo) (s : HitState) : Prop where
  once : (s.log.map DealtDamage.place).Nodup
  total : s.info.nDamage = main.nDamage + sumOf s.log
  elemental : ∀ type, inRange type = true → 0 ≤ sumOfType type s.log → sumOfType type s.log < 2 ^ 16 →
    s.info.elemental_damage type = sumOfType type s.log
  asked : ∀ x ∈ s.log, x.asked = askedFor x.entry main.nDamage
  missed : missed main = true → s.log = []

/-- The hit stays in the array, and its result is right. -/
def HitRight (main : DamageInfo) (hit : Option HitState) : Prop := ∃ s, hit = some s ∧ DealtRight main s

/-! ## The condition -/

/-- The entries that fire in the loop of the hands. -/
def normalFires (draws : Nat → Int) : Nat → List AdditionalDamageInfo → List AdditionalDamageInfo
  | _, [] => []
  | k, it :: list => if draws k < it.ratio then it :: normalFires draws (k + 1) list else normalFires draws (k + 1) list

/-- The entries that fire in `ProcessAdditionalDamage`. -/
def additionalFires (draws : Nat → Int) (elemental_type : Int) : Nat → List AdditionalDamageInfo → List AdditionalDamageInfo
  | _, [] => []
  | k, it :: list =>
    if it.require_type = 99 ∨ it.require_type = elemental_type then
      if draws k < it.ratio then it :: additionalFires draws elemental_type (k + 1) list
      else additionalFires draws elemental_type (k + 1) list
    else additionalFires draws elemental_type k list

/-- The damage of the entry does not depend on the main damage. -/
def Fixed (entry : AdditionalDamageInfo) : Prop := entry.nDamage ≠ 0 ∨ entry.fDamage = 0

/-- Nothing fires in `ProcessAdditionalDamage`; in the other loop, types in the range only, and after the first entry that fires no
proportional one. -/
structure NormalCareful (draws : Nat → Int) (elemental_type : Int) (list : List AdditionalDamageInfo) : Prop where
  none : additionalFires draws elemental_type list.length list = []
  types : ∀ it ∈ normalFires draws 0 list, inRange it.type = true
  fixed : ∀ it ∈ (normalFires draws 0 list).tail, Fixed it

/-! ## What has been dealt -/

@[simp]
theorem sumOf_nil : sumOf [] = 0 := rfl

@[simp]
theorem sumOf_append (log rest : List DealtDamage) : sumOf (log ++ rest) = sumOf log + sumOf rest := by
  simp only [sumOf, List.map_append, List.sum_append]

@[simp]
theorem sumOf_singleton (x : DealtDamage) : sumOf [x] = x.dealt := by
  simp only [sumOf, List.map_cons, List.map_nil, List.sum_cons, List.sum_nil, add_zero]

theorem sumOfType_append (type : Int) (log : List DealtDamage) (x : DealtDamage) :
    sumOfType type (log ++ [x]) = sumOfType type log + if x.entry.type = type then x.dealt else 0 := by
  unfold sumOfType
  rw [List.filter_append, sumOf_append]
  by_cases hx : x.entry.type = type
  · rw [if_pos hx, List.filter_cons_of_pos (by simpa using hx), List.filter_nil, sumOf_singleton]
  · rw [if_neg hx, List.filter_cons_of_neg (by simpa using hx), List.filter_nil, sumOf_nil]

/-- Each call has been answered by `victim`. -/
inductive Answered (victim : Nat → Int → Int → Int) : List DealtDamage → Prop
  | nil : Answered victim []
  | snoc {log : List DealtDamage} {x : DealtDamage} :
      Answered victim log → x.dealt = victim log.length x.asked x.entry.type → Answered victim (log ++ [x])

/-- The calls of the loop of the hands: the places go up, and an entry reads the main damage with what has been dealt before. -/
inductive Traced (victim : Nat → Int → Int → Int) (nDamage : Int) : List DealtDamage → Prop
  | nil : Traced victim nDamage []
  | snoc {log : List DealtDamage} {x : DealtDamage} :
      Traced victim nDamage log → (∀ y ∈ log, y.place < x.place) → x.asked = askedFor x.entry (nDamage + sumOf log) →
      x.dealt = victim log.length x.asked x.entry.type → Traced victim nDamage (log ++ [x])

variable {draws : Nat → Int} {victim : Nat → Int → Int → Int}

theorem Traced.answered {n : Int} {log : List DealtDamage} (h : Traced victim n log) : Answered victim log := by
  induction h with
  | nil => exact Answered.nil
  | snoc _ _ _ hdealt ih => exact Answered.snoc ih hdealt

theorem Traced.once {n : Int} {log : List DealtDamage} (h : Traced victim n log) : (log.map DealtDamage.place).Nodup := by
  induction h with
  | nil => exact List.nodup_nil
  | @snoc log x _ hplace _ _ ih =>
    rw [List.map_append, List.nodup_append]
    refine ⟨ih, by simp, ?_⟩
    intro a ha b hb
    obtain ⟨y, hy, rfl⟩ := List.mem_map.mp ha
    obtain rfl : b = x.place := by simpa using hb
    have := hplace y hy
    omega

/-- An entry that depends on the main damage reads it when it is the first one. -/
theorem Traced.asked {n : Int} {log : List DealtDamage} (h : Traced victim n log)
    (hfixed : ∀ it ∈ (log.map DealtDamage.entry).tail, Fixed it) : ∀ x ∈ log, x.asked = askedFor x.entry n := by
  induction h with
  | nil =>
    intro x hx
    exact absurd hx List.not_mem_nil
  | @snoc log x _ _ hasked _ ih =>
    by_cases hlog : log = []
    · subst hlog
      intro y hy
      obtain rfl : y = x := by simpa using hy
      rw [hasked, sumOf_nil, add_zero]
    · have hmap : log.map DealtDamage.entry ≠ [] := by simpa using hlog
      rw [List.map_append, List.tail_append_of_ne_nil hmap] at hfixed
      intro y hy
      rcases List.mem_append.mp hy with hy | hy
      · exact ih (fun it hit => hfixed it (List.mem_append_left _ hit)) y hy
      · obtain rfl : y = x := by simpa using hy
        rw [hasked]
        rcases hfixed y.entry (by simp) with hn | hf
        · simp only [askedFor, if_pos hn]
        · simp only [askedFor, hf, zero_mul]

/-- What is dealt by a victim that answers one call with `c` and the others with 0. -/
theorem Answered.sumOf_eq {N : Nat} {c : Int} {log : List DealtDamage} (h : Answered (fun k _ _ => if k = N then c else 0) log) :
    sumOf log = if N < log.length then c else 0 := by
  induction h with
  | nil => simp
  | @snoc log x _ hdealt ih =>
    rw [sumOf_append, sumOf_singleton, ih, hdealt, List.length_append, List.length_singleton]
    split_ifs <;> omega

/-! ## The loop of the hands -/

/-- The loop is at the entry `place`. -/
structure Dealing (victim : Nat → Int → Int → Int) (nDamage : Int) (place : Nat) (s : HitState) : Prop where
  traced : Traced victim nDamage s.log
  before : ∀ x ∈ s.log, x.place < place
  total : s.info.nDamage = nDamage + sumOf s.log
  elemental : ∀ type, s.info.elemental_damage type = sumOfType type s.log % 2 ^ 16

theorem Dealing.start (main : DamageInfo) : Dealing victim main.nDamage 0 (start main) where
  traced := Traced.nil
  before _ hx := absurd hx List.not_mem_nil
  total := (add_zero _).symm
  elemental _ := rfl

theorem Dealing.skip {n : Int} {place : Nat} {s : HitState} (h : Dealing victim n place s) (draw : Nat) :
    Dealing victim n (place + 1) { s with draw := draw } where
  traced := h.traced
  before x hx := Nat.lt_succ_of_lt (h.before x hx)
  total := h.total
  elemental := h.elemental

theorem addElemental_apply (info : DamageInfo) (type damage i : Int) :
    (addElemental info type damage).elemental_damage i =
      if i = type then (info.elemental_damage i + damage) % 2 ^ 16 else info.elemental_damage i := rfl

theorem Dealing.deal {n : Int} {place : Nat} {s : HitState} (h : Dealing victim n place s) (it : AdditionalDamageInfo) (draw : Nat) :
    Dealing victim n (place + 1)
      ⟨{ addElemental s.info it.type (s.deal victim place it).dealt with
          nDamage := s.info.nDamage + (s.deal victim place it).dealt }, s.log ++ [s.deal victim place it], draw⟩ where
  traced := by
    apply Traced.snoc h.traced
    · exact h.before
    · show askedFor it s.info.nDamage = askedFor it (n + sumOf s.log)
      rw [h.total]
    · rfl
  before x hx := by
    rcases List.mem_append.mp hx with hx | hx
    · exact Nat.lt_succ_of_lt (h.before x hx)
    · obtain rfl : x = s.deal victim place it := by simpa using hx
      exact Nat.lt_succ_self place
  total := by
    show s.info.nDamage + _ = n + sumOf (s.log ++ _)
    rw [sumOf_append, sumOf_singleton, h.total]
    omega
  elemental type := by
    show (addElemental s.info it.type (s.deal victim place it).dealt).elemental_damage type = _
    rw [addElemental_apply, sumOfType_append]
    show _ = (sumOfType type s.log + if it.type = type then (s.deal victim place it).dealt else 0) % 2 ^ 16
    by_cases ht : type = it.type
    · rw [if_pos ht, if_pos ht.symm, h.elemental type]
      omega
    · rw [if_neg ht, if_neg (Ne.symm ht), h.elemental type]
      omega

/-- The loop with types in the range. -/
theorem normalLoop_dealing {n : Int} (list : List AdditionalDamageInfo) : ∀ (place : Nat) (s : HitState),
    (∀ it ∈ normalFires draws s.draw list, inRange it.type = true) → Dealing victim n place s →
    ∃ s', normalLoop draws victim list place s = some s' ∧ Dealing victim n (place + list.length) s' ∧
      s'.draw = s.draw + list.length ∧ s'.log.map DealtDamage.entry = s.log.map DealtDamage.entry ++ normalFires draws s.draw list ∧
      missed s'.info = missed s.info := by
  induction list with
  | nil =>
    intro place s _ h
    exact ⟨s, rfl, h, rfl, (List.append_nil _).symm, rfl⟩
  | cons it list ih =>
    intro place s htypes h
    by_cases hfire : draws s.draw < it.ratio
    · rw [normalFires, if_pos hfire] at htypes ⊢
      have hit : inRange it.type = true := htypes it List.mem_cons_self
      obtain ⟨s', hs', hdealing, hdraw, hlog, hmissed⟩ :=
        ih (place + 1) _ (fun x hx => htypes x (List.mem_cons_of_mem _ hx)) (h.deal it (s.draw + 1))
      refine ⟨s', ?_, ?_, ?_, ?_, hmissed⟩
      · rw [normalLoop, if_pos hfire, if_pos hit]
        exact hs'
      · rw [List.length_cons, show place + (list.length + 1) = place + 1 + list.length by omega]
        exact hdealing
      · rw [hdraw, List.length_cons]
        exact Nat.add_right_comm s.draw 1 list.length
      · rw [hlog, List.map_append, List.append_assoc]
        rfl
    · rw [normalFires, if_neg hfire] at htypes ⊢
      obtain ⟨s', hs', hdealing, hdraw, hlog, hmissed⟩ := ih (place + 1) _ htypes (h.skip (s.draw + 1))
      refine ⟨s', ?_, ?_, ?_, hlog, hmissed⟩
      · rw [normalLoop, if_neg hfire]
        exact hs'
      · rw [List.length_cons, show place + (list.length + 1) = place + 1 + list.length by omega]
        exact hdealing
      · rw [hdraw, List.length_cons]
        exact Nat.add_right_comm s.draw 1 list.length

/-- The loop with a type out of the range. -/
theorem normalLoop_none (list : List AdditionalDamageInfo) : ∀ (place : Nat) (s : HitState),
    (∃ it ∈ normalFires draws s.draw list, inRange it.type ≠ true) → normalLoop draws victim list place s = none := by
  induction list with
  | nil =>
    rintro place s ⟨it, hit, _⟩
    exact absurd hit List.not_mem_nil
  | cons x list ih =>
    rintro place s ⟨it, hit, htype⟩
    by_cases hfire : draws s.draw < x.ratio
    · rw [normalFires, if_pos hfire] at hit
      rw [normalLoop, if_pos hfire]
      by_cases hx : inRange x.type = true
      · rw [if_pos hx]
        rcases List.mem_cons.mp hit with rfl | hit
        · exact absurd hx htype
        · exact ih (place + 1) _ ⟨it, hit, htype⟩
      · rw [if_neg hx]
    · rw [normalFires, if_neg hfire] at hit
      rw [normalLoop, if_neg hfire]
      exact ih (place + 1) _ ⟨it, hit, htype⟩

/-! ## The loop of `ProcessAdditionalDamage` -/

theorem additionalLoop_skips {nDamage : ℚ} {elemental_type : Int} (list : List AdditionalDamageInfo) : ∀ (place : Nat) (s : HitState),
    additionalFires draws elemental_type s.draw list = [] →
    ∃ draw, additionalLoop draws victim nDamage elemental_type list place s = { s with draw := draw } := by
  induction list with
  | nil =>
    intro place s _
    exact ⟨s.draw, rfl⟩
  | cons it list ih =>
    intro place s h
    rw [additionalFires] at h
    rw [additionalLoop]
    by_cases htype : it.require_type = 99 ∨ it.require_type = elemental_type
    · rw [if_pos htype] at h ⊢
      by_cases hfire : draws s.draw < it.ratio
      · rw [if_pos hfire] at h
        exact absurd h (List.cons_ne_nil _ _)
      · rw [if_neg hfire] at h ⊢
        exact ih (place + 1) { s with draw := s.draw + 1 } h
    · rw [if_neg htype] at h ⊢
      exact ih (place + 1) s h

theorem additionalLoop_answered {nDamage : ℚ} {elemental_type : Int} (list : List AdditionalDamageInfo) :
    ∀ (place : Nat) (s : HitState), Answered victim s.log →
    let s' := additionalLoop draws victim nDamage elemental_type list place s
    let fires := (additionalFires draws elemental_type s.draw list).length
    Answered victim s'.log ∧ s'.log.length = s.log.length + fires ∧
      s'.info.nDamage = (fun n => truncated ((n : Int) + nDamage))^[fires] s.info.nDamage := by
  induction list with
  | nil =>
    intro place s h
    exact ⟨h, rfl, rfl⟩
  | cons it list ih =>
    intro place s h
    dsimp only
    rw [additionalFires, additionalLoop]
    by_cases htype : it.require_type = 99 ∨ it.require_type = elemental_type
    · rw [if_pos htype, if_pos htype]
      by_cases hfire : draws s.draw < it.ratio
      · rw [if_pos hfire, if_pos hfire]
        have hsnoc : Answered victim (s.log ++ [s.deal victim place it]) := Answered.snoc h rfl
        obtain ⟨hanswered, hlength, hn⟩ := ih (place + 1) ⟨{
          (if inRange it.type = true then addElemental s.info it.type (s.deal victim place it).dealt else s.info) with
          nDamage := truncated ((if inRange it.type = true then addElemental s.info it.type (s.deal victim place it).dealt
            else s.info).nDamage + nDamage) }, s.log ++ [s.deal victim place it], s.draw + 1⟩ hsnoc
        refine ⟨hanswered, ?_, ?_⟩
        · rw [hlength, List.length_append, List.length_singleton, List.length_cons]
          exact Nat.add_right_comm s.log.length 1 _
        · rw [hn, List.length_cons, Function.iterate_succ_apply]
          congr 2
          split <;> rfl
      · rw [if_neg hfire, if_neg hfire]
        exact ih (place + 1) { s with draw := s.draw + 1 } h
    · rw [if_neg htype, if_neg htype]
      exact ih (place + 1) s h

/-- When something fires the sum cannot be right for every victim: the raw damage is added whatever is dealt. -/
theorem additionalFires_of_total {nDamage : ℚ} {elemental_type : Int} {list : List AdditionalDamageInfo}
    {hit : (Nat → Int → Int → Int) → HitState} {N k : Nat} {main : Int}
    (hlog : ∀ c, Answered (fun k _ _ => if k = N then c else 0) (hit fun k _ _ => if k = N then c else 0).log)
    (hlength : ∀ victim, (hit victim).log.length = N) (hdraw : ∀ victim, (hit victim).draw = k)
    (hstart : ∀ c, (hit fun k _ _ => if k = N then c else 0).info.nDamage = main)
    (htotal : ∀ victim, let s := (hit victim).additionalLoop draws victim nDamage elemental_type list 0
      s.info.nDamage = main + sumOf s.log) :
    additionalFires draws elemental_type k list = [] := by
  by_contra hfires
  have hpos : 0 < (additionalFires draws elemental_type k list).length := List.length_pos_iff.mpr hfires
  have hsum : ∀ c : Int, (fun n => truncated ((n : Int) + nDamage))^[(additionalFires draws elemental_type k list).length] main =
      main + c := by
    intro c
    obtain ⟨hanswered, hlen, hn⟩ := @additionalLoop_answered draws _ nDamage elemental_type list 0 _ (hlog c)
    rw [hdraw] at hlen hn
    rw [hlength] at hlen
    have := htotal fun k _ _ => if k = N then c else 0
    dsimp only at this
    rw [hn, hanswered.sumOf_eq, hlen, if_pos (by omega), hstart c] at this
    exact this
  have h0 := hsum 0
  have h1 := hsum 1
  omega

/-! ## Proportional entries -/

theorem truncated_near (x : ℚ) : |x - truncated x| < 1 := by
  have hden : (0 : Int) < x.den := Int.natCast_pos.mpr x.den_pos
  have hdenℚ : (0 : ℚ) < x.den := by exact_mod_cast hden
  have hr : |x.num.tmod x.den| < x.den := abs_lt.mpr ⟨Int.lt_tmod_of_pos _ hden, Int.tmod_lt_of_pos _ hden⟩
  have hx : x - truncated x = (x.num.tmod x.den : Int) / (x.den : ℚ) := by
    have hnum : ((x.den : Int) * x.num.tdiv x.den + x.num.tmod x.den : Int) = x.num := Int.mul_tdiv_add_tmod _ _
    have hnumℚ : (x.den : ℚ) * (x.num.tdiv x.den : Int) + (x.num.tmod x.den : Int) = x.num := by exact_mod_cast hnum
    rw [eq_div_iff hdenℚ.ne', sub_mul, Rat.mul_den_eq_num, ← hnumℚ]
    unfold truncated
    ring
  rw [hx, abs_div, abs_of_pos hdenℚ, div_lt_one hdenℚ, ← Int.cast_abs]
  exact_mod_cast hr

/-- A proportional entry tells the main damage from some other one. -/
theorem exists_askedFor_ne {it : AdditionalDamageInfo} (h : ¬Fixed it) (n : Int) : ∃ D : Int, askedFor it (n + D) ≠ askedFor it n := by
  obtain ⟨hn, hf⟩ := not_or.mp h
  have hzero : it.nDamage = 0 := not_not.mp hn
  have hpos : 0 < |it.fDamage| := abs_pos.mpr hf
  obtain ⟨D, hD⟩ := exists_nat_ge (2 / |it.fDamage|)
  refine ⟨D, ?_⟩
  intro heq
  simp only [askedFor, hzero, ne_eq, not_true_eq_false, if_false] at heq
  have hfar : 2 ≤ |it.fDamage * ((n + D : Int) : ℚ) - it.fDamage * n| := by
    have hdiff : it.fDamage * ((n + D : Int) : ℚ) - it.fDamage * n = it.fDamage * D := by
      push_cast
      ring
    rw [hdiff, abs_mul, Nat.abs_cast]
    calc (2 : ℚ) = 2 / |it.fDamage| * |it.fDamage| := (div_mul_cancel₀ 2 hpos.ne').symm
      _ ≤ D * |it.fDamage| := mul_le_mul_of_nonneg_right hD hpos.le
      _ = |it.fDamage| * D := mul_comm _ _
  have h1 := truncated_near (it.fDamage * ((n + D : Int) : ℚ))
  have h2 := truncated_near (it.fDamage * n)
  rw [heq] at h1
  have := abs_sub_le (it.fDamage * ((n + D : Int) : ℚ)) (truncated (it.fDamage * n)) (it.fDamage * n)
  rw [abs_sub_comm] at h2
  linarith

/-- After a first call that is answered with `D`. -/
theorem Traced.asked_later {n D : Int} {log : List DealtDamage} (h : Traced (fun k _ _ => if k = 0 then D else 0) n log) :
    ∀ x ∈ log.tail, x.asked = askedFor x.entry (n + D) := by
  induction h with
  | nil =>
    intro x hx
    exact absurd hx List.not_mem_nil
  | @snoc log x htraced _ hasked _ ih =>
    by_cases hlog : log = []
    · subst hlog
      intro y hy
      exact absurd hy List.not_mem_nil
    · rw [List.tail_append_of_ne_nil hlog]
      intro y hy
      rcases List.mem_append.mp hy with hy | hy
      · exact ih y hy
      · obtain rfl : y = x := by simpa using hy
        rw [hasked, htraced.answered.sumOf_eq, if_pos (List.length_pos_iff.mpr hlog)]

/-! ## Results -/

theorem Dealing.dealtRight {main : DamageInfo} {place : Nat} {s : HitState} (h : Dealing victim main.nDamage place s)
    (hasked : ∀ x ∈ s.log, x.asked = askedFor x.entry main.nDamage) (hmissed : missed main = true → s.log = []) (draw : Nat) :
    DealtRight main { s with draw := draw } where
  once := h.traced.once
  total := h.total
  elemental type _ h0 hlt := by
    show s.info.elemental_damage type = sumOfType type s.log
    rw [h.elemental type, Int.emod_eq_of_lt h0 hlt]
  asked := hasked
  missed := hmissed

theorem dealtRight_start (main : DamageInfo) (draw : Nat) : DealtRight main { start main with draw := draw } :=
  (@Dealing.start (fun _ _ _ => 0) main).dealtRight (fun _ hx => absurd hx List.not_mem_nil) (fun _ => rfl) draw

theorem hitRight_skill_iff (draws : Nat → Int) (nDamage : ℚ) (elemental_type : Int) (list : List AdditionalDamageInfo)
    (main : DamageInfo) :
    (∀ victim, HitRight main (dealSkillDamage draws victim nDamage elemental_type list main)) ↔
      missed main = true ∨ additionalFires draws elemental_type 0 list = [] := by
  constructor
  · intro h
    by_cases hmissed : missed main = true
    · exact Or.inl hmissed
    · right
      have hstart : missed (start main).info ≠ true := hmissed
      refine @additionalFires_of_total draws nDamage elemental_type list (fun _ => start main) 0 0 main.nDamage ?_ ?_ ?_ ?_ ?_
      · exact fun _ => Answered.nil
      · exact fun _ => rfl
      · exact fun _ => rfl
      · exact fun _ => rfl
      · intro victim
        obtain ⟨s, hs, hright⟩ := h victim
        rw [dealSkillDamage, processAdditionalDamage, if_neg hstart] at hs
        cases hs
        exact hright.total
  · intro h victim
    refine ⟨_, rfl, ?_⟩
    rw [processAdditionalDamage]
    by_cases hmissed : missed (start main).info = true
    · rw [if_pos hmissed]
      exact dealtRight_start main 0
    · rw [if_neg hmissed]
      obtain ⟨draw, hdraw⟩ := @additionalLoop_skips draws victim nDamage elemental_type list 0 (start main) (h.resolve_left hmissed)
      rw [hdraw]
      exact dealtRight_start main draw

/-- With types in the range the loop of the hands leads to a state from which `ProcessAdditionalDamage` goes on. -/
theorem exists_dealing {list : List AdditionalDamageInfo} {main : DamageInfo} (hmissed : missed main ≠ true)
    (htypes : ∀ it ∈ normalFires draws 0 list, inRange it.type = true) (victim : Nat → Int → Int → Int) (nDamage : ℚ)
    (elemental_type : Int) :
    ∃ s, Dealing victim main.nDamage list.length s ∧ s.draw = list.length ∧
      s.log.map DealtDamage.entry = normalFires draws 0 list ∧
      dealPhysicalNormalDamage draws victim nDamage elemental_type list main =
        some (s.additionalLoop draws victim nDamage elemental_type list 0) := by
  obtain ⟨s, hs, hdealing, hdraw, hlog, hinfo⟩ := normalLoop_dealing list 0 (start main) htypes (Dealing.start main)
  rw [Nat.zero_add] at hdealing
  refine ⟨s, hdealing, hdraw.trans (Nat.zero_add _), hlog, ?_⟩
  have hs' : missed s.info ≠ true := by
    rw [hinfo]
    exact hmissed
  rw [dealPhysicalNormalDamage, if_neg hmissed, hs, Option.map_some, processAdditionalDamage, if_neg hs']

theorem NormalCareful.hitRight {nDamage : ℚ} {elemental_type : Int} {list : List AdditionalDamageInfo} {main : DamageInfo}
    (h : NormalCareful draws elemental_type list) (hmissed : missed main ≠ true) (victim : Nat → Int → Int → Int) :
    ∃ s, dealPhysicalNormalDamage draws victim nDamage elemental_type list main = some s ∧ DealtRight main s ∧
      ∀ type, s.info.elemental_damage type = sumOfType type s.log % 2 ^ 16 := by
  obtain ⟨s, hdealing, hdraw, hlog, hhit⟩ := exists_dealing hmissed h.types victim nDamage elemental_type
  obtain ⟨draw, hskip⟩ := @additionalLoop_skips draws victim nDamage elemental_type list 0 s (hdraw.symm ▸ h.none)
  rw [hskip] at hhit
  refine ⟨_, hhit, ?_, hdealing.elemental⟩
  apply hdealing.dealtRight
  · apply hdealing.traced.asked
    rw [hlog]
    exact h.fixed
  · exact fun hm => absurd hm hmissed

theorem NormalCareful.of_hitRight {nDamage : ℚ} {elemental_type : Int} {list : List AdditionalDamageInfo} {main : DamageInfo}
    (hmissed : missed main ≠ true)
    (h : ∀ victim, HitRight main (dealPhysicalNormalDamage draws victim nDamage elemental_type list main)) :
    NormalCareful draws elemental_type list := by
  have htypes : ∀ it ∈ normalFires draws 0 list, inRange it.type = true := by
    intro it hit
    by_contra htype
    obtain ⟨s, hs, _⟩ := h fun _ _ _ => 0
    rw [dealPhysicalNormalDamage, if_neg hmissed, normalLoop_none list 0 (start main) ⟨it, hit, htype⟩] at hs
    exact nomatch hs
  choose hit hdealing hdraw hlog hhit using fun victim => @exists_dealing draws list main hmissed htypes victim nDamage elemental_type
  have hright : ∀ victim, DealtRight main ((hit victim).additionalLoop draws victim nDamage elemental_type list 0) := by
    intro victim
    obtain ⟨s, hs, hright⟩ := h victim
    rw [hhit victim] at hs
    cases hs
    exact hright
  have hlength : ∀ victim, (hit victim).log.length = (normalFires draws 0 list).length := by
    intro victim
    rw [← hlog victim, List.length_map]
  have hnone : additionalFires draws elemental_type list.length list = [] := by
    refine @additionalFires_of_total draws nDamage elemental_type list hit (normalFires draws 0 list).length list.length
      main.nDamage ?_ ?_ ?_ ?_ ?_
    · exact fun c => (hdealing _).traced.answered
    · exact hlength
    · exact hdraw
    · intro c
      rw [(hdealing _).total, (hdealing _).traced.answered.sumOf_eq, hlength, if_neg (lt_irrefl _), add_zero]
    · exact fun victim => (hright victim).total
  refine ⟨hnone, htypes, ?_⟩
  intro it hmem
  by_contra hit'
  obtain ⟨D, hD⟩ := exists_askedFor_ne hit' main.nDamage
  have hmem' : it ∈ (hit fun k _ _ => if k = 0 then D else 0).log.tail.map DealtDamage.entry := by
    rw [List.map_tail, hlog]
    exact hmem
  obtain ⟨x, hx, rfl⟩ := List.mem_map.mp hmem'
  have hlater := (hdealing _).traced.asked_later x hx
  obtain ⟨draw, hskip⟩ := @additionalLoop_skips draws (fun k _ _ => if k = 0 then D else 0) nDamage elemental_type list 0
    (hit fun k _ _ => if k = 0 then D else 0) ((hdraw _).symm ▸ hnone)
  have hasked := (hright fun k _ _ => if k = 0 then D else 0).asked
  rw [hskip] at hasked
  exact hD (hlater.symm.trans (hasked x (List.mem_of_mem_tail hx)))

theorem hitRight_normal_iff (draws : Nat → Int) (nDamage : ℚ) (elemental_type : Int) (list : List AdditionalDamageInfo)
    (main : DamageInfo) :
    (∀ victim, HitRight main (dealPhysicalNormalDamage draws victim nDamage elemental_type list main)) ↔
      missed main = true ∨ NormalCareful draws elemental_type list := by
  by_cases hmissed : missed main = true
  · refine ⟨fun _ => Or.inl hmissed, fun _ victim => ⟨start main, ?_, dealtRight_start main 0⟩⟩
    have hstart : missed (start main).info = true := hmissed
    rw [dealPhysicalNormalDamage, if_pos hmissed, Option.map_some, processAdditionalDamage, if_pos hstart]
  · refine ⟨fun h => Or.inr (NormalCareful.of_hitRight hmissed h), fun h victim => ?_⟩
    obtain ⟨s, hs, hright, _⟩ := (h.resolve_left hmissed).hitRight hmissed victim
    exact ⟨s, hs, hright⟩

end HitState

end RZEmulator.Chihiro
