import Mathlib.Data.List.TakeWhile
import RZEmulator.Chihiro.MixManager

/-!
# Which recipe is found

The inner loop of `GetProperMixInfo` checks the sub item of an index against the material of the same index, so a recipe is
found when the sub items stand in the order of its slots. `properMix_iff` says when that makes no difference.
-/

namespace RZEmulator.Chihiro

open MixBase

namespace MixManager

variable {r : MixBase} {main : Option MixItem} {items : List MixItem} {c c' : Nat → Nat} {n s : Nat}

/-! ## One recipe -/

/-- The indices whose sub item passes the check. -/
def passing (r : MixBase) (items : List MixItem) (c : Nat → Nat) : List Nat :=
  (List.range items.length).filter (fitsAt r items c)

/-- What the loops have done when they have put `k` sub items. -/
def arranged (r : MixBase) (items : List MixItem) (c : Nat → Nat) (k : Nat) : Arrangement where
  bSubMaterialChecked := fun i => decide (i ∈ (passing r items c).take k)
  pCountList := fun i => if i ∈ (passing r items c).take k then 1 else c i
  pSubMaterialArrangeBuffer := (passing r items c).take k

theorem passing_nodup : (passing r items c).Nodup := List.nodup_range.filter _

/-- Without repetition, the first element that is not among the first `k` is the one at the index `k`. -/
theorem find?_notMem_take {l : List Nat} (hl : l.Nodup) (k : Nat) : l.find? (fun i => !decide (i ∈ l.take k)) = l[k]? := by
  have hsplit : l.find? (fun i => !decide (i ∈ l.take k)) =
      (l.take k ++ l.drop k).find? (fun i => !decide (i ∈ l.take k)) := by rw [List.take_append_drop]
  have hfirst : (l.take k).find? (fun i => !decide (i ∈ l.take k)) = none := by
    rw [List.find?_eq_none]
    intro i hi
    simp [hi]
  have hnodup : (l.take k ++ l.drop k).Nodup := by
    rw [List.take_append_drop]
    exact hl
  rw [hsplit, List.find?_append, hfirst, Option.none_or, ← List.head?_drop]
  cases hdrop : l.drop k with
  | nil => rfl
  | cons i is =>
    have hmem : i ∉ l.take k := by
      intro hi
      rw [hdrop] at hnodup
      exact (List.nodup_append.mp hnodup).2.2 i hi i List.mem_cons_self rfl
    rw [List.find?_cons_of_pos (by simp [hmem])]
    rfl

theorem fitsAt_congr (hs : c s = c' s) : fitsAt r items c s = fitsAt r items c' s := by
  unfold fitsAt
  rw [hs]

theorem findSub_arranged (k : Nat) : findSub r items (arranged r items c k) = (passing r items c)[k]? := by
  have hfilter : (passing r items c).find? (fun i => !decide (i ∈ (passing r items c).take k)) =
      (List.range items.length).find? fun i => fitsAt r items c i && !decide (i ∈ (passing r items c).take k) := by
    refine (@List.find?_filter _ _ (fitsAt r items c) _).trans ?_
    congr 1
    funext i
    simp
  rw [← find?_notMem_take passing_nodup k, hfilter]
  unfold findSub
  congr 1
  funext i
  by_cases hi : i ∈ (passing r items c).take k
  · simp [arranged, hi]
  · have hfits : fitsAt r items (arranged r items c k).pCountList i = fitsAt r items c i := fitsAt_congr (if_neg hi)
    rw [hfits]
    simp [arranged, hi]

theorem arranged_put (hs : (passing r items c)[n]? = some s) :
    (arranged r items c n).put s = arranged r items c (n + 1) := by
  have htake : (passing r items c).take (n + 1) = (passing r items c).take n ++ [s] := by
    rw [List.take_add_one, hs]
    rfl
  unfold arranged Arrangement.put
  rw [htake]
  congr 1
  · funext i
    by_cases hi : i = s <;> simp [hi]
  · funext i
    by_cases hi : i = s <;> simp [hi]

theorem arrangeLoop_arranged (m : Nat) (hn : n ≤ (passing r items c).length) :
    arrangeLoop r items m (arranged r items c n) =
      (decide (n + m ≤ (passing r items c).length), arranged r items c (min (n + m) (passing r items c).length)) := by
  induction m generalizing n with
  | zero =>
    rw [Nat.add_zero, Nat.min_eq_left hn, decide_eq_true hn]
    rfl
  | succ m ih =>
    unfold arrangeLoop
    rw [findSub_arranged]
    cases hs : (passing r items c)[n]? with
    | none =>
      have hlen := List.getElem?_eq_none_iff.mp hs
      have heq : n = (passing r items c).length := by omega
      rw [Nat.min_eq_right (by omega), decide_eq_false (by omega), heq]
    | some s =>
      have hlt := (List.getElem?_eq_some_iff.mp hs).1
      dsimp only
      rw [arranged_put hs, ih (by omega), show n + 1 + m = n + (m + 1) by omega]

/-- Every sub item passes the check of its own index. -/
def Fits (r : MixBase) (items : List MixItem) (c : Nat → Nat) : Prop := ∀ s < items.length, fitsAt r items c s = true

theorem passing_length_le : (passing r items c).length ≤ items.length := by
  have h := List.length_filter_le (fitsAt r items c) (List.range items.length)
  rw [List.length_range] at h
  exact h

theorem fits_iff_length : Fits r items c ↔ items.length ≤ (passing r items c).length := by
  constructor
  · intro h
    have heq : passing r items c = List.range items.length :=
      List.filter_eq_self.mpr fun s hs => h s (List.mem_range.mp hs)
    rw [heq, List.length_range]
  · intro h s hs
    have hlen : (passing r items c).length = (List.range items.length).length := by
      rw [List.length_range]
      exact le_antisymm passing_length_le h
    have heq := List.filter_sublist.eq_of_length hlen
    have hmem : s ∈ (List.range items.length).filter (fitsAt r items c) := by
      rw [heq]
      exact List.mem_range.mpr hs
    exact (List.mem_filter.mp hmem).2

/-- **The loops over slots and sub items** find all where every sub item passes the check of its own index; they leave the
order as it is, and the count 1 of every sub item that passes. -/
theorem arrange_spec (r : MixBase) (items : List MixItem) (c : Nat → Nat) :
    ((arrange r items c).1 = true ↔ Fits r items c) ∧
      (Fits r items c → (arrange r items c).2.pSubMaterialArrangeBuffer = List.range items.length) ∧
      ∀ s < items.length, (arrange r items c).2.pCountList s = if fitsAt r items c s then 1 else c s := by
  have hstart : (⟨fun _ => false, c, []⟩ : Arrangement) = arranged r items c 0 := by
    unfold arranged
    simp
  have hrun : arrange r items c = (decide (items.length ≤ (passing r items c).length),
      arranged r items c (passing r items c).length) := by
    unfold arrange
    rw [hstart, arrangeLoop_arranged _ (Nat.zero_le _), Nat.zero_add, Nat.min_eq_right passing_length_le]
  rw [hrun]
  refine ⟨?_, fun h => ?_, fun s hs => ?_⟩
  · rw [decide_eq_true_iff, fits_iff_length]
  · unfold arranged
    dsimp only
    rw [List.take_length]
    exact List.filter_eq_self.mpr fun s hs => h s (List.mem_range.mp hs)
  · unfold arranged
    dsimp only
    rw [List.take_length]
    unfold passing
    simp [List.mem_filter, hs]

/-! ## The conditions after the arrangement -/

/-- A `CHECK_SAME_ITEM_ID` of the material names the main material, if there is one, or one of `n` slots. -/
def NamesSlots (info : MaterialInfo) (main : Option MixItem) (n : Nat) : Prop :=
  ∀ i < MATERIAL_INFO_COUNT, info.type i = CHECK_SAME_ITEM_ID →
    (info.value i = 0 ∧ main.isSome) ∨ (0 < info.value i ∧ info.value i ≤ n)

/-- The comparisons of the recipe are all with items that are there. -/
structure WellFormed (r : MixBase) (main : Option MixItem) (n : Nat) : Prop where
  main_material : NamesSlots r.main_material main n
  absent : main = none → ∀ i < MATERIAL_INFO_COUNT, r.main_material.type i ≠ CHECK_SAME_ITEM_ID
  sub_material : ∀ s < n, NamesSlots (r.sub_material s) main n

theorem codeAt_isSome {slot : Int} (h : (slot = 0 ∧ main.isSome) ∨ (0 < slot ∧ slot ≤ items.length)) :
    (codeAt main items slot).isSome := by
  unfold codeAt
  rcases h with ⟨rfl, hmain⟩ | ⟨hpos, hle⟩
  · rw [if_pos rfl, Option.isSome_map]
    exact hmain
  · rw [if_neg (by omega), if_neg (by omega), Option.isSome_map, List.getElem?_eq_getElem (show (slot - 1).toNat < items.length by omega)]
    rfl

theorem postChecks_isSome {info : MaterialInfo} {x : Option MixItem} {l : List Nat}
    (hinfo : ∀ i ∈ l, info.type i = CHECK_SAME_ITEM_ID → x.isSome ∧ (codeAt main items (info.value i)).isSome) :
    (postChecks info main items x l).isSome := by
  induction l with
  | nil => rfl
  | cons i is ih =>
    have ih := ih fun j hj => hinfo j (List.mem_cons_of_mem _ hj)
    unfold postChecks
    by_cases htype : info.type i = CHECK_SAME_ITEM_ID
    · rw [if_pos htype]
      obtain ⟨hx, hcode⟩ := hinfo i List.mem_cons_self htype
      obtain ⟨x, rfl⟩ := Option.isSome_iff_exists.mp hx
      obtain ⟨b, hb⟩ := Option.isSome_iff_exists.mp hcode
      rw [hb]
      dsimp only [Option.map_some]
      split_ifs
      · exact ih
      · rfl
    · rw [if_neg htype]
      split_ifs
      · rfl
      · exact ih

theorem postSlots_isSome {l : List Nat} (hr : ∀ s ∈ l, s < items.length ∧ NamesSlots (r.sub_material s) main items.length) :
    (postSlots r main items l).isSome := by
  induction l with
  | nil => rfl
  | cons s ss ih =>
    obtain ⟨hlt, hnames⟩ := hr s List.mem_cons_self
    have hpost : (post_arrange_check_material_info (r.sub_material s) main items items[s]?).isSome :=
      postChecks_isSome fun i hi htype =>
        ⟨by rw [List.getElem?_eq_getElem hlt]; rfl, codeAt_isSome (hnames i (List.mem_range.mp hi) htype)⟩
    obtain ⟨b, hb⟩ := Option.isSome_iff_exists.mp hpost
    unfold postSlots
    rw [hb]
    cases b with
    | false => rfl
    | true => exact ih fun s' hs' => hr s' (List.mem_cons_of_mem _ hs')

theorem WellFormed.postArrange_isSome (hr : WellFormed r main items.length) : (postArrange r main items).isSome := by
  have hpost : (post_arrange_check_material_info r.main_material main items main).isSome := by
    refine postChecks_isSome fun i hi htype => ?_
    have hi := List.mem_range.mp hi
    refine ⟨?_, codeAt_isSome (hr.main_material i hi htype)⟩
    rw [Option.isSome_iff_ne_none]
    exact fun hnone => hr.absent hnone i hi htype
  obtain ⟨b, hb⟩ := Option.isSome_iff_exists.mp hpost
  unfold postArrange
  rw [hb]
  cases b with
  | false => rfl
  | true => exact postSlots_isSome fun s hs => ⟨List.mem_range.mp hs, hr.sub_material s (List.mem_range.mp hs)⟩

/-! ## The search -/

/-- The recipe is met by the sub items in the order in which they are listed. -/
def meets (r : MixBase) (main : Option MixItem) (items : List MixItem) (c : Nat → Nat) : Bool :=
  tried r main items.length && ((List.range items.length).all (fitsAt r items c) && postArrange r main items == some true)

/-- One of the slots asks for a count. -/
def AsksCount (r : MixBase) (n : Nat) : Prop :=
  ∃ s < n, ∃ i < MATERIAL_INFO_COUNT, (r.sub_material s).type i = CHECK_ITEM_COUNT

theorem checkCondition_count {type value : Int} {x : MixItem} (htype : type ≠ CHECK_ITEM_COUNT) (a b : Nat) :
    checkCondition type value x a = checkCondition type value x b := by
  unfold checkCondition
  rw [if_neg htype, if_neg htype]

theorem fitsAt_of_not_asksCount (hr : ¬AsksCount r items.length) (hs : s < items.length) (c c' : Nat → Nat) :
    fitsAt r items c s = fitsAt r items c' s := by
  unfold fitsAt
  congr 1
  funext x
  unfold check_material_info
  congr 1
  rw [Bool.eq_iff_iff, List.all_eq_true, List.all_eq_true]
  refine forall₂_congr fun i hi => ?_
  rw [checkCondition_count (fun htype => hr ⟨s, hs, i, List.mem_range.mp hi, htype⟩) (c s) (c' s)]

/-- What the recipes `rs` see of the counts is what is seen of the counts `c`. -/
def SameCounts (main : Option MixItem) (items : List MixItem) (c : Nat → Nat) (rs : List MixBase) (c' : Nat → Nat) : Prop :=
  (∀ r ∈ rs, tried r main items.length = true → ¬AsksCount r items.length) ∨
    ((∀ s < items.length, c' s = c s) ∧ ((∀ s < items.length, c s = 1) ∨
      ∀ r ∈ (rs.filter fun r => tried r main items.length).tail, ¬AsksCount r items.length))

theorem SameCounts.fitsAt {rs : List MixBase} (h : SameCounts main items c (r :: rs) c')
    (htried : tried r main items.length = true) (hs : s < items.length) :
    MixManager.fitsAt r items c' s = MixManager.fitsAt r items c s := by
  rcases h with h | h
  · exact fitsAt_of_not_asksCount (h r List.mem_cons_self htried) hs c' c
  · exact fitsAt_congr (h.1 s hs)

theorem SameCounts.skip {rs : List MixBase} (h : SameCounts main items c (r :: rs) c')
    (htried : tried r main items.length = false) : SameCounts main items c rs c' := by
  rcases h with h | ⟨heq, h⟩
  · exact .inl fun r' hr' => h r' (List.mem_cons_of_mem _ hr')
  · refine .inr ⟨heq, h.imp_right fun h => ?_⟩
    rw [List.filter_cons_of_neg (by rw [htried]; exact Bool.noConfusion)] at h
    exact h

theorem SameCounts.next {rs : List MixBase} (h : SameCounts main items c (r :: rs) c')
    (htried : tried r main items.length = true) :
    SameCounts main items c rs (arrange r items c').2.pCountList := by
  obtain ⟨-, -, hcounts⟩ := arrange_spec r items c'
  rcases h with h | ⟨heq, hone | h⟩
  · exact .inl fun r' hr' => h r' (List.mem_cons_of_mem _ hr')
  · refine .inr ⟨fun s hs => ?_, .inl hone⟩
    rw [hcounts s hs, heq s hs, hone s hs, ite_self]
  · refine .inl fun r' hr' htried' => h r' ?_
    rw [List.filter_cons_of_pos (p := fun r : MixBase => tried r main items.length) htried, List.tail_cons]
    exact List.mem_filter.mpr ⟨hr', htried'⟩

theorem filterMap_getElem?_range (items : List MixItem) :
    (List.range items.length).filterMap (fun s => items[s]?) = items := by
  have hmap : (List.range items.length).map (fun s => items[s]?) = items.map some := by
    refine List.ext_getElem (by rw [List.length_map, List.length_range, List.length_map]) fun i hi hi' => ?_
    rw [List.length_map] at hi'
    rw [List.getElem_map, List.getElem_range, List.getElem_map, List.getElem?_eq_getElem hi']
  have hid : (List.range items.length).filterMap (fun s => items[s]?) =
      ((List.range items.length).map fun s => items[s]?).filterMap id := by
    rw [List.filterMap_map]
    rfl
  rw [hid, hmap, List.filterMap_map]
  exact List.filterMap_some

/-- **The search** finds the first recipe that is met in the order of the list. -/
theorem searchMix_eq {rs : List MixBase} (h : SameCounts main items c rs c')
    (hrs : ∀ r ∈ rs, tried r main items.length = true → WellFormed r main items.length) :
    searchMix main items rs c' = some (rs.find? fun r => meets r main items c) := by
  induction rs generalizing c' with
  | nil => rfl
  | cons r rs ih =>
    have hrest : ∀ r' ∈ rs, tried r' main items.length = true → WellFormed r' main items.length :=
      fun r' hr' => hrs r' (List.mem_cons_of_mem _ hr')
    unfold searchMix
    cases htried : tried r main items.length with
    | false =>
      rw [if_pos rfl, ih (h.skip htried) hrest, List.find?_cons_of_neg]
      rw [meets, htried]
      exact Bool.noConfusion
    | true =>
      rw [if_neg Bool.noConfusion]
      obtain ⟨hok, hbuffer, -⟩ := arrange_spec r items c'
      have hfits : Fits r items c' ↔ (List.range items.length).all (MixManager.fitsAt r items c) = true := by
        rw [List.all_eq_true]
        refine forall_congr' fun s => ?_
        rw [List.mem_range]
        exact forall_congr' fun hs => by rw [h.fitsAt htried hs]
      have hnext := ih (h.next htried) hrest
      dsimp only
      by_cases hall : (List.range items.length).all (MixManager.fitsAt r items c) = true
      · have hf := hfits.mpr hall
        rw [if_neg (by rw [hok.mpr hf]; exact Bool.noConfusion), hbuffer hf, filterMap_getElem?_range]
        obtain ⟨b, hb⟩ := Option.isSome_iff_exists.mp (hrs r List.mem_cons_self htried).postArrange_isSome
        rw [hb]
        cases b with
        | false =>
          dsimp only
          rw [hnext, List.find?_cons_of_neg]
          rw [meets, hb, htried, hall]
          exact Bool.noConfusion
        | true =>
          rw [List.find?_cons_of_pos]
          rw [meets, hb, htried, hall]
          rfl
      · have hnot : (arrange r items c').1 = false := by
          rw [Bool.eq_false_iff]
          exact fun h => hall (hfits.mp (hok.mp h))
        rw [if_pos hnot, hnext, List.find?_cons_of_neg]
        rw [meets, Bool.eq_false_iff.mpr hall, Bool.false_and, Bool.and_false]
        exact Bool.noConfusion

/-! ## What should be found -/

variable {T : List MixBase} {subs l : List (MixItem × Nat)}

/-- The recipe is met by the sub items in the order of the list, with the counts that were sent. -/
def Met (r : MixBase) (main : Option MixItem) (l : List (MixItem × Nat)) : Prop :=
  meets r main (l.map Prod.fst) (countsOf l) = true

/-- The sub items can be assigned one-to-one to the slots of the recipe. -/
def Suits (r : MixBase) (main : Option MixItem) (subs : List (MixItem × Nat)) : Prop :=
  ∃ l : List (MixItem × Nat), l.Perm subs ∧ Met r main l

/-- A recipe that suits is found if there is one, whatever the order of the sub items. -/
structure ProperlyFound (T : List MixBase) (main : Option MixItem) (subs : List (MixItem × Nat)) : Prop where
  defined : getProperMixInfo T main subs ≠ none
  sound : ∀ r, getProperMixInfo T main subs = some (some r) → r ∈ T ∧ Suits r main subs
  complete : getProperMixInfo T main subs = some none → ∀ r ∈ T, ¬Suits r main subs
  order : ∀ l : List (MixItem × Nat), l.Perm subs → getProperMixInfo T main l = getProperMixInfo T main subs

/-- The first recipe that some order of the sub items meets is met by every order. -/
def FirstMetByAll (T : List MixBase) (main : Option MixItem) (subs : List (MixItem × Nat)) : Prop :=
  ∀ pre r post, T = pre ++ r :: post → (∀ r' ∈ pre, ¬Suits r' main subs) → Suits r main subs →
    ∀ l : List (MixItem × Nat), l.Perm subs → Met r main l

/-- No count that a recipe overwrites is read by a later one: every count is 1, or only the first recipe that is tried asks
for counts. -/
def CountsKept (T : List MixBase) (main : Option MixItem) (subs : List (MixItem × Nat)) : Prop :=
  (∀ x ∈ subs, x.2 = 1) ∨ ∀ r ∈ (T.filter fun r => tried r main subs.length).tail, ¬AsksCount r subs.length

/-- The comparisons of every recipe that is tried are with items that are there. -/
def AllWellFormed (T : List MixBase) (main : Option MixItem) (subs : List (MixItem × Nat)) : Prop :=
  ∀ r ∈ T, tried r main subs.length = true → WellFormed r main subs.length

theorem getProperMixInfo_eq (hcounts : CountsKept T main subs) (hT : AllWellFormed T main subs) (hl : l.Perm subs) :
    getProperMixInfo T main l = some (T.find? fun r => meets r main (l.map Prod.fst) (countsOf l)) := by
  have hlen : (l.map Prod.fst).length = subs.length := by rw [List.length_map, hl.length_eq]
  unfold getProperMixInfo
  refine searchMix_eq (.inr ⟨fun _ _ => rfl, ?_⟩) ?_
  · rw [hlen]
    refine hcounts.imp_left fun hone s hs => ?_
    have hs : s < l.length := by rw [hl.length_eq]; exact hs
    unfold countsOf
    rw [List.getElem?_eq_getElem hs]
    exact hone _ (hl.mem_iff.mp (List.getElem_mem hs))
  · rw [hlen]
    exact hT

/-- Of the recipes that suit there is a first one. -/
theorem exists_first (h : ∃ r ∈ T, Suits r main subs) :
    ∃ pre r post, T = pre ++ r :: post ∧ (∀ r' ∈ pre, ¬Suits r' main subs) ∧ Suits r main subs := by
  classical
  obtain ⟨r, hmem, hr⟩ := h
  have hsome : (T.find? fun r => decide (Suits r main subs)).isSome := List.find?_isSome.mpr ⟨r, hmem, decide_eq_true hr⟩
  obtain ⟨r₀, hr₀⟩ := Option.isSome_iff_exists.mp hsome
  obtain ⟨hsuits, pre, post, rfl, hpre⟩ := List.find?_eq_some_iff_append.mp hr₀
  refine ⟨pre, r₀, post, rfl, fun r' hr' => ?_, of_decide_eq_true hsuits⟩
  exact of_decide_eq_false (by simpa using hpre r' hr')

/-- A recipe that no earlier one comes before is found in every order that meets it. -/
theorem find?_of_met {pre post : List MixBase} (hpre : ∀ r' ∈ pre, ¬Suits r' main subs) (hl : l.Perm subs)
    (hmet : Met r main l) :
    (pre ++ r :: post).find? (fun r => meets r main (l.map Prod.fst) (countsOf l)) = some r :=
  List.find?_eq_some_iff_append.mpr ⟨hmet, pre, post, rfl, fun r' hr' => by
    rw [Bool.not_eq_true', Bool.eq_false_iff]
    exact fun h => hpre r' hr' ⟨l, hl, h⟩⟩

/-- A material that is asked for by its code. -/
def byCode (code : Int) : MaterialInfo := ⟨fun i => if i = 0 then CHECK_ITEM_ID else 0, fun i => if i = 0 then code else 0⟩

/-- A recipe for an item 1 with a sub material 2 and a sub material 3. -/
def twoMaterials : MixBase where
  id := 1
  type := 101
  value := fun _ => 0
  sub_material_cnt := 2
  main_material := byCode 1
  sub_material := fun s => byCode (if s = 0 then 2 else 3)

theorem byCode_type_ne (code : Int) (i : Nat) : (byCode code).type i ≠ CHECK_SAME_ITEM_ID := by
  unfold byCode
  dsimp only
  split_ifs <;> decide

theorem twoMaterials_wellFormed (main : Option MixItem) (n : Nat) : WellFormed twoMaterials main n where
  main_material := fun i _ h => absurd h (byCode_type_ne 1 i)
  absent := fun _ i _ => byCode_type_ne 1 i
  sub_material := fun _ _ i _ h => absurd h (byCode_type_ne _ i)

end MixManager

end RZEmulator.Chihiro
