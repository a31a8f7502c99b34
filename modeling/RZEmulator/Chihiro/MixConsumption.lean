import RZEmulator.Chihiro.MixRequest

/-!
# What a mix consumes

The units that the slots of the recipe require against those that a request takes. `mixTakes_of_tidy` says it of the requests
that name different items for slots of one unit each.
-/

namespace RZEmulator.Chihiro

open MixBase MixManager

/-- The units that a slot requires. -/
def demand (info : MaterialInfo) : Nat :=
  match (List.range MATERIAL_INFO_COUNT).find? fun i => info.type i = CHECK_ITEM_COUNT with
  | none => 1
  | some i => (info.value i).toNat

/-- The units of an item that the slots from the index `j` on require, when the items `handles` are for them. -/
def requiredUnits (r : MixBase) (h : Nat) : Nat → List Nat → Nat
  | _, [] => 0
  | j, x :: handles => (if x = h then demand (r.sub_material j) else 0) + requiredUnits r h (j + 1) handles

/-- What the slots require, less a card that is kept. -/
def takes (r : MixBase) (handles : List Nat) (kept : Option Nat) (h : Nat) : Nat :=
  requiredUnits r h 0 handles - if kept = some h then 1 else 0

namespace MixState

/-- The request has been refused and has changed nothing, or it has taken what the slots require however the sub items are put
into them, less a card that is kept. -/
def Mixed (tables : MixTables) (pct : MixRequest) (s s' : MixState) (kept : Option Nat) : Prop :=
  s' = s ∨ ∃ main subs r c, s.itemsOf pct = some (main, subs) ∧ matchedBy tables pct main subs = some (some (r, c)) ∧
    (kept ≠ none → r.type = MIX_ENHANCE_SKILL_CARD) ∧
    ∀ handles, handles.Perm (subs.map Prod.fst) → ∀ h, takes r handles kept h ≤ s.units h ∧
      ((∀ x, main = some x → h ≠ x.1) → s'.units h = s.units h - takes r handles kept h)

/-- The items are different ones for slots of one unit, there are as many as the recipe's type works on, and an attempt to
enhance one of them comes to an end. -/
structure TidyMix (tables : MixTables) (r : MixBase) (main : Option (Nat × MixObject)) (subs : List (Nat × MixObject)) : Prop where
  distinct : (subs.map Prod.fst).Nodup
  apart : ∀ x, main = some x → x.1 ∉ subs.map Prod.fst
  demands : ∀ j < subs.length, demand (r.sub_material j) = 1
  plain : r.type = MIX_ENHANCE → subs.length = 1
  safe : r.type = MIX_ENHANCE_WITHOUT_FAIL → subs.length = 2
  level : r.type = MIX_ENHANCE ∨ r.type = MIX_ENHANCE_WITHOUT_FAIL → ∀ x, main = some x → 0 ≤ x.2.nEnhance ∧ x.2.nEnhance < 20
  fails : r.type = MIX_ENHANCE → ∀ info, tables.enhanceInfo (r.value 0) = some info →
    info.nFailResult ≠ 0 ∧ info.nFailResult ≠ EnhanceInfo.RESULT_FAIL
  cards : r.type = MIX_ENHANCE_SKILL_CARD → (∃ x ∈ subs, x.2.group = 23) ∧ ∀ x ∈ subs, 0 ≤ x.2.nEnhance ∧ x.2.nEnhance < 20

/-- The search for the recipe reads no item that is not there, and the recipe it finds is a tidy one for the request. -/
def TidyRequest (tables : MixTables) (pct : MixRequest) (s : MixState) : Prop :=
  ∀ main subs, s.itemsOf pct = some (main, subs) → ∃ found, matchedBy tables pct main subs = some found ∧
    ∀ r c, found = some (r, c) → TidyMix tables r main subs

/-! ## Erasing -/

section

variable {s s' : MixState} {hs : List Nat} {h : Nat}

theorem eraseItem_of_held (hheld : 0 < s.units h) (count : Nat) :
    s.eraseItem h count = some { s with units := Function.update s.units h (s.units h - count) } := if_neg (by omega)

/-- Different items that are in the inventory lose a unit each. -/
theorem eraseItems_ones (hnodup : hs.Nodup) (hheld : ∀ h ∈ hs, 0 < s.units h) :
    ∃ s', s.eraseItems (hs.map (·, 1)) = some s' ∧ s'.pool = s.pool ∧
      ∀ h, s'.units h = s.units h - if h ∈ hs then 1 else 0 := by
  induction hs generalizing s with
  | nil => exact ⟨s, rfl, rfl, fun h => by simp⟩
  | cons x hs ih =>
    rw [List.nodup_cons] at hnodup
    rw [List.forall_mem_cons] at hheld
    have hkept : ∀ h ∈ hs, 0 < Function.update s.units x (s.units x - 1) h := by
      intro h hh
      have hne : h ≠ x := by
        rintro rfl
        exact hnodup.1 hh
      rw [Function.update_of_ne hne]
      exact hheld.2 h hh
    obtain ⟨s', hs', hpool, hunits⟩ := ih (s := { s with units := Function.update s.units x (s.units x - 1) }) hnodup.2 hkept
    refine ⟨s', ?_, hpool, fun h => ?_⟩
    · rw [List.map_cons, eraseItems, eraseItem_of_held hheld.1]
      exact hs'
    · rw [hunits]
      by_cases hx : h = x
      · rw [hx, if_neg hnodup.1, if_pos List.mem_cons_self]
        dsimp only
        rw [Function.update_self]
        omega
      · dsimp only
        rw [Function.update_of_ne hx]
        congr 1
        simp [List.mem_cons, hx]

theorem check_mixable_item_held {n : Nat} {item : MixObject} (hitem : s.check_mixable_item h n = some item) : 0 < s.units h := by
  unfold check_mixable_item at hitem
  cases hpool : s.pool h with
  | none =>
    rw [hpool] at hitem
    cases hitem
  | some x =>
    rw [hpool] at hitem
    dsimp only at hitem
    split_ifs at hitem with hcount hbarred hout
    rw [not_or] at hout
    omega

theorem checkSubItems_held {infos : List (Nat × Nat)} {subs : List (Nat × MixObject)} (hsubs : s.checkSubItems infos = some subs) :
    ∀ h ∈ subs.map Prod.fst, 0 < s.units h := by
  induction infos generalizing subs with
  | nil =>
    cases hsubs
    nofun
  | cons mixInfo infos ih =>
    unfold checkSubItems at hsubs
    cases hitem : s.check_mixable_item mixInfo.1 mixInfo.2 with
    | none =>
      rw [hitem] at hsubs
      cases hsubs
    | some item =>
      rw [hitem] at hsubs
      obtain ⟨rest, hrest, rfl⟩ := Option.map_eq_some_iff.mp hsubs
      rw [List.map_cons, List.forall_mem_cons]
      exact ⟨check_mixable_item_held hitem, ih hrest⟩

end

/-! ## What the recipe requires -/

section

variable {r : MixBase} {handles : List Nat} {h : Nat} {main : Option MixItem} {items : List MixItem}

theorem requiredUnits_eq {j : Nat} (hdemands : ∀ i < j + handles.length, demand (r.sub_material i) = 1) (hnodup : handles.Nodup) :
    requiredUnits r h j handles = if h ∈ handles then 1 else 0 := by
  induction handles generalizing j with
  | nil => rfl
  | cons x handles ih =>
    rw [List.nodup_cons] at hnodup
    rw [List.length_cons] at hdemands
    unfold requiredUnits
    rw [ih (fun i hi => hdemands i (by omega)) hnodup.2, hdemands j (by omega)]
    by_cases hx : x = h
    · subst hx
      rw [if_pos rfl, if_neg hnodup.1, if_pos List.mem_cons_self]
    · rw [if_neg hx, Nat.zero_add]
      simp [List.mem_cons, Ne.symm hx]

/-- The search with the counts is the search. -/
theorem matchMix_fst (rs : List MixBase) (c : Nat → Nat) :
    (matchMix main items rs c).map (Option.map Prod.fst) = searchMix main items rs c := by
  induction rs generalizing c with
  | nil => rfl
  | cons r rs ih =>
    unfold matchMix searchMix
    split_ifs
    · exact ih c
    · dsimp only
      split_ifs
      · exact ih _
      · cases postArrange r main ((arrange r items c).2.pSubMaterialArrangeBuffer.filterMap fun s => items[s]?) with
        | none => rfl
        | some b =>
          cases b with
          | false => exact ih _
          | true => rfl

/-- What a request finds is what `GetProperMixInfo` finds for its sub items with their counts. -/
theorem matchedBy_fst {tables : MixTables} {pct : MixRequest} {x : Option (Nat × MixObject)} {subs : List (Nat × MixObject)}
    (hlength : subs.length = pct.sub_items.length) :
    (matchedBy tables pct x subs).map (Option.map Prod.fst) = getProperMixInfo tables.recipes (x.map fun x => x.2.toMixItem)
      ((subs.map fun x => x.2.toMixItem).zip (pct.sub_items.map Prod.snd)) := by
  have hitems : ((subs.map fun x => x.2.toMixItem).zip (pct.sub_items.map Prod.snd)).map Prod.fst =
      subs.map fun x => x.2.toMixItem := List.map_fst_zip (by simp [hlength])
  have hcounts : countsOf ((subs.map fun x => x.2.toMixItem).zip (pct.sub_items.map Prod.snd)) =
      fun i => (pct.sub_items[i]?).elim 0 Prod.snd := by
    funext i
    unfold countsOf
    by_cases hi : i < pct.sub_items.length
    · simp [hi, hlength]
    · simp [not_lt.mp hi, hlength]
  unfold matchedBy getProperMixInfo
  rw [matchMix_fst, hitems, hcounts]

/-- Every sub item counts once when a recipe has been found. -/
theorem matchMix_counts {rs : List MixBase} {c c' : Nat → Nat} (hfound : matchMix main items rs c = some (some (r, c'))) :
    ∀ i < items.length, c' i = 1 := by
  induction rs generalizing c with
  | nil => cases hfound
  | cons r' rs ih =>
    unfold matchMix at hfound
    by_cases htried : tried r' main items.length = false
    · rw [if_pos htried] at hfound
      exact ih hfound
    · rw [if_neg htried] at hfound
      dsimp only at hfound
      obtain ⟨hfits, -, hcounts⟩ := arrange_spec r' items c
      by_cases harranged : (arrange r' items c).1 = false
      · rw [if_pos harranged] at hfound
        exact ih hfound
      · rw [if_neg harranged] at hfound
        split at hfound
        · cases hfound
        · exact ih hfound
        · cases hfound
          intro i hi
          rw [hcounts i hi, if_pos (hfits.mp (by simpa using harranged) i hi)]

theorem map_zipIdx_ones {c : Nat → Nat} (l : List Nat) (k : Nat) (hc : ∀ i < l.length, c (k + i) = 1) :
    (l.zipIdx k).map (fun x => (x.1, c x.2)) = l.map (·, 1) := by
  induction l generalizing k with
  | nil => rfl
  | cons x l ih =>
    have hhead : c k = 1 := hc 0 (Nat.succ_pos _)
    have htail : ∀ i < l.length, c (k + 1 + i) = 1 := by
      intro i hi
      rw [Nat.add_assoc, Nat.add_comm 1 i]
      exact hc (i + 1) (Nat.succ_lt_succ hi)
    rw [List.zipIdx_cons, List.map_cons, List.map_cons, ih (k + 1) htail, hhead]

theorem erasedBy_ones {subs : List (Nat × MixObject)} {c : Nat → Nat} (hc : ∀ i < subs.length, c i = 1) :
    erasedBy subs c = (subs.map Prod.fst).map (·, 1) := by
  refine map_zipIdx_ones _ 0 fun i hi => ?_
  rw [List.length_map] at hi
  rw [Nat.zero_add]
  exact hc i hi

end

/-! ## The branches -/

section

variable {tables : MixTables} {r : MixBase} {x : Nat × MixObject} {subs : List (Nat × MixObject)} {s s' : MixState} {d : MixDraws}

/-- An attempt on an item that has a chance in the table, and does not fail the way that does not end, has an outcome. -/
theorem enhanceItem_settles {type : EnhanceType} {info : EnhanceInfo} {n increase : Int} {fuel draw : Nat}
    {mats : List EnhanceMaterial} (hn : 0 ≤ n ∧ n < 20)
    (hfail : type = .MIX_ENHANCE → info.nFailResult ≠ 0 ∧ info.nFailResult ≠ EnhanceInfo.RESULT_FAIL) :
    ∃ o, MixManager.enhanceItem fuel type info n mats increase draw = some o ∧ o ≠ .outOfTable := by
  unfold MixManager.enhanceItem enhanceDraw
  rw [EnhanceInfo.percentage_of_lt info hn.1 hn.2]
  dsimp only
  split_ifs with hcube hlevels hdraw htype
  · exact ⟨_, rfl, nofun⟩
  · exact ⟨_, rfl, nofun⟩
  · exact ⟨_, rfl, nofun⟩
  · exact ⟨_, rfl, nofun⟩
  · have hplain : type = .MIX_ENHANCE := by
      cases type with
      | MIX_ENHANCE => rfl
      | MIX_ENHANCE_WITHOUT_FAIL => exact absurd rfl htype
    unfold procEnhanceFail
    rw [if_neg (hfail hplain).1, if_neg (hfail hplain).2]
    split_ifs <;> exact ⟨_, rfl, nofun⟩

/-- Nothing has changed, or a unit of each of the items `taken` is gone and at most one of the item `main`. -/
def Took (s : MixState) (taken : List Nat) (main : Nat) (s' : MixState) : Prop :=
  s' = s ∨ ∀ h ≠ main, s'.units h = s.units h - if h ∈ taken then 1 else 0

theorem enhanceItem_took {type : EnhanceType} {uses : List Nat} (huses : enhanceUses type subs = some uses)
    (hnodup : uses.Nodup) (hheld : ∀ h ∈ uses, 0 < s.units h) (hmain : 0 < s.units x.1) (hapart : x.1 ∉ uses)
    (hlevel : 0 ≤ x.2.nEnhance ∧ x.2.nEnhance < 20)
    (hfail : type = .MIX_ENHANCE → ∀ info, tables.enhanceInfo (r.value 0) = some info →
      info.nFailResult ≠ 0 ∧ info.nFailResult ≠ EnhanceInfo.RESULT_FAIL) :
    ∃ s', s.enhanceItem tables type r x subs d = some s' ∧ s.Took uses x.1 s' := by
  unfold MixState.enhanceItem
  cases hinfo : tables.enhanceInfo (r.value 0) with
  | none => exact ⟨s, rfl, .inl rfl⟩
  | some info =>
    dsimp only
    rw [huses]
    dsimp only
    obtain ⟨o, ho, htable⟩ : ∃ o, MixManager.enhanceItem d.fuel type info x.2.nEnhance
        (subs.map fun x => ⟨x.2.code, x.2.isCube⟩) d.increase d.draw = some o ∧ o ≠ .outOfTable :=
      enhanceItem_settles hlevel fun htype => hfail htype info hinfo
    rw [ho]
    obtain ⟨s₁, hs₁, -, hunits⟩ := eraseItems_ones hnodup hheld
    cases o with
    | refused => exact ⟨s, rfl, .inl rfl⟩
    | outOfTable => exact absurd rfl htable
    | level n =>
      dsimp only
      rw [hs₁]
      exact ⟨_, rfl, .inr fun h _ => hunits h⟩
    | erased =>
      dsimp only
      rw [hs₁, Option.bind_some]
      have hmain₁ : 0 < s₁.units x.1 := by
        rw [hunits, if_neg hapart]
        omega
      rw [eraseItem_of_held hmain₁]
      refine ⟨_, rfl, .inr fun h hne => ?_⟩
      dsimp only
      rw [Function.update_of_ne hne]
      exact hunits h

theorem enhanceUses_plain (hlength : subs.length = 1) :
    ∃ uses, enhanceUses .MIX_ENHANCE subs = some uses ∧ uses.Perm (subs.map Prod.fst) := by
  obtain ⟨a, rfl⟩ := List.length_eq_one_iff.mp hlength
  exact ⟨_, rfl, .refl _⟩

theorem enhanceUses_safe (hlength : subs.length = 2) :
    ∃ uses, enhanceUses .MIX_ENHANCE_WITHOUT_FAIL subs = some uses ∧ uses.Perm (subs.map Prod.fst) := by
  obtain ⟨a, b, rfl⟩ := List.length_eq_two.mp hlength
  refine ⟨if a.2.isCube then [a.1, b.1] else [b.1, a.1], rfl, ?_⟩
  split
  · exact .refl _
  · exact .swap ..

/-- Two cards and a cube are what is picked of three items. -/
theorem pickCards_three {m sec : Nat × MixObject} {cube : Option (Nat × MixObject)} (hlength : subs.length = 3)
    (hcube : ∃ y ∈ subs, y.2.group = 23) (hpick : pickCards subs none none none = (some m, some sec, cube)) :
    ∃ c, cube = some c ∧ [c, m, sec].Perm subs := by
  obtain ⟨a, b, c, rfl⟩ := List.length_eq_three.mp hlength
  simp only [pickCards] at hpick
  obtain ⟨y, hy, hgroup⟩ := hcube
  have hcard : ¬ y.2.group = 10 := by
    rw [hgroup]
    decide
  simp only [List.mem_cons, List.not_mem_nil, or_false] at hy
  -- the cube is one of the three, and the two others have to be cards
  rcases hy with rfl | rfl | rfl
  · rw [if_neg hcard, if_pos hgroup] at hpick
    split_ifs at hpick <;> cases hpick
    exact ⟨_, rfl, .refl _⟩
  · rw [if_neg hcard, if_pos hgroup] at hpick
    split_ifs at hpick <;> cases hpick
    exact ⟨_, rfl, .swap ..⟩
  · rw [if_neg hcard, if_pos hgroup] at hpick
    split_ifs at hpick <;> cases hpick
    exact ⟨_, rfl, (List.perm_append_singleton _ [_, _]).symm⟩

/-- With the cards and the cube all of them are gone or, if the attempt has succeeded, all but the card that has been enhanced. -/
theorem enhanceSkillCard_took (tables : MixTables) (r : MixBase) (d : MixDraws) (hcube : ∃ y ∈ subs, y.2.group = 23)
    (hlevels : ∀ y ∈ subs, 0 ≤ y.2.nEnhance ∧ y.2.nEnhance < 20) (hnodup : (subs.map Prod.fst).Nodup)
    (hheld : ∀ h ∈ subs.map Prod.fst, 0 < s.units h) :
    ∃ s' kept, s.enhanceSkillCard tables r subs d = some s' ∧ (s' = s ∨ ∀ h, s'.units h =
      s.units h - ((if h ∈ subs.map Prod.fst then 1 else 0) - if kept = some h then 1 else 0)) := by
  unfold MixState.enhanceSkillCard
  by_cases hlength : subs.length = 3
  · rw [if_neg (not_not.mpr hlength)]
    split
    · next info m sec cube hinfo hpick =>
      obtain ⟨c, rfl, hperm⟩ := pickCards_three hlength hcube hpick
      have hhandles : [c.1, m.1, sec.1].Perm (subs.map Prod.fst) := hperm.map Prod.fst
      have hm : m ∈ subs := hperm.subset (by simp)
      have hall : [c.1, m.1, sec.1].Nodup := hhandles.nodup_iff.mpr hnodup
      have htwo : [c.1, sec.1].Nodup := hall.sublist (by simp)
      have hthere : ∀ h ∈ [c.1, m.1, sec.1], 0 < s.units h := fun h hh => hheld h (hhandles.subset hh)
      obtain ⟨s₁, hs₁, -, hunits₁⟩ := eraseItems_ones hall hthere
      obtain ⟨s₂, hs₂, -, hunits₂⟩ := eraseItems_ones htwo fun h hh => hthere h (by simp at hh ⊢; tauto)
      unfold MixManager.enhanceSkillCard
      dsimp only
      split_ifs with hsame
      · exact ⟨s, none, rfl, .inl rfl⟩
      · rw [EnhanceInfo.percentage_of_lt info (hlevels m hm).1 (hlevels m hm).2]
        dsimp only
        split_ifs with hdraw
        · refine ⟨s₁, none, hs₁, .inr fun h => ?_⟩
          have hnone : ¬(none : Option Nat) = some h := nofun
          rw [hunits₁, if_neg hnone, Nat.sub_zero]
          simp only [hhandles.mem_iff]
        · dsimp only
          refine ⟨_, some m.1, congrArg (Option.map _) hs₂, .inr fun h => (hunits₂ h).trans ?_⟩
          simp only [← hhandles.mem_iff, Option.some.injEq]
          have hne : m.1 ≠ c.1 ∧ m.1 ≠ sec.1 := by
            simp only [List.nodup_cons, List.mem_cons, List.not_mem_nil, or_false, not_or] at hall
            exact ⟨Ne.symm hall.1.1, hall.2.1⟩
          by_cases hmain : m.1 = h
          · subst hmain
            simp [hne.1, hne.2]
          · simp [hmain, Ne.symm hmain]
    · exact ⟨s, none, rfl, .inl rfl⟩
  · rw [if_pos hlength]
    exact ⟨s, none, rfl, .inl rfl⟩

end

/-! ## The request -/

section

variable {tables : MixTables} {pct : MixRequest} {main : Option (Nat × MixObject)} {subs : List (Nat × MixObject)} {r : MixBase}
  {c : Nat → Nat} {s s' : MixState} {d : MixDraws}

theorem itemsOf_held (hitems : s.itemsOf pct = some (main, subs)) :
    (∀ x, main = some x → 0 < s.units x.1) ∧ ∀ h ∈ subs.map Prod.fst, 0 < s.units h := by
  unfold itemsOf at hitems
  dsimp only at hitems
  split_ifs at hitems with hmany hmain
  obtain ⟨subs', hsubs, heq⟩ := Option.map_eq_some_iff.mp hitems
  obtain ⟨rfl, rfl⟩ := Prod.mk.inj heq
  refine ⟨fun x hx => ?_, checkSubItems_held hsubs⟩
  obtain ⟨item, hitem, rfl⟩ := Option.map_eq_some_iff.mp hx
  exact check_mixable_item_held hitem

theorem takes_eq (hdemands : ∀ j < subs.length, demand (r.sub_material j) = 1) (hnodup : (subs.map Prod.fst).Nodup)
    {handles : List Nat} (hperm : handles.Perm (subs.map Prod.fst)) (kept : Option Nat) (h : Nat) :
    takes r handles kept h = (if h ∈ subs.map Prod.fst then 1 else 0) - if kept = some h then 1 else 0 := by
  have hlength : handles.length = subs.length := by rw [hperm.length_eq, List.length_map]
  unfold takes
  rw [requiredUnits_eq (fun i hi => hdemands i (by omega)) (hperm.nodup_iff.mpr hnodup)]
  simp only [hperm.mem_iff]

/-- A request is mixed when the items of its slots have lost a unit each. -/
theorem mixed_of_units {kept : Option Nat} (htidy : TidyMix tables r main subs) (hitems : s.itemsOf pct = some (main, subs))
    (hfound : matchedBy tables pct main subs = some (some (r, c))) (hkept : kept ≠ none → r.type = MIX_ENHANCE_SKILL_CARD)
    (hunits : s' = s ∨ ∀ h, (∀ x, main = some x → h ≠ x.1) → s'.units h =
      s.units h - ((if h ∈ subs.map Prod.fst then 1 else 0) - if kept = some h then 1 else 0)) :
    s.Mixed tables pct s' kept := by
  refine hunits.imp_right fun hunits => ⟨main, subs, r, c, hitems, hfound, hkept, fun handles hperm h => ?_⟩
  rw [takes_eq htidy.demands htidy.distinct hperm]
  refine ⟨?_, hunits h⟩
  by_cases hh : h ∈ subs.map Prod.fst
  · have hheld := (itemsOf_held hitems).2 h hh
    rw [if_pos hh]
    omega
  · rw [if_neg hh]
    omega

/-- What is erased with the counts of the search is a unit of each of the sub items. -/
theorem eraseItems_erasedBy (hdistinct : (subs.map Prod.fst).Nodup) (hitems : s.itemsOf pct = some (main, subs))
    (hfound : matchedBy tables pct main subs = some (some (r, c))) :
    ∃ s', s.eraseItems (erasedBy subs c) = some s' ∧ ∀ h, s'.units h = s.units h - if h ∈ subs.map Prod.fst then 1 else 0 := by
  have hcounts : ∀ i < subs.length, c i = 1 := fun i hi => matchMix_counts hfound i (by rwa [List.length_map])
  rw [erasedBy_ones hcounts]
  obtain ⟨s', hs', -, hunits⟩ := eraseItems_ones hdistinct (itemsOf_held hitems).2
  exact ⟨s', hs', hunits⟩

/-- The branches that change a main item. -/
theorem mixBy_took {x : Nat × MixObject} (htidy : TidyMix tables r (some x) subs) (hitems : s.itemsOf pct = some (some x, subs))
    (hfound : matchedBy tables pct (some x) subs = some (some (r, c))) (hcard : r.type ≠ MIX_ENHANCE_SKILL_CARD) (d : MixDraws) :
    ∃ s', s.mixBy tables r (some x) subs c d = some s' ∧ s.Took (subs.map Prod.fst) x.1 s' := by
  obtain ⟨hmain, hheld⟩ := itemsOf_held hitems
  obtain ⟨s₁, hs₁, hunits⟩ := eraseItems_erasedBy htidy.distinct hitems hfound
  have henhance : ∀ type uses, enhanceUses type subs = some uses → uses.Perm (subs.map Prod.fst) →
      (r.type = MIX_ENHANCE ∨ r.type = MIX_ENHANCE_WITHOUT_FAIL) → (type = .MIX_ENHANCE → r.type = MIX_ENHANCE) →
      ∃ s', s.enhanceItem tables type r x subs d = some s' ∧ s.Took (subs.map Prod.fst) x.1 s' := by
    intro type uses huses hperm hlevel hfail
    obtain ⟨s', hs', htook⟩ := enhanceItem_took huses (hperm.nodup_iff.mpr htidy.distinct)
      (fun h hh => hheld h (hperm.subset hh)) (hmain x rfl) (fun hx => htidy.apart x rfl (hperm.subset hx)) (htidy.level hlevel x rfl)
      fun htype => htidy.fails (hfail htype)
    refine ⟨s', hs', htook.imp_right fun hunits h hne => ?_⟩
    rw [hunits h hne]
    simp only [hperm.mem_iff]
  unfold mixBy
  rw [if_neg hcard]
  dsimp only
  split_ifs with hplain hsafe hflag hrepair
  · obtain ⟨uses, huses, hperm⟩ := enhanceUses_plain (htidy.plain hplain)
    exact henhance _ uses huses hperm (.inl hplain) fun _ => hplain
  · obtain ⟨uses, huses, hperm⟩ := enhanceUses_safe (htidy.safe hsafe)
    exact henhance _ uses huses hperm (.inr hsafe) nofun
  · unfold mixItem
    rw [hs₁]
    exact ⟨_, rfl, .inr fun h _ => hunits h⟩
  · unfold repairItem
    split_ifs with hbroken
    · rw [hs₁]
      exact ⟨_, rfl, .inr fun h _ => hunits h⟩
    · exact ⟨s, rfl, .inl rfl⟩
  · exact ⟨s, rfl, .inl rfl⟩

end

/-! ## An enhanced card -/

/-- Every slot takes an item that has not been enhanced yet. -/
def cardRecipe : MixBase where
  id := 1
  type := MIX_ENHANCE_SKILL_CARD
  value := fun _ => 7
  sub_material_cnt := 3
  main_material := ⟨fun _ => 0, fun _ => 0⟩
  sub_material := fun _ => ⟨fun _ => CHECK_ENHANCE_MATCH, fun _ => 0⟩

def cardTables : MixTables where
  recipes := [cardRecipe]
  enhanceInfo := fun _ => some ⟨7, 2, 3, 0, fun _ => 100000⟩

/-- Two cards and a cube. -/
def cardState : MixState where
  pool := fun h =>
    if h = 1 ∨ h = 2 then some { group := 10, code := 5 } else if h = 3 then some { group := 23, code := 6 } else none
  units := fun _ => 1

def cardRequest : MixRequest := ⟨0, [(1, 1), (2, 1), (3, 1)]⟩

def cardItems : List (Nat × MixObject) :=
  [(1, { group := 10, code := 5 }), (2, { group := 10, code := 5 }), (3, { group := 23, code := 6 })]

theorem cardState_itemsOf : cardState.itemsOf cardRequest = some (none, cardItems) := rfl

def cardCounts : Nat → Nat :=
  (arrange cardRecipe (cardItems.map fun x => x.2.toMixItem) fun i => (cardRequest.sub_items[i]?).elim 0 Prod.snd).2.pCountList

theorem cardTables_matchedBy : matchedBy cardTables cardRequest none cardItems = some (some (cardRecipe, cardCounts)) := rfl

theorem cardRequest_tidy : TidyRequest cardTables cardRequest cardState := by
  intro main subs hitems
  cases cardState_itemsOf.symm.trans hitems
  refine ⟨_, cardTables_matchedBy, fun r c hrc => ?_⟩
  cases hrc
  exact {
    distinct := by decide
    apart := fun x hx => absurd hx.symm (Option.some_ne_none x)
    demands := fun _ _ => rfl
    plain := nofun
    safe := nofun
    level := nofun
    fails := nofun
    cards := fun _ => by decide }

end MixState

end RZEmulator.Chihiro
