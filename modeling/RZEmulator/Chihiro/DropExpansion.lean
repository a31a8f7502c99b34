import Mathlib.Data.Fintype.Card
import Mathlib.Data.Set.Finite.Basic
import Mathlib.Data.List.Perm.Basic
import Mathlib.Logic.Relation
import Mathlib.Order.WellFounded
import RZEmulator.Chihiro.DropGroup

/-!
# What drop groups expand to

In a table without a cycle of groups every expansion ends, with nothing or with an item of the table that is a leaf below the
group it starts from (`expands`). The slices of a group are those between the running sums of its percentages as floats, which are
the exact slices if and only if every exact sum is a float (`dropExpansion_iff`).
-/

namespace RZEmulator.Chihiro

open Lib Lib.SingleFloat

namespace DropTables

variable (T : DropTables)

/-- The group has an entry with the item or the group `code`. -/
def Entry (g code : Int) : Prop := ∃ dg i, T.getDropGroupInfo g = some dg ∧ dg.drop_item_id i = code

/-- The group refers to the group `h`. -/
def Refers (g h : Int) : Prop := h < 0 ∧ T.Entry g h

def Acyclic : Prop := ∀ g, ¬Relation.TransGen T.Refers g g

/-- The item is an entry of a group that is reached from `g`. -/
def Leaf (g nItemID : Int) : Prop :=
  0 < nItemID ∧ T.hasItemBase nItemID = true ∧ ∃ h, Relation.ReflTransGen T.Refers g h ∧ T.Entry h nItemID

/-- The sum of the percentages of the first entries, as the code computes it. -/
def floatSum (dg : DropGroup) : Nat → Int
  | 0 => 0
  | n + 1 => rounded (floatSum dg n + if h : n < MAX_DROP_GROUP then dg.drop_percentage ⟨n, h⟩ else 0)

/-- The exact sum of the percentages of the first entries. -/
def exactSum (dg : DropGroup) : Nat → Int
  | 0 => 0
  | n + 1 => exactSum dg n + if h : n < MAX_DROP_GROUP then dg.drop_percentage ⟨n, h⟩ else 0

/-- The percentages are non-negative, and they sum to at most 100000000. -/
structure Percentages (dg : DropGroup) : Prop where
  nonneg : ∀ i, 0 ≤ dg.drop_percentage i
  sum_le : exactSum dg MAX_DROP_GROUP ≤ 100000000

/-- The items of the group exist. -/
def AllExist (dg : DropGroup) : Prop := ∀ i, 0 < dg.drop_item_id i → T.hasItemBase (dg.drop_item_id i) = true

/-- The units of a list of drops. -/
def unitsOf (drops : List (Int × Int)) : Int := (drops.map Prod.snd).sum

/-! ## The entry that is selected -/

section

variable {T} {dg : DropGroup} {p cp : Int} {i : Fin MAX_DROP_GROUP} {g h : Int} {is : List (Fin MAX_DROP_GROUP)}

theorem entryLoop_exists (hi : T.entryLoop dg p cp is = some i) (hpos : 0 < dg.drop_item_id i) :
    T.hasItemBase (dg.drop_item_id i) = true := by
  induction is generalizing cp with
  | nil => cases hi
  | cons j is ih =>
    unfold entryLoop at hi
    dsimp only at hi
    split_ifs at hi with hp hskip
    · exact ih hi
    · cases hi
      by_contra hno
      exact hskip ⟨hpos, by simpa using hno⟩
    · exact ih hi

theorem floatSum_succ (dg : DropGroup) (i : Fin MAX_DROP_GROUP) :
    floatSum dg (i + 1) = rounded (floatSum dg i + dg.drop_percentage i) := by
  have hsum : (if h : (i : Nat) < MAX_DROP_GROUP then dg.drop_percentage ⟨i, h⟩ else 0) = dg.drop_percentage i :=
    dif_pos i.isLt
  exact congrArg (fun n => rounded (floatSum dg i + n)) hsum

theorem isFloat_floatSum (dg : DropGroup) (n : Nat) : IsFloat (floatSum dg n : ℚ) := by
  cases n with
  | zero => exact ⟨0, 0, by decide, .inl (by simp [floatSum])⟩
  | succ n => exact isFloat_rounded _

theorem floatSum_nonneg (hdg : Percentages dg) (n : Nat) : 0 ≤ floatSum dg n := by
  induction n with
  | zero => exact le_refl 0
  | succ n ih =>
    refine le_rounded ⟨0, 0, by decide, .inl (by simp)⟩ (le_refl 0) ?_
    split_ifs with hn
    · have hnonneg := hdg.nonneg ⟨n, hn⟩
      omega
    · omega

theorem floatSum_mono (hdg : Percentages dg) {m n : Nat} (hmn : m ≤ n) : floatSum dg m ≤ floatSum dg n := by
  induction n, hmn using Nat.le_induction with
  | base => exact le_refl _
  | succ n hmn ih =>
    refine ih.trans (le_rounded (isFloat_floatSum dg n) (floatSum_nonneg hdg n) ?_)
    split_ifs with hn
    · have hnonneg := hdg.nonneg ⟨n, hn⟩
      omega
    · omega

/-- The running sums are exact where they are floats. -/
theorem floatSum_eq_exactSum {n : Nat} (hfloat : ∀ k ≤ n, IsFloat (exactSum dg k : ℚ)) : floatSum dg n = exactSum dg n := by
  induction n with
  | zero => rfl
  | succ n ih =>
    have hn := hfloat (n + 1) (le_refl _)
    unfold floatSum
    rw [ih fun k hk => hfloat k (by omega)]
    exact rounded_of_isFloat hn

/-- From the entry `n` on, the loop selects the entry in whose slice the draw is. -/
theorem entryLoop_eq_some_iff (hall : T.AllExist dg) (hdg : Percentages dg) {n : Nat} (hn : n ≤ MAX_DROP_GROUP)
    (hp : floatSum dg n < p) : T.entryLoop dg p (floatSum dg n) ((List.finRange MAX_DROP_GROUP).drop n) = some i ↔
      floatSum dg i < p ∧ p ≤ floatSum dg (i + 1) := by
  induction hk : MAX_DROP_GROUP - n generalizing n with
  | zero =>
    have hlast : MAX_DROP_GROUP ≤ n := by omega
    rw [List.drop_eq_nil_of_le (by rw [List.length_finRange]; exact hlast)]
    refine iff_of_false nofun fun h => ?_
    have hmono := floatSum_mono hdg (m := i + 1) (n := n) (by have := i.isLt; omega)
    omega
  | succ k ih =>
    have hlt : n < MAX_DROP_GROUP := by omega
    have hdrop : (List.finRange MAX_DROP_GROUP).drop n = ⟨n, hlt⟩ :: (List.finRange MAX_DROP_GROUP).drop (n + 1) := by
      rw [List.drop_eq_getElem_cons (by rw [List.length_finRange]; exact hlt), List.getElem_finRange]
      rfl
    rw [hdrop]
    unfold entryLoop
    dsimp only
    rw [← floatSum_succ dg ⟨n, hlt⟩]
    dsimp only
    split_ifs with hle hskip
    · exact absurd (hall _ hskip.1) (by rw [hskip.2]; exact nofun)
    · rw [Option.some.injEq]
      constructor
      · rintro rfl
        exact ⟨hp, hle⟩
      · rintro ⟨hlow, hhigh⟩
        apply Fin.ext
        rcases Nat.lt_trichotomy n i with hni | hni | hni
        · have hmono := floatSum_mono hdg (m := n + 1) (n := i) hni
          omega
        · exact hni
        · have hmono := floatSum_mono hdg (m := i + 1) (n := n) hni
          omega
    · exact ih (by omega) (not_le.mp hle) (by omega)

theorem entryOf_eq_some_iff (hall : T.AllExist dg) (hdg : Percentages dg) (hp : 0 < p) :
    T.entryOf dg p = some i ↔ floatSum dg i < p ∧ p ≤ floatSum dg (i + 1) :=
  entryLoop_eq_some_iff hall hdg (Nat.zero_le _) hp

theorem selectItemIDFromDropGroup_cases (g p : Int) : (T.selectItemIDFromDropGroup g p).nItemCount = 1 ∧
    ((T.selectItemIDFromDropGroup g p).nItemID = 0 ∨ T.Entry g (T.selectItemIDFromDropGroup g p).nItemID ∧
      (0 < (T.selectItemIDFromDropGroup g p).nItemID → T.hasItemBase (T.selectItemIDFromDropGroup g p).nItemID = true)) := by
  unfold selectItemIDFromDropGroup
  cases hdg : T.getDropGroupInfo g with
  | none => exact ⟨rfl, .inl rfl⟩
  | some dg =>
    rw [Option.bind_some]
    cases hi : T.entryOf dg p with
    | none => exact ⟨rfl, .inl rfl⟩
    | some i => exact ⟨rfl, .inr ⟨⟨dg, i, hdg, rfl⟩, entryLoop_exists hi⟩⟩

/-! ## Expansions -/

/-- The groups that the table has are finitely many, so that no chain of references goes on for ever. -/
theorem Acyclic.wellFounded (hacyclic : T.Acyclic) : WellFounded fun h g => T.Refers g h := by
  have hkeys : ∀ g h, T.Refers g h → g ∈ T.dropTemplateStore.map DropGroup.uid := by
    rintro g h ⟨-, dg, i, hdg, -⟩
    unfold getDropGroupInfo at hdg
    have huid := List.find?_some hdg
    rw [← beq_iff_eq.mp huid]
    exact List.mem_map_of_mem (List.mem_of_find?_eq_some hdg)
  let R : {g // g ∈ T.dropTemplateStore.map DropGroup.uid} → {g // g ∈ T.dropTemplateStore.map DropGroup.uid} → Prop :=
    fun h g => Relation.TransGen T.Refers g.1 h.1
  have : IsTrans _ R := ⟨fun _ _ _ hab hbc => hbc.trans hab⟩
  have : Std.Irrefl R := ⟨fun g => hacyclic g.1⟩
  have : Finite {g // g ∈ T.dropTemplateStore.map DropGroup.uid} := (List.finite_toSet _).to_subtype
  have hwf : WellFounded R := Finite.wellFounded_of_trans_of_irrefl R
  have hkey : ∀ g : {g // g ∈ T.dropTemplateStore.map DropGroup.uid}, Acc (fun h g => T.Refers g h) g.1 := fun g => by
    induction g using hwf.induction with
    | _ g ih =>
      refine ⟨_, fun h hh => ?_⟩
      by_cases hmem : h ∈ T.dropTemplateStore.map DropGroup.uid
      · exact ih ⟨h, hmem⟩ (.single hh)
      · exact ⟨_, fun k hk => absurd (hkeys h k hk) hmem⟩
  refine ⟨fun g => ⟨_, fun h hh => ?_⟩⟩
  by_cases hmem : h ∈ T.dropTemplateStore.map DropGroup.uid
  · exact hkey ⟨h, hmem⟩
  · exact ⟨_, fun k hk => absurd (hkeys h k hk) hmem⟩

variable {draws : Nat → Int} {fuel fuel' k k' : Nat} {nItemID nItemCount : Int} {x : Int × Int × Nat}

theorem expand_mono (hle : fuel ≤ fuel') (hx : T.expand draws fuel nItemID nItemCount k = some x) :
    T.expand draws fuel' nItemID nItemCount k = some x := by
  induction fuel generalizing fuel' nItemID nItemCount k with
  | zero => cases hx
  | succ fuel ih =>
    obtain ⟨fuel', rfl⟩ : ∃ n, fuel' = n + 1 := ⟨fuel' - 1, by omega⟩
    unfold expand at hx ⊢
    split_ifs at hx ⊢ with hneg
    · exact ih (by omega) hx
    · exact hx

/-- An item that has been selected: a leaf below the group, with one unit. -/
def Yield (T : DropTables) (g : Int) (x : Int × Int × Nat) : Prop := (x.1 = 0 ∨ T.Leaf g x.1) ∧ x.2.1 = 1

theorem expand_yields (hacyclic : T.Acyclic) (draws : Nat → Int) (g : Int) (k : Nat) :
    ∃ fuel x, T.expandOnce draws fuel g k = some x ∧ Yield T g x := by
  induction g using hacyclic.wellFounded.induction generalizing k with
  | _ g ih =>
    unfold expandOnce
    dsimp only
    obtain ⟨hcount, hitem⟩ := selectItemIDFromDropGroup_cases (T := T) g (draws k)
    generalize T.selectItemIDFromDropGroup g (draws k) = s at hcount hitem
    by_cases hneg : s.nItemID < 0
    · -- a group, from which the expansion goes on
      have hentry : T.Entry g s.nItemID := (hitem.resolve_left hneg.ne).1
      obtain ⟨fuel, x, hx, hyield, hone⟩ := ih s.nItemID ⟨hneg, hentry⟩ (k + 1)
      refine ⟨fuel + 1, x, ?_, hyield.imp_right fun ⟨hpos, hbase, h, hreach, hleaf⟩ => ?_, hone⟩
      · unfold expand
        rw [if_pos hneg]
        exact hx
      · exact ⟨hpos, hbase, h, .head ⟨hneg, hentry⟩ hreach, hleaf⟩
    · refine ⟨1, (s.nItemID, s.nItemCount, k + 1), if_neg hneg, ?_, hcount⟩
      rcases hitem with hzero | ⟨hentry, hbase⟩
      · exact .inl hzero
      · by_cases hzero : s.nItemID = 0
        · exact .inl hzero
        · have hpos : 0 < s.nItemID := by omega
          exact .inr ⟨hpos, hbase hpos, g, .refl, hentry⟩

theorem expandOnce_mono {g : Int} (hle : fuel ≤ fuel') (hx : T.expandOnce draws fuel g k = some x) :
    T.expandOnce draws fuel' g k = some x := expand_mono hle hx

end

/-! ## The loops -/

section

variable {T} {draws : Nat → Int} {fuel fuel' k k' n : Nat} {g : Int} {m m' : List (Int × Int)} {hasPlayer : Bool} {e : MonsterDrop}

theorem unitsOf_merge (c u : Int) (m : List (Int × Int)) : unitsOf (merge c u m) = unitsOf m + u := by
  unfold unitsOf
  induction m with
  | nil => simp [merge]
  | cons x m ih =>
    unfold merge
    split_ifs
    · simp only [List.map_cons, List.sum_cons]
      omega
    · simp only [List.map_cons, List.sum_cons]
      omega
    · simp only [List.map_cons, List.sum_cons, ih]
      omega

theorem mem_merge {c u : Int} {y : Int × Int} (hy : y ∈ merge c u m) :
    y ∈ m ∨ y.1 = c ∧ (y.2 = u ∨ ∃ z ∈ m, y.2 = z.2 + u) := by
  induction m with
  | nil =>
    rw [merge, List.mem_singleton] at hy
    rw [hy]
    exact .inr ⟨rfl, .inl rfl⟩
  | cons x m ih =>
    unfold merge at hy
    split_ifs at hy with heq
    · rcases List.mem_cons.mp hy with rfl | hy
      · exact .inr ⟨heq.symm, .inr ⟨x, List.mem_cons_self, rfl⟩⟩
      · exact .inl (List.mem_cons_of_mem x hy)
    · rcases List.mem_cons.mp hy with rfl | hy
      · exact .inr ⟨rfl, .inl rfl⟩
      · exact .inl hy
    · rcases List.mem_cons.mp hy with rfl | hy
      · exact .inl List.mem_cons_self
      · rcases ih hy with hmem | ⟨hc, hu⟩
        · exact .inl (List.mem_cons_of_mem x hmem)
        · exact .inr ⟨hc, hu.imp_right fun ⟨z, hz, heq⟩ => ⟨z, List.mem_cons_of_mem x hz, heq⟩⟩

theorem groupLoop_mono (hle : fuel ≤ fuel') {y : List (Int × Int) × Nat} (hy : T.groupLoop draws fuel g n k m = some y) :
    T.groupLoop draws fuel' g n k m = some y := by
  induction n generalizing k m with
  | zero => exact hy
  | succ n ih =>
    unfold groupLoop at hy ⊢
    cases hx : T.expandOnce draws fuel g k with
    | none =>
      rw [hx] at hy
      cases hy
    | some x =>
      rw [hx] at hy
      rw [expandOnce_mono hle hx]
      exact ih hy

/-- A drop of the expansion: units of a leaf below the group. -/
def Drop (T : DropTables) (g : Int) (y : Int × Int) : Prop := T.Leaf g y.1 ∧ 0 < y.2

/-- The loop of `dropItemGroup` ends with leaves only, and with a unit for each turn at most. -/
theorem groupLoop_yields (hacyclic : T.Acyclic) (draws : Nat → Int) (g : Int) (n k : Nat) (m : List (Int × Int))
    (hm : ∀ y ∈ m, Drop T g y) : ∃ fuel m' k', T.groupLoop draws fuel g n k m = some (m', k') ∧ (∀ y ∈ m', Drop T g y) ∧
      unitsOf m' ≤ unitsOf m + n := by
  induction n generalizing k m with
  | zero => exact ⟨0, m, k, rfl, hm, by simp⟩
  | succ n ih =>
    obtain ⟨fuel₁, ⟨c, u, k₁⟩, hx, hleaf, hone⟩ := expand_yields hacyclic draws g k
    dsimp only at hleaf hone
    subst hone
    have hm₁ : ∀ y ∈ (if 0 < c then merge c 1 m else m), Drop T g y := by
      intro y hy
      split_ifs at hy with hpos
      · rcases mem_merge hy with hmem | ⟨hc, hu⟩
        · exact hm y hmem
        · refine ⟨hc ▸ hleaf.resolve_left hpos.ne', ?_⟩
          rcases hu with hu | ⟨z, hz, hu⟩
          · omega
          · have hz := (hm z hz).2
            omega
      · exact hm y hy
    have hunits : unitsOf (if 0 < c then merge c 1 m else m) ≤ unitsOf m + 1 := by
      split_ifs
      · rw [unitsOf_merge]
      · omega
    obtain ⟨fuel₂, m', k', hrun, hleaves, hhigh⟩ := ih k₁ _ hm₁
    refine ⟨max fuel₁ fuel₂, m', k', ?_, hleaves, by push_cast; omega⟩
    unfold groupLoop
    rw [expandOnce_mono (Nat.le_max_left _ _) hx]
    exact groupLoop_mono (Nat.le_max_right _ _) hrun

theorem dropItem_sublist (T : DropTables) (hasPlayer : Bool) (m : List (Int × Int)) :
    (m.flatMap fun drop => T.dropItem hasPlayer drop.1 drop.2).Sublist m := by
  induction m with
  | nil => exact .slnil
  | cons x m ih =>
    rw [List.flatMap_cons]
    unfold dropItem
    split_ifs
    · exact ih.cons x
    · exact ih.cons_cons x
    · exact ih.cons x

theorem unitsOf_sublist (hsub : m'.Sublist m) (hm : ∀ y ∈ m, 0 < y.2) : unitsOf m' ≤ unitsOf m := by
  unfold unitsOf
  induction hsub with
  | slnil => exact le_refl _
  | cons x hsub ih =>
    rw [List.forall_mem_cons] at hm
    have ih := ih hm.2
    rw [List.map_cons, List.sum_cons]
    omega
  | cons_cons x hsub ih =>
    rw [List.forall_mem_cons] at hm
    have ih := ih hm.2
    rw [List.map_cons, List.map_cons, List.sum_cons, List.sum_cons]
    omega

/-- `dropItemGroup` drops leaves below the group, and no more units than the count. -/
theorem dropItemGroup_yields (hacyclic : T.Acyclic) (draws : Nat → Int) (hasPlayer : Bool) (g count : Int) (k : Nat) :
    ∃ fuel drops k', T.dropItemGroup draws fuel hasPlayer g count k = some (drops, k') ∧ (∀ y ∈ drops, Drop T g y) ∧
      unitsOf drops ≤ max 0 count := by
  obtain ⟨fuel, m, k', hrun, hdrops, hunits⟩ := groupLoop_yields hacyclic draws g count.toNat k [] nofun
  have hsub := dropItem_sublist T hasPlayer m
  refine ⟨fuel, _, k', congrArg (Option.map _) hrun, fun y hy => hdrops y (hsub.subset hy), ?_⟩
  have hle := unitsOf_sublist hsub fun y hy => (hdrops y hy).2
  have hnil : unitsOf [] = 0 := rfl
  dsimp only
  omega

/-- What is dropped for an entry is units of leaves, if the entry is a group, and no more of them than the count. -/
theorem procEntry_yields (hacyclic : T.Acyclic) (draws : Nat → Int) (hasPlayer : Bool) (e : MonsterDrop) (k : Nat) :
    ∃ fuel drops k', T.procEntry draws fuel hasPlayer e k = some (drops, k') ∧
      (e.drop_item_id < 0 → ∀ y ∈ drops, Drop T e.drop_item_id y) ∧ unitsOf drops ≤ max 0 e.item_count := by
  have hnil : unitsOf [] ≤ max 0 e.item_count := le_max_left _ _
  by_cases hdrop : e.drop_item_id ≠ 0 ∧ e.checkDrop = true
  · by_cases hmin : e.item_count < e.drop_min_count
    · refine ⟨0, [], k, ?_, fun _ => nofun, hnil⟩
      unfold procEntry
      rw [if_pos hdrop, if_pos hmin]
    · by_cases hitem : 0 ≤ e.drop_item_id
      · refine ⟨0, T.dropItem hasPlayer e.drop_item_id e.item_count, k, ?_, fun hneg => by omega, ?_⟩
        · unfold procEntry
          rw [if_pos hdrop, if_neg hmin, if_pos hitem]
        · unfold dropItem
          split_ifs
          · exact hnil
          · simp [unitsOf]
          · exact hnil
      · obtain ⟨fuel, drops, k', hrun, hdrops, hunits⟩ := dropItemGroup_yields hacyclic draws hasPlayer e.drop_item_id e.item_count k
        refine ⟨fuel, drops, k', ?_, fun _ => hdrops, hunits⟩
        unfold procEntry
        rw [if_pos hdrop, if_neg hmin, if_neg hitem]
        exact hrun
  · refine ⟨0, [], k, ?_, fun _ => nofun, hnil⟩
    unfold procEntry
    rw [if_neg hdrop]

theorem procEntry_mono (hle : fuel ≤ fuel') {y : List (Int × Int) × Nat} (hy : T.procEntry draws fuel hasPlayer e k = some y) :
    T.procEntry draws fuel' hasPlayer e k = some y := by
  unfold procEntry at hy ⊢
  split_ifs at hy ⊢
  · exact hy
  · exact hy
  · unfold dropItemGroup at hy ⊢
    obtain ⟨x, hx, hxy⟩ := Option.map_eq_some_iff.mp hy
    rw [groupLoop_mono hle hx, ← hxy]
    rfl
  · exact hy

theorem procDropItem_mono {es : List MonsterDrop} (hle : fuel ≤ fuel') {out : List (List (Int × Int))}
    (hout : T.procDropItem draws fuel hasPlayer es k = some out) : T.procDropItem draws fuel' hasPlayer es k = some out := by
  induction es generalizing k out with
  | nil => exact hout
  | cons e es ih =>
    unfold procDropItem at hout ⊢
    cases hx : T.procEntry draws fuel hasPlayer e k with
    | none =>
      rw [hx] at hout
      cases hout
    | some x =>
      rw [hx] at hout
      obtain ⟨rest, hrest, hcons⟩ := Option.map_eq_some_iff.mp hout
      rw [procEntry_mono hle hx]
      dsimp only
      rw [ih hrest, ← hcons]
      rfl

/-- What is dropped for an entry: leaves below it, if it is a group, and no more units than its count. -/
def EntryRight (T : DropTables) (e : MonsterDrop) (drops : List (Int × Int)) : Prop :=
  (e.drop_item_id < 0 → ∀ y ∈ drops, Drop T e.drop_item_id y) ∧ unitsOf drops ≤ max 0 e.item_count

theorem procDropItem_yields (hacyclic : T.Acyclic) (draws : Nat → Int) (hasPlayer : Bool) (es : List MonsterDrop) (k : Nat) :
    ∃ fuel out, T.procDropItem draws fuel hasPlayer es k = some out ∧ List.Forall₂ (EntryRight T) es out := by
  induction es generalizing k with
  | nil => exact ⟨0, [], rfl, .nil⟩
  | cons e es ih =>
    obtain ⟨fuel₁, drops, k₁, hentry, hright⟩ := procEntry_yields hacyclic draws hasPlayer e k
    obtain ⟨fuel₂, out, hrun, hrights⟩ := ih k₁
    refine ⟨max fuel₁ fuel₂, drops :: out, ?_, .cons hright hrights⟩
    unfold procDropItem
    rw [procEntry_mono (Nat.le_max_left _ _) hentry]
    dsimp only
    rw [procDropItem_mono (Nat.le_max_right _ _) hrun]
    rfl

variable {var1 var2 : ℚ}

theorem generateLoop_mono (hle : fuel ≤ fuel') {items : List (Int × Int)}
    (hitems : T.generateLoop draws fuel var1 var2 n k = some items) : T.generateLoop draws fuel' var1 var2 n k = some items := by
  induction n generalizing k items with
  | zero => exact hitems
  | succ n ih =>
    unfold generateLoop at hitems ⊢
    cases hx : T.expand draws fuel (truncated var1) (truncated var2) k with
    | none =>
      rw [hx] at hitems
      cases hitems
    | some x =>
      rw [hx] at hitems
      obtain ⟨rest, hrest, hcons⟩ := Option.map_eq_some_iff.mp hitems
      rw [expand_mono hle hx]
      dsimp only
      rw [ih hrest, ← hcons]
      rfl

theorem expand_ends (hacyclic : T.Acyclic) (draws : Nat → Int) (c u : Int) (k : Nat) :
    ∃ fuel x, T.expand draws fuel c u k = some x ∧ (c < 0 → Yield T c x) := by
  by_cases hneg : c < 0
  · obtain ⟨fuel, x, hx, hyield⟩ := expand_yields hacyclic draws c k
    refine ⟨fuel + 1, x, ?_, fun _ => hyield⟩
    unfold expand
    rw [if_pos hneg]
    exact hx
  · exact ⟨1, (c, u, k), if_neg hneg, fun h => absurd h hneg⟩

theorem generateLoop_yields (hacyclic : T.Acyclic) (draws : Nat → Int) (var1 var2 : ℚ) (n k : Nat) :
    ∃ fuel items, T.generateLoop draws fuel var1 var2 n k = some items ∧
      (truncated var1 < 0 → ∀ y ∈ items, Drop T (truncated var1) y) := by
  induction n generalizing k with
  | zero => exact ⟨0, [], rfl, fun _ => nofun⟩
  | succ n ih =>
    obtain ⟨fuel₁, ⟨c, u, k₁⟩, hx, hyield⟩ := expand_ends hacyclic draws (truncated var1) (truncated var2) k
    obtain ⟨fuel₂, items, hrun, hleaves⟩ := ih k₁
    refine ⟨max fuel₁ fuel₂, if c ≠ 0 then (c, u) :: items else items, ?_, fun hneg y hy => ?_⟩
    · unfold generateLoop
      rw [expand_mono (Nat.le_max_left _ _) hx]
      dsimp only
      rw [generateLoop_mono (Nat.le_max_right _ _) hrun]
      rfl
    · obtain ⟨hleaf, hone⟩ := hyield hneg
      split_ifs at hy with hzero
      · rcases List.mem_cons.mp hy with rfl | hy
        · refine ⟨hleaf.resolve_left hzero, ?_⟩
          dsimp only at hone
          omega
        · exact hleaves hneg y hy
      · exact hleaves hneg y hy

end

/-! ## The whole table -/

/-- The expansions of the table end, and they yield leaves only. -/
structure Expands : Prop where
  group : ∀ draws hasPlayer g count k, ∃ fuel drops k', T.dropItemGroup draws fuel hasPlayer g count k = some (drops, k') ∧
    (∀ y ∈ drops, Drop T g y) ∧ unitsOf drops ≤ max 0 count
  entries : ∀ draws hasPlayer es k, ∃ fuel out, T.procDropItem draws fuel hasPlayer es k = some out ∧
    List.Forall₂ (EntryRight T) es out
  generate : ∀ draws var1 var2 k, ∃ fuel items, T.generateItems draws fuel var1 var2 k = some items ∧
    (truncated var1 < 0 → ∀ y ∈ items, Drop T (truncated var1) y)

theorem expands (hacyclic : T.Acyclic) : T.Expands where
  group draws hasPlayer g count k := dropItemGroup_yields hacyclic draws hasPlayer g count k
  entries draws hasPlayer es k := procDropItem_yields hacyclic draws hasPlayer es k
  generate draws var1 var2 k := generateLoop_yields hacyclic draws var1 var2 _ k

/-- An entry of the group is selected for the draws in its own slice. -/
def SlicesRight (dg : DropGroup) : Prop := ∀ (p : Int) i, 0 < p → p ≤ 100000000 →
  (T.entryOf dg p = some i ↔ exactSum dg i < p ∧ p ≤ exactSum dg (i + 1))

section

variable {T} {dg : DropGroup}

theorem exactSum_mono (hdg : Percentages dg) {m n : Nat} (hmn : m ≤ n) : exactSum dg m ≤ exactSum dg n := by
  induction n, hmn using Nat.le_induction with
  | base => exact le_refl _
  | succ n hmn ih =>
    refine ih.trans ?_
    have hsum : exactSum dg (n + 1) = exactSum dg n + if h : n < MAX_DROP_GROUP then dg.drop_percentage ⟨n, h⟩ else 0 := rfl
    rw [hsum]
    split_ifs with hn
    · exact le_add_of_nonneg_right (hdg.nonneg ⟨n, hn⟩)
    · exact (add_zero _).ge

/-- The slices are right if and only if the sums are floats: the first sum that is none moves a border of a slice. -/
theorem slicesRight_iff (hall : T.AllExist dg) (hdg : Percentages dg) :
    T.SlicesRight dg ↔ ∀ n ≤ MAX_DROP_GROUP, IsFloat (exactSum dg n : ℚ) := by
  constructor
  · intro hright n hn
    suffices heq : floatSum dg n = exactSum dg n from heq ▸ isFloat_floatSum dg n
    induction n with
    | zero => rfl
    | succ n ih =>
      have ih := ih (by omega)
      let i : Fin MAX_DROP_GROUP := ⟨n, hn⟩
      have hexact : exactSum dg n ≤ exactSum dg (n + 1) := exactSum_mono hdg (Nat.le_succ n)
      have hfloat : floatSum dg n ≤ floatSum dg (n + 1) := floatSum_mono hdg (Nat.le_succ n)
      have hlow := floatSum_nonneg hdg n
      have hhigh : exactSum dg (n + 1) ≤ 100000000 := (exactSum_mono hdg hn).trans hdg.sum_le
      have hslice : ∀ p, 0 < p → p ≤ 100000000 → (floatSum dg n < p ∧ p ≤ floatSum dg (n + 1) ↔
          exactSum dg n < p ∧ p ≤ exactSum dg (n + 1)) := fun p h0 hp =>
        (entryOf_eq_some_iff hall hdg h0).symm.trans (hright p i h0 hp)
      -- the draw after the smaller of the two borders tells them apart
      rcases Int.lt_trichotomy (floatSum dg (n + 1)) (exactSum dg (n + 1)) with hlt | heq | hgt
      · have hp := (hslice (floatSum dg (n + 1) + 1) (by omega) (by omega)).mpr ⟨by omega, by omega⟩
        omega
      · exact heq
      · have hp := (hslice (exactSum dg (n + 1) + 1) (by omega) ?_).mp ⟨by omega, by omega⟩
        · omega
        · -- the largest sum is itself a float
          by_contra hgreat
          have hlast : exactSum dg (n + 1) = 100000000 := by omega
          have hsum : floatSum dg (n + 1) = rounded (exactSum dg (n + 1)) := congrArg (fun s => rounded (s + _)) ih
          rw [hlast, rounded_of_isFloat ⟨390625, 8, by decide, .inr (by norm_num)⟩] at hsum
          omega
  · intro hfloat p i h0 hp
    rw [entryOf_eq_some_iff hall hdg h0, floatSum_eq_exactSum fun k hk => hfloat k (by have := i.isLt; omega),
      floatSum_eq_exactSum fun k hk => hfloat k (by have := i.isLt; omega)]

end

/-- The expansions end with leaves, and the slices of the groups without unknown items are the exact ones. -/
def ExpandsExactly : Prop :=
  T.Expands ∧ ∀ g dg, T.getDropGroupInfo g = some dg → T.AllExist dg → T.SlicesRight dg

variable {T}

theorem dropExpansion_iff (hacyclic : T.Acyclic) (hpercent : ∀ g dg, T.getDropGroupInfo g = some dg → Percentages dg) :
    T.ExpandsExactly ↔ ∀ g dg, T.getDropGroupInfo g = some dg → T.AllExist dg →
      ∀ n ≤ MAX_DROP_GROUP, IsFloat (exactSum dg n : ℚ) := by
  constructor
  · rintro ⟨-, hslices⟩ g dg hdg hall
    exact (slicesRight_iff hall (hpercent g dg hdg)).mp (hslices g dg hdg hall)
  · intro hfloat
    exact ⟨expands T hacyclic, fun g dg hdg hall => (slicesRight_iff hall (hpercent g dg hdg)).mpr (hfloat g dg hdg hall)⟩

/-- A group of the item 2 with `16777216`, and of the item 3 with 1. -/
def unevenGroup : DropGroup where
  uid := -1
  drop_item_id i := if i.val = 0 then 2 else if i.val = 1 then 3 else 0
  drop_percentage i := if i.val = 0 then 16777216 else if i.val = 1 then 1 else 0
  isFloat i := by
    split_ifs
    · exact ⟨1, 24, by decide, .inr (by norm_num)⟩
    · exact ⟨1, 0, by decide, .inr (by norm_num)⟩
    · exact ⟨0, 0, by decide, .inr (by norm_num)⟩

def unevenTables : DropTables := ⟨[unevenGroup], fun _ => true⟩

theorem unevenTables_acyclic : unevenTables.Acyclic := by
  have hno : ∀ g h, ¬unevenTables.Refers g h := by
    rintro g h ⟨hneg, dg, i, hdg, rfl⟩
    have hmem : dg ∈ [unevenGroup] := List.mem_of_find?_eq_some hdg
    rw [List.mem_singleton.mp hmem] at hneg
    revert hneg
    revert i
    decide
  intro g hcycle
  obtain ⟨h, hstep, -⟩ := Relation.TransGen.head'_iff.mp hcycle
  exact hno g h hstep

theorem unevenTables_percentages : ∀ g dg, unevenTables.getDropGroupInfo g = some dg → Percentages dg := by
  intro g dg hdg
  have hmem : dg ∈ [unevenGroup] := List.mem_of_find?_eq_some hdg
  rw [List.mem_singleton.mp hmem]
  exact ⟨by decide, by decide⟩

theorem dropExpansion_iff_uneven : unevenTables.ExpandsExactly ↔
    ∀ g dg, unevenTables.getDropGroupInfo g = some dg → unevenTables.AllExist dg →
      ∀ n ≤ MAX_DROP_GROUP, IsFloat (exactSum dg n : ℚ) :=
  dropExpansion_iff unevenTables_acyclic unevenTables_percentages

/-- The draw 16777217 is in the slice of the second entry, but nothing is selected for it. -/
theorem dropExpansion_uneven : unevenTables.Acyclic ∧
    (∀ g dg, unevenTables.getDropGroupInfo g = some dg → Percentages dg) ∧ unevenTables.AllExist unevenGroup ∧
    exactSum unevenGroup 1 < 16777217 ∧ 16777217 ≤ exactSum unevenGroup 2 ∧
    unevenTables.entryOf unevenGroup 16777217 = none ∧ ¬unevenTables.ExpandsExactly := by
  have hnone : unevenTables.entryOf unevenGroup 16777217 = none := by decide
  refine ⟨unevenTables_acyclic, unevenTables_percentages, fun _ _ => rfl, by decide, by decide, hnone, fun hright => ?_⟩
  have hslice := hright.2 (-1) unevenGroup rfl (fun _ _ => rfl) 16777217 ⟨1, by decide⟩ (by decide) (by decide)
  rw [hnone] at hslice
  exact absurd (hslice.mpr ⟨by decide, by decide⟩) nofun

end DropTables

end RZEmulator.Chihiro
