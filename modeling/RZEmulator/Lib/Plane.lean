import Mathlib.Analysis.Convex.Topology
import Mathlib.Topology.Connected.Clopen
import Mathlib.Topology.MetricSpace.Bounded
import Mathlib.Tactic.FieldSimp
import Mathlib.Tactic.Linarith

/-!
# Segments and polygons in the plane

Two segments cross if each has the ends of the other strictly on both sides; then they have a common point
(`Crosses.exists_mem_segment`). The interior of a closed polygon is made of the points from which one does
not get away without meeting the boundary, so a segment that leaves the interior meets an edge
(`exists_mem_boundary`).
-/

namespace RZEmulator.Lib

section Crossing

variable {K : Type*} [Field K] {a b c d : K × K}

/-- The sign says on which side of the line through `a` and `b` the third point is. -/
def side (a b c : K × K) : K := (c.2 - a.2) * (b.1 - a.1) - (c.1 - a.1) * (b.2 - a.2)

theorem side_swap (a b c : K × K) : side b a c = -side a b c := by
  unfold side
  ring

variable [LinearOrder K]

/-- Each segment has the ends of the other strictly on both sides. -/
def Crosses (a b c d : K × K) : Prop := side a b c * side a b d < 0 ∧ side c d a * side c d b < 0

theorem crosses_swap_left : Crosses b a c d ↔ Crosses a b c d := by
  unfold Crosses
  rw [side_swap a b c, side_swap a b d, neg_mul_neg, mul_comm (side c d b)]

theorem crosses_swap_right : Crosses a b d c ↔ Crosses a b c d := by
  unfold Crosses
  rw [side_swap c d a, side_swap c d b, neg_mul_neg, mul_comm (side a b d)]

variable [IsStrictOrderedRing K]

/-- The part of the way at which a sign changes. -/
theorem div_sub_mem_Icc {p q : K} (h : p * q < 0) : p - q ≠ 0 ∧ 0 ≤ p / (p - q) ∧ p / (p - q) ≤ 1 := by
  obtain ⟨hp, hq⟩ | ⟨hp, hq⟩ := mul_neg_iff.mp h
  · have hpos : 0 < p - q := by linarith
    refine ⟨hpos.ne', div_nonneg hp.le hpos.le, (div_le_one hpos).mpr (by linarith)⟩
  · have hneg : p - q < 0 := by linarith
    refine ⟨hneg.ne, div_nonneg_of_nonpos hp.le hneg.le, (div_le_one_of_neg hneg).mpr (by linarith)⟩

/-- Segments that cross have a common point. -/
theorem Crosses.exists_mem_segment (h : Crosses a b c d) : ∃ q, q ∈ segment K a b ∧ q ∈ segment K c d := by
  obtain ⟨hs, hs0, hs1⟩ := div_sub_mem_Icc h.1
  obtain ⟨ht, ht0, ht1⟩ := div_sub_mem_Icc h.2
  set s := side a b c / (side a b c - side a b d) with hsdef
  set t := side c d a / (side c d a - side c d b) with htdef
  rw [segment_eq_image', segment_eq_image']
  refine ⟨a + t • (b - a), ⟨t, ⟨ht0, ht1⟩, rfl⟩, s, ⟨hs0, hs1⟩, ?_⟩
  have hopposite : side a b c - side a b d = -(side c d a - side c d b) := by
    unfold side
    ring
  -- The two ways to the common point are solutions of the same linear equations.
  have hx : c.1 + s * (d.1 - c.1) = a.1 + t * (b.1 - a.1) := by
    rw [hsdef, htdef, hopposite]
    field_simp
    unfold side
    ring
  have hy : c.2 + s * (d.2 - c.2) = a.2 + t * (b.2 - a.2) := by
    rw [hsdef, htdef, hopposite]
    field_simp
    unfold side
    ring
  exact Prod.ext hx hy

/-- The bounding boxes of segments with a common point meet. -/
theorem inf_le_sup_of_mem_segment {q : K × K} (hab : q ∈ segment K a b) (hcd : q ∈ segment K c d) : a ⊓ b ≤ c ⊔ d := by
  obtain ⟨hab₁, hab₂⟩ := Prod.segment_subset a b hab
  obtain ⟨hcd₁, hcd₂⟩ := Prod.segment_subset c d hcd
  constructor
  · exact (segment_subset_uIcc a.1 b.1 hab₁).1.trans (segment_subset_uIcc c.1 d.1 hcd₁).2
  · exact (segment_subset_uIcc a.2 b.2 hab₂).1.trans (segment_subset_uIcc c.2 d.2 hcd₂).2

/-! ## Segments with a common point -/

variable {q : K × K} {t : K}

omit [LinearOrder K] [IsStrictOrderedRing K] in
theorem side_add_smul (a b c d : K × K) (t : K) :
    side a b (c + t • (d - c)) = side a b c + t * (side a b d - side a b c) := by
  unfold side
  simp only [Prod.fst_add, Prod.snd_add, Prod.smul_fst, Prod.smul_snd, Prod.fst_sub, Prod.snd_sub, smul_eq_mul]
  ring

theorem side_eq_zero_of_mem_segment (hq : q ∈ segment K a b) : side a b q = 0 := by
  rw [segment_eq_image'] at hq
  obtain ⟨t, -, rfl⟩ := hq
  have ha : side a b a = 0 := by
    unfold side
    ring
  have hb : side a b b = 0 := by
    unfold side
    ring
  rw [side_add_smul, ha, hb]
  ring

/-- A mean of two numbers that is zero is between them. -/
theorem mul_neg_of_add_mul_eq_zero {p r : K} (ht : 0 ≤ t) (ht' : t ≤ 1) (hp : p ≠ 0) (hr : r ≠ 0)
    (h : p + t * (r - p) = 0) : p * r < 0 := by
  have hlt : t ≠ 1 := by
    rintro rfl
    exact hr (by linarith)
  have hpos : 0 < (1 - t) * (p * p) := mul_pos (by linarith [lt_of_le_of_ne ht' hlt]) (mul_self_pos.mpr hp)
  have heq : t * (p * r) = -((1 - t) * (p * p)) := by linear_combination p * h
  by_contra hge
  linarith [mul_nonneg ht (not_lt.mp hge)]

/-- A common point of segments with no end on the line of the other is a crossing. -/
theorem crosses_of_mem_segment (hab : q ∈ segment K a b) (hcd : q ∈ segment K c d) (hc : side a b c ≠ 0)
    (hd : side a b d ≠ 0) (ha : side c d a ≠ 0) (hb : side c d b ≠ 0) : Crosses a b c d := by
  have hopposite : ∀ {a b c d : K × K}, q ∈ segment K a b → q ∈ segment K c d → side a b c ≠ 0 → side a b d ≠ 0 →
      side a b c * side a b d < 0 := by
    intro a b c d hab hcd hc hd
    have hzero := side_eq_zero_of_mem_segment hab
    rw [segment_eq_image'] at hcd
    obtain ⟨t, ⟨ht, ht'⟩, rfl⟩ := hcd
    rw [side_add_smul] at hzero
    exact mul_neg_of_add_mul_eq_zero ht ht' hc hd hzero
  exact ⟨hopposite hab hcd hc hd, hopposite hcd hab ha hb⟩

/-- A segment that ends on a line and leaves it meets the line only there. -/
theorem eq_of_mem_segment (hc : side a b c = 0) (hd : side a b d ≠ 0) (hab : q ∈ segment K a b)
    (hcd : q ∈ segment K c d) : q = c := by
  have hzero := side_eq_zero_of_mem_segment hab
  rw [segment_eq_image'] at hcd
  obtain ⟨t, -, rfl⟩ := hcd
  rw [side_add_smul, hc, zero_add, sub_zero] at hzero
  dsimp only
  rw [(mul_eq_zero.mp hzero).resolve_right hd, zero_smul, add_zero]

/-- A segment from `c` leaves the line through `a` and `b` at `c`; if the line of the segment passes through `a`, that is
where. -/
theorem eq_of_side_eq_zero (hc : side a b c = 0) (hd : side a b d ≠ 0) (ha : side c d a = 0) : c = a := by
  have hx : (c.1 - a.1) * side a b d = 0 := by
    unfold side at hc ha ⊢
    linear_combination (d.1 - a.1) * hc + (b.1 - a.1) * ha
  have hy : (c.2 - a.2) * side a b d = 0 := by
    unfold side at hc ha ⊢
    linear_combination (d.2 - a.2) * hc + (b.2 - a.2) * ha
  exact Prod.ext (sub_eq_zero.mp ((mul_eq_zero.mp hx).resolve_right hd))
    (sub_eq_zero.mp ((mul_eq_zero.mp hy).resolve_right hd))

/-- A point on the line through `a` and `b`, as far along it as its first coordinate says. -/
theorem mem_segment_of_fst (hside : side a b q = 0) (hne : a.1 ≠ b.1) (hq : q.1 ∈ Set.uIcc a.1 b.1) :
    q ∈ segment K a b := by
  rw [← segment_eq_uIcc, segment_eq_image'] at hq
  obtain ⟨t, ht, hx⟩ := hq
  rw [segment_eq_image']
  refine ⟨t, ht, Prod.ext hx ?_⟩
  apply mul_right_cancel₀ (sub_ne_zero.mpr hne.symm)
  unfold side at hside
  simp only [Prod.snd_add, Prod.smul_snd, Prod.snd_sub, smul_eq_mul] at hx ⊢
  linear_combination (b.2 - a.2) * hx - hside

/-- The same of an upright segment. -/
theorem mem_segment_of_snd (heq : a.1 = b.1) (hx : q.1 = a.1) (hq : q.2 ∈ Set.uIcc a.2 b.2) : q ∈ segment K a b := by
  rw [← segment_eq_uIcc, segment_eq_image'] at hq
  obtain ⟨t, ht, hy⟩ := hq
  rw [segment_eq_image']
  refine ⟨t, ht, Prod.ext ?_ hy⟩
  simp only [Prod.fst_add, Prod.smul_fst, Prod.fst_sub, smul_eq_mul]
  rw [← heq, sub_self, mul_zero, add_zero, hx]

omit [Field K] [IsStrictOrderedRing K] in
/-- Of two intervals that meet, one has an end of the other. -/
theorem exists_end_mem_uIcc {a b c d : K} (h : a ⊓ b ≤ c ⊔ d) (h' : c ⊓ d ≤ a ⊔ b) :
    (a ∈ Set.uIcc c d ∨ b ∈ Set.uIcc c d) ∨ c ∈ Set.uIcc a b ∨ d ∈ Set.uIcc a b := by
  simp only [Set.mem_uIcc]
  rcases le_total a b with hab | hab <;> rcases le_total c d with hcd | hcd <;>
    simp only [inf_eq_left.mpr, inf_eq_right.mpr, sup_eq_left.mpr, sup_eq_right.mpr, hab, hcd] at h h' <;>
    grind

/-- Segments on one line whose bounding boxes meet have a common point. -/
theorem exists_mem_segment_of_collinear (hc : side a b c = 0) (hd : side a b d = 0) (ha : side c d a = 0)
    (hb : side c d b = 0) (hbox : a ⊓ b ≤ c ⊔ d) (hbox' : c ⊓ d ≤ a ⊔ b) :
    ∃ q, q ∈ segment K a b ∧ q ∈ segment K c d := by
  have hx := exists_end_mem_uIcc hbox.1 hbox'.1
  have hy := exists_end_mem_uIcc hbox.2 hbox'.2
  by_cases hab : a.1 = b.1 <;> by_cases hcd : c.1 = d.1
  · -- Both are upright, so they are on one column and meet where their heights do.
    have hcol : c.1 = a.1 := by
      simp only [← hab, ← hcd, Set.uIcc_self, Set.mem_singleton_iff, or_self] at hx
      exact hx.elim Eq.symm id
    rcases hy with (hy | hy) | hy | hy
    · exact ⟨a, left_mem_segment K a b, mem_segment_of_snd hcd hcol.symm hy⟩
    · exact ⟨b, right_mem_segment K a b, mem_segment_of_snd hcd (hab.symm.trans hcol.symm) hy⟩
    · exact ⟨c, mem_segment_of_snd hab hcol hy, left_mem_segment K c d⟩
    · exact ⟨d, mem_segment_of_snd hab (hcd.symm.trans hcol) hy, right_mem_segment K c d⟩
  · refine ⟨a, left_mem_segment K a b, mem_segment_of_fst ha hcd ?_⟩
    simp only [← hab, Set.uIcc_self, Set.mem_singleton_iff, or_self] at hx
    rcases hx with hx | hx | hx
    · exact hx
    · exact hx ▸ Set.left_mem_uIcc
    · exact hx ▸ Set.right_mem_uIcc
  · refine ⟨c, mem_segment_of_fst hc hab ?_, left_mem_segment K c d⟩
    simp only [← hcd, Set.uIcc_self, Set.mem_singleton_iff, or_self] at hx
    rcases hx with (hx | hx) | hx
    · exact hx ▸ Set.left_mem_uIcc
    · exact hx ▸ Set.right_mem_uIcc
    · exact hx
  · rcases hx with (hx | hx) | hx | hx
    · exact ⟨a, left_mem_segment K a b, mem_segment_of_fst ha hcd hx⟩
    · exact ⟨b, right_mem_segment K a b, mem_segment_of_fst hb hcd hx⟩
    · exact ⟨c, mem_segment_of_fst hc hab hx, left_mem_segment K c d⟩
    · exact ⟨d, mem_segment_of_fst hd hab hx, right_mem_segment K c d⟩

/-- An inner point of a segment on a line the segment is not parallel to: the ends are off the line. -/
theorem side_ne_zero_of_mem_openSegment (hne : side a b c ≠ side a b d) (hzero : side a b q = 0)
    (hcd : q ∈ openSegment K c d) : side a b c ≠ 0 ∧ side a b d ≠ 0 := by
  rw [openSegment_eq_image'] at hcd
  obtain ⟨t, ⟨ht, ht'⟩, rfl⟩ := hcd
  rw [side_add_smul] at hzero
  constructor
  · intro hc
    rw [hc, zero_add, sub_zero] at hzero
    exact hne (hc.trans ((mul_eq_zero.mp hzero).resolve_left ht.ne').symm)
  · intro hd
    rw [hd] at hzero
    have hc : (1 - t) * side a b c = 0 := by linear_combination hzero
    exact hne (((mul_eq_zero.mp hc).resolve_left (by linarith)).trans hd.symm)

/-- Segments cross if they are not parallel and have a common point inside both. -/
theorem crosses_iff_openSegment : Crosses a b c d ↔
    side a b c ≠ side a b d ∧ ∃ q, q ∈ openSegment K a b ∧ q ∈ openSegment K c d := by
  have hopposite : side a b c - side a b d = -(side c d a - side c d b) := by
    unfold side
    ring
  constructor
  · intro h
    refine ⟨fun heq => ?_, ?_⟩
    · exact absurd (heq ▸ h.1) (mul_self_nonneg _).not_gt
    · obtain ⟨q, hab, hcd⟩ := h.exists_mem_segment
      refine ⟨q, mem_openSegment_of_ne_left_right ?_ ?_ hab, mem_openSegment_of_ne_left_right ?_ ?_ hcd⟩ <;>
        rintro rfl
      · exact absurd h.2 (by rw [side_eq_zero_of_mem_segment hcd, zero_mul]; exact lt_irrefl _)
      · exact absurd h.2 (by rw [side_eq_zero_of_mem_segment hcd, mul_zero]; exact lt_irrefl _)
      · exact absurd h.1 (by rw [side_eq_zero_of_mem_segment hab, zero_mul]; exact lt_irrefl _)
      · exact absurd h.1 (by rw [side_eq_zero_of_mem_segment hab, mul_zero]; exact lt_irrefl _)
  · rintro ⟨hne, q, hab, hcd⟩
    have hne' : side c d a ≠ side c d b := fun heq => hne (by linear_combination hopposite - heq)
    have hab' := openSegment_subset_segment K a b hab
    have hcd' := openSegment_subset_segment K c d hcd
    obtain ⟨hc, hd⟩ := side_ne_zero_of_mem_openSegment hne (side_eq_zero_of_mem_segment hab') hcd
    obtain ⟨ha, hb⟩ := side_ne_zero_of_mem_openSegment hne' (side_eq_zero_of_mem_segment hcd') hab
    exact crosses_of_mem_segment hab' hcd' hc hd ha hb

end Crossing

/-! ## Polygons -/

section Polygon

variable {vs : List (ℝ × ℝ)} {p q : ℝ × ℝ}

/-- The edges of a closed polygon: every vertex with the next one, and the last with the first. -/
def edges {α : Type*} (vs : List α) : List (α × α) := vs.zip (vs.rotate 1)

theorem edges_map {α β : Type*} (f : α → β) (vs : List α) : edges (vs.map f) = (edges vs).map (Prod.map f f) := by
  unfold edges
  rw [← List.map_rotate, List.zip_map]

def boundary (vs : List (ℝ × ℝ)) : Set (ℝ × ℝ) := {q | ∃ e ∈ edges vs, q ∈ segment ℝ e.1 e.2}

/-- The points from which one does not get away without meeting the boundary. -/
def interiorOf (vs : List (ℝ × ℝ)) : Set (ℝ × ℝ) :=
  {q | q ∉ boundary vs ∧ Bornology.IsBounded (connectedComponentIn (boundary vs)ᶜ q)}

/-- The polygon with its boundary. -/
def region (vs : List (ℝ × ℝ)) : Set (ℝ × ℝ) := boundary vs ∪ interiorOf vs

/-- A segment that leaves the interior meets the boundary. -/
theorem exists_mem_boundary {r : ℝ × ℝ} (hp : p ∉ interiorOf vs) (hq : q ∈ interiorOf vs)
    (hseg : q ∈ segment ℝ p r) : ∃ z ∈ segment ℝ p r, z ∈ boundary vs := by
  by_contra hno
  have hsub : segment ℝ p r ⊆ (boundary vs)ᶜ := fun z hz hz' => hno ⟨z, hz, hz'⟩
  have hconn : segment ℝ p r ⊆ connectedComponentIn (boundary vs)ᶜ q :=
    (convex_segment p r).isPreconnected.subset_connectedComponentIn hseg hsub
  have hmem := hconn (left_mem_segment ℝ p r)
  apply hp
  refine ⟨hsub (left_mem_segment ℝ p r), ?_⟩
  rw [← connectedComponentIn_eq hmem]
  exact hq.2

variable {x₀ x₁ y₀ y₁ : ℝ}

/-- The boundary of a rectangle is its frame. -/
theorem mem_boundary_rectangle_iff (hx : x₀ ≤ x₁) (hy : y₀ ≤ y₁) :
    q ∈ boundary [(x₀, y₀), (x₁, y₀), (x₁, y₁), (x₀, y₁)] ↔
      q ∈ Set.Icc x₀ x₁ ×ˢ Set.Icc y₀ y₁ ∧ q ∉ Set.Ioo x₀ x₁ ×ˢ Set.Ioo y₀ y₁ := by
  have hedges : edges [(x₀, y₀), (x₁, y₀), (x₁, y₁), (x₀, y₁)] = [((x₀, y₀), (x₁, y₀)), ((x₁, y₀), (x₁, y₁)),
    ((x₁, y₁), (x₀, y₁)), ((x₀, y₁), (x₀, y₀))] := rfl
  unfold boundary
  rw [Set.mem_ofPred_eq, hedges]
  simp only [List.mem_cons, List.not_mem_nil, or_false, exists_eq_or_imp, exists_eq_left]
  rw [segment_symm ℝ (x₁, y₁), segment_symm ℝ (x₀, y₁) (x₀, y₀), ← Prod.image_mk_segment_left,
    ← Prod.image_mk_segment_left, ← Prod.image_mk_segment_right, ← Prod.image_mk_segment_right, segment_eq_Icc hx,
    segment_eq_Icc hy]
  obtain ⟨u, v⟩ := q
  constructor
  · rintro (⟨x, hmem, heq⟩ | ⟨y, hmem, heq⟩ | ⟨x, hmem, heq⟩ | ⟨y, hmem, heq⟩) <;> obtain ⟨rfl, rfl⟩ := Prod.mk.inj heq
    · exact ⟨⟨hmem, Set.left_mem_Icc.mpr hy⟩, fun h => lt_irrefl _ h.2.1⟩
    · exact ⟨⟨Set.right_mem_Icc.mpr hx, hmem⟩, fun h => lt_irrefl _ h.1.2⟩
    · exact ⟨⟨hmem, Set.right_mem_Icc.mpr hy⟩, fun h => lt_irrefl _ h.2.2⟩
    · exact ⟨⟨Set.left_mem_Icc.mpr hx, hmem⟩, fun h => lt_irrefl _ h.1.1⟩
  · rintro ⟨⟨⟨hx₀, hx₁⟩, hy₀, hy₁⟩, hno⟩
    by_cases hbottom : v = y₀
    · exact .inl ⟨u, ⟨hx₀, hx₁⟩, by rw [hbottom]⟩
    by_cases hright : u = x₁
    · exact .inr (.inl ⟨v, ⟨hy₀, hy₁⟩, by rw [hright]⟩)
    by_cases htop : v = y₁
    · exact .inr (.inr (.inl ⟨u, ⟨hx₀, hx₁⟩, by rw [htop]⟩))
    by_cases hleft : u = x₀
    · exact .inr (.inr (.inr ⟨v, ⟨hy₀, hy₁⟩, by rw [hleft]⟩))
    exact absurd ⟨⟨lt_of_le_of_ne hx₀ (Ne.symm hleft), lt_of_le_of_ne hx₁ hright⟩,
      lt_of_le_of_ne hy₀ (Ne.symm hbottom), lt_of_le_of_ne hy₁ htop⟩ hno

/-- The interior of a rectangle. -/
theorem mem_interiorOf_rectangle (hq : q ∈ Set.Ioo x₀ x₁ ×ˢ Set.Ioo y₀ y₁) :
    q ∈ interiorOf [(x₀, y₀), (x₁, y₀), (x₁, y₁), (x₀, y₁)] := by
  obtain ⟨⟨hx₀, hx₁⟩, hy₀, hy₁⟩ := hq
  have hframe := fun z => mem_boundary_rectangle_iff (q := z) (hx₀.trans hx₁).le (hy₀.trans hy₁).le
  have hout : q ∉ boundary [(x₀, y₀), (x₁, y₀), (x₁, y₁), (x₀, y₁)] := fun h =>
    ((hframe q).mp h).2 ⟨⟨hx₀, hx₁⟩, hy₀, hy₁⟩
  refine ⟨hout, ?_⟩
  -- The complement of the frame is open and falls apart into the open box and what is out of the closed one.
  have hsub : connectedComponentIn (boundary [(x₀, y₀), (x₁, y₀), (x₁, y₁), (x₀, y₁)])ᶜ q ⊆
      Set.Ioo x₀ x₁ ×ˢ Set.Ioo y₀ y₁ := by
    apply IsPreconnected.subset_left_of_subset_union (isOpen_Ioo.prod isOpen_Ioo)
      (isClosed_Icc.prod isClosed_Icc : IsClosed (Set.Icc x₀ x₁ ×ˢ Set.Icc y₀ y₁)).isOpen_compl
    · exact Set.disjoint_compl_right_iff_subset.mpr
        (Set.prod_mono Set.Ioo_subset_Icc_self Set.Ioo_subset_Icc_self)
    · intro z hz
      by_contra hno
      rw [Set.mem_union, not_or, Set.notMem_compl_iff] at hno
      exact connectedComponentIn_subset _ _ hz ((hframe z).mpr ⟨hno.2, hno.1⟩)
    · exact ⟨q, mem_connectedComponentIn hout, ⟨hx₀, hx₁⟩, hy₀, hy₁⟩
    · exact isPreconnected_connectedComponentIn
  exact ((Metric.isBounded_Ioo _ _).prod (Metric.isBounded_Ioo _ _)).subset hsub

end Polygon

end RZEmulator.Lib
