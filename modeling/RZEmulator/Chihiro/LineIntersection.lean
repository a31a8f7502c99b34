import RZEmulator.Chihiro.LineOfSight

/-!
# What the intersection of two lines answers

`Linef::IntersectCCW` against the geometry of two segments: a crossing, no common point, or a touch.

The answer for a crossing is right, and so is the answer where no end of a segment is on the line of the other. Where
one is, the end of the function orders and compares the wrong points: `sound_iff` says which pairs of segments get the
right answer in every order in which their ends and the segments may be given.
-/

namespace RZEmulator.Chihiro

open Lib

namespace Linef

/-! ## The claim -/

/-- A common point. -/
def Meets (l m : Linef) : Prop := ∃ q, q ∈ segment ℚ l.p1.pair l.p2.pair ∧ q ∈ segment ℚ m.p1.pair m.p2.pair

/-- A crossing: the lines are not parallel, and there is a common point inside both. -/
def CrossesInside (l m : Linef) : Prop :=
  (m.p2.y - m.p1.y) * (l.p2.x - l.p1.x) ≠ (m.p2.x - m.p1.x) * (l.p2.y - l.p1.y) ∧
    ∃ q, q ∈ openSegment ℚ l.p1.pair l.p2.pair ∧ q ∈ openSegment ℚ m.p1.pair m.p2.pair

/-- What `IntersectCCW` answers for two lines. -/
def answer (l m : Linef) : IntersectResult := intersectCCW l.p1 l.p2 m.p1 m.p2

/-- The answer is that of geometry. -/
structure Exact (l m : Linef) : Prop where
  intersect : answer l m = .intersect ↔ CrossesInside l m
  seperate : answer l m = .seperate ↔ ¬Meets l m
  touch : answer l m = .touch ↔ Meets l m ∧ ¬CrossesInside l m

/-- The same segment, with its ends in one of the two orders. -/
def Turned (l l' : Linef) : Prop := l' = l ∨ l' = ⟨l.p2, l.p1⟩

/-- The answer is right, and it does not change when ends or segments are exchanged. -/
structure Sound (l m : Linef) : Prop where
  exact : Exact l m
  same : ∀ l' m', Turned l l' → Turned m m' → answer l' m' = answer l m ∧ answer m' l' = answer l m

/-- No end of a segment is on the line of the other. -/
def Clear (l m : Linef) : Prop :=
  (side l.p1 l.p2 m.p1 ≠ 0 ∧ side l.p1 l.p2 m.p2 ≠ 0) ∧ side m.p1 m.p2 l.p1 ≠ 0 ∧ side m.p1 m.p2 l.p2 ≠ 0

/-- Every end of a segment is on the line of the other. -/
def Aligned (l m : Linef) : Prop :=
  (side l.p1 l.p2 m.p1 = 0 ∧ side l.p1 l.p2 m.p2 = 0) ∧ side m.p1 m.p2 l.p1 = 0 ∧ side m.p1 m.p2 l.p2 = 0

/-- The segments leave a common end to the right, in two directions. -/
def SharedLeft (l m : Linef) : Prop :=
  ∃ c a b, Turned l ⟨c, a⟩ ∧ Turned m ⟨c, b⟩ ∧ c.x < a.x ∧ c.x < b.x ∧ side c a b ≠ 0

/-- The segments begin and end in the same columns. -/
def SameColumns (l m : Linef) : Prop :=
  min l.p1.x l.p2.x = min m.p1.x m.p2.x ∧ max l.p1.x l.p2.x = max m.p1.x m.p2.x

/-- The pairs of segments whose answers are right. -/
def Regular (l m : Linef) : Prop :=
  BoxesApart l.p1 l.p2 m.p1 m.p2 ∨ Clear l m ∨ SharedLeft l m ∨ (Aligned l m ∧ SameColumns l m)

/-! ## After the ends are in order -/

/-- The end of `intersectCCW`, for points that have been put in order. -/
def orderedCCW (tp1 tp2 tp3 tp4 : Pointf) : IntersectResult :=
  let ccw123 := checkClockWisef tp1 tp2 tp3
  let ccw124 := checkClockWisef tp1 tp2 tp4
  let ccw341 := checkClockWisef tp3 tp4 tp1
  let ccw342 := checkClockWisef tp3 tp4 tp2
  if ccw123.toInt * ccw124.toInt < 0 ∧ ccw341.toInt * ccw342.toInt < 0 then .intersect
  else if ccw123 ≠ .parallelism ∨ ccw124 ≠ .parallelism then
    if ccw123 ≠ .parallelism ∧ ccw124 ≠ .parallelism ∧ ccw341 ≠ .parallelism ∧ ccw342 ≠ .parallelism then .seperate
    else touchCCW tp1 tp2 tp3 tp4
  else if tp2.x < tp4.x ∨ tp3.x < tp1.x then .seperate
  else .touch

variable {l m l' m' : Linef} {a b c d : Pointf}

theorem intersectCCW_eq (h : ¬BoxesApart a b c d) : intersectCCW a b c d =
    orderedCCW (if b.x ≥ a.x then a else b) (if b.x ≥ a.x then b else a) (if b.x ≥ c.x then c else d)
      (if b.x ≥ c.x then d else c) := if_neg h

theorem checkClockWisef_eq_parallelism_iff : checkClockWisef a b c = .parallelism ↔ side a b c = 0 := by
  unfold checkClockWisef
  dsimp only
  split_ifs with hle hge
  · exact iff_of_true rfl (le_antisymm hle hge)
  · exact iff_of_false (by decide) fun hc => hge hc.ge
  · exact iff_of_false (by decide) fun hc => hle hc.le

theorem orderedCCW_of_clear (hc : side a b c ≠ 0) (hd : side a b d ≠ 0) (ha : side c d a ≠ 0) (hb : side c d b ≠ 0)
    (hnot : ¬Crosses a.pair b.pair c.pair d.pair) : orderedCCW a b c d = .seperate := by
  have hne : ∀ {p q r}, side p q r ≠ 0 → checkClockWisef p q r ≠ .parallelism := fun h hc =>
    h (checkClockWisef_eq_parallelism_iff.mp hc)
  unfold orderedCCW
  dsimp only
  rw [if_neg (crosses_iff.not.mpr hnot), if_pos (.inl (hne hc)), if_pos ⟨hne hc, hne hd, hne ha, hne hb⟩]

/-- One of the four tests says that three points are on a line. -/
def SomeZero (a b c d : Pointf) : Prop := side a b c = 0 ∨ side a b d = 0 ∨ side c d a = 0 ∨ side c d b = 0

theorem SomeZero.not_crosses (h : SomeZero a b c d) : ¬Crosses a.pair b.pair c.pair d.pair := by
  rintro ⟨h12, h34⟩
  change side a b c * side a b d < 0 at h12
  change side c d a * side c d b < 0 at h34
  rcases h with h | h | h | h
  · rw [h, zero_mul] at h12
    exact lt_irrefl _ h12
  · rw [h, mul_zero] at h12
    exact lt_irrefl _ h12
  · rw [h, zero_mul] at h34
    exact lt_irrefl _ h34
  · rw [h, mul_zero] at h34
    exact lt_irrefl _ h34

theorem SomeZero.orderedCCW_eq (h : SomeZero a b c d) : orderedCCW a b c d =
    if side a b c ≠ 0 ∨ side a b d ≠ 0 then touchCCW a b c d
    else if b.x < d.x ∨ c.x < a.x then .seperate else .touch := by
  unfold orderedCCW
  dsimp only
  rw [if_neg (crosses_iff.not.mpr h.not_crosses)]
  simp only [ne_eq, checkClockWisef_eq_parallelism_iff]
  split_ifs with hoff hclear
  · obtain ⟨hc, hd, ha, hb⟩ := hclear
    exact absurd h (by unfold SomeZero; tauto)
  · rfl
  · rfl
  · rfl

/-- The third point is off the line of the first two: only its column is looked at. -/
theorem orderedCCW_of_off (hc : side a b c ≠ 0) (h : SomeZero a b c d) :
    orderedCCW a b c d = if c.x < a.x ∨ b.x < c.x then .seperate else .touch := by
  rw [h.orderedCCW_eq, if_pos (.inl hc)]
  unfold touchCCW
  dsimp only
  rw [if_pos fun hpar => hc (checkClockWisef_eq_parallelism_iff.mp hpar)]
  split_ifs with hout hwide
  · rfl
  · rfl
  all_goals
    exfalso
    apply hc
    obtain ⟨hac, hba⟩ := not_or.mp hwide
    unfold side
    rw [← not_not.mp hac, not_not.mp hba]
    ring

/-- The third point is on the line, and no other end is. -/
theorem orderedCCW_of_on (hc : side a b c = 0) (hd : side a b d ≠ 0) (ha : side c d a ≠ 0) (hb : side c d b ≠ 0) :
    orderedCCW a b c d = .seperate := by
  rw [SomeZero.orderedCCW_eq (.inl hc), if_pos (.inr hd)]
  unfold touchCCW
  simp only [ne_eq, checkClockWisef_eq_parallelism_iff]
  rw [if_neg (not_not.mpr hc), if_pos hd, if_pos ha, if_pos (.inl hb)]

/-- The third point is an end of the first segment: the fourth has to be to the right of it. -/
theorem orderedCCW_of_end (hd : side a b d ≠ 0) (hend : c = a ∨ c = b) :
    orderedCCW a b c d = if c.x < d.x then .touch else .seperate := by
  have hzero : ∀ p q : Pointf, side p q p = 0 ∧ side p q q = 0 := by
    intro p q
    unfold side
    constructor <;> ring
  -- In one column the two ends differ in height, and the code asks for a height that is above and below them.
  have hheight : ∀ r : Pointf, (c.x = d.x → c.y ≠ d.y) → c.x = d.x → r = c →
      (if r.y < (if c.y ≥ d.y then c else d).y then IntersectResult.seperate
        else if r.y ≤ (if c.y ≥ d.y then d else c).y then .touch else .seperate) = .seperate := by
    rintro r hne hx rfl
    have hne := hne hx
    split_ifs with hge hlt hle hlt' hle'
    all_goals first | rfl | exfalso
    · exact hne (le_antisymm hle hge)
    · exact hge (not_lt.mp hlt')
  have hne : c.x = d.x → c.y ≠ d.y := by
    intro hx hy
    apply hd
    have heq : c = d := by
      cases c
      cases d
      simp_all
    rcases hend with rfl | rfl
    · rw [← heq]
      exact (hzero _ _).1
    · rw [← heq]
      exact (hzero _ _).2
  rcases hend with rfl | rfl
  · rw [SomeZero.orderedCCW_eq (.inl (hzero c b).1), if_pos (.inr hd)]
    unfold touchCCW
    simp only [ne_eq, checkClockWisef_eq_parallelism_iff]
    rw [if_neg (not_not.mpr (hzero c b).1), if_pos hd, if_neg (not_not.mpr (hzero c d).1)]
    rcases lt_trichotomy c.x d.x with hlt | heq | hgt
    · rw [if_neg (not_or.mpr ⟨lt_irrefl _, hlt.not_gt⟩), if_pos (.inr hlt.ne'), if_pos hlt]
    · rw [if_neg (not_or.mpr ⟨lt_irrefl _, heq.not_gt⟩), if_neg (by simp [heq]), if_neg heq.not_lt]
      exact hheight c hne heq rfl
    · rw [if_pos (.inr hgt), if_neg hgt.not_gt]
  · have hturn : side c d a ≠ 0 := by
      intro hc
      apply hd
      unfold side at hc ⊢
      linear_combination hc
    rw [SomeZero.orderedCCW_eq (.inl (hzero a c).2), if_pos (.inr hd)]
    unfold touchCCW
    simp only [ne_eq, checkClockWisef_eq_parallelism_iff]
    rw [if_neg (not_not.mpr (hzero a c).2), if_pos hd, if_pos hturn]
    rcases lt_trichotomy c.x d.x with hlt | heq | hgt
    · rw [if_neg (by simp [(hzero c d).1, hlt.not_gt]), if_pos (.inr hlt.ne'), if_pos hlt]
    · rw [if_neg (by simp [(hzero c d).1, heq]), if_neg (by simp [heq]), if_neg heq.not_lt]
      exact hheight c hne heq rfl
    · rw [if_pos (.inr (.inr hgt)), if_neg hgt.not_gt]

theorem orderedCCW_of_aligned (hc : side a b c = 0) (hd : side a b d = 0) :
    orderedCCW a b c d = if b.x < d.x ∨ c.x < a.x then .seperate else .touch := by
  rw [SomeZero.orderedCCW_eq (.inl hc), if_neg (by simp [hc, hd])]

/-! ## Orders of the arguments -/

theorem crossesInside_iff : CrossesInside l m ↔ Crosses l.p1.pair l.p2.pair m.p1.pair m.p2.pair := by
  rw [crosses_iff_openSegment]
  refine and_congr_left fun _ => not_congr ?_
  change _ ↔ side l.p1 l.p2 m.p1 = side l.p1 l.p2 m.p2
  unfold side
  constructor
  · exact fun h => by linear_combination -h
  · exact fun h => by linear_combination -h

theorem answer_eq_intersect_iff : answer l m = .intersect ↔ CrossesInside l m :=
  intersectCCW_eq_intersect_iff.trans crossesInside_iff.symm

theorem CrossesInside.meets (h : CrossesInside l m) : Meets l m := (crossesInside_iff.mp h).exists_mem_segment

theorem meets_comm : Meets m l ↔ Meets l m := exists_congr fun _ => and_comm

theorem crossesInside_comm : CrossesInside m l ↔ CrossesInside l m := by
  rw [crossesInside_iff, crossesInside_iff]
  exact and_comm

theorem Turned.symm (h : Turned l l') : Turned l' l := by
  rcases h with rfl | rfl
  · exact .inl rfl
  · exact .inr rfl

theorem Turned.trans {l'' : Linef} (h : Turned l l') (h' : Turned l' l'') : Turned l l'' := by
  rcases h with rfl | rfl <;> rcases h' with rfl | rfl
  · exact .inl rfl
  · exact .inr rfl
  · exact .inr rfl
  · exact .inl rfl

/-- The points of a segment do not depend on the order of its ends. -/
theorem Turned.segment_eq (h : Turned l l') : segment ℚ l'.p1.pair l'.p2.pair = segment ℚ l.p1.pair l.p2.pair := by
  rcases h with rfl | rfl
  · rfl
  · exact segment_symm ℚ _ _

theorem meets_turned (hl : Turned l l') (hm : Turned m m') : Meets l' m' ↔ Meets l m := by
  unfold Meets
  rw [hl.segment_eq, hm.segment_eq]

theorem crossesInside_turned (hl : Turned l l') (hm : Turned m m') : CrossesInside l' m' ↔ CrossesInside l m := by
  simp only [crossesInside_iff]
  rcases hl with rfl | rfl <;> rcases hm with rfl | rfl
  · rfl
  · exact crosses_swap_right
  · exact crosses_swap_left
  · exact crosses_swap_left.trans crosses_swap_right

theorem boxesApart_swap_left : BoxesApart b a c d ↔ BoxesApart a b c d := by
  unfold BoxesApart
  rw [max_comm b.x, max_comm b.y, min_comm b.x, min_comm b.y]

theorem boxesApart_swap_right : BoxesApart a b d c ↔ BoxesApart a b c d := by
  unfold BoxesApart
  rw [max_comm d.x, max_comm d.y, min_comm d.x, min_comm d.y]

theorem boxesApart_turned (hl : Turned l l') (hm : Turned m m') :
    BoxesApart l'.p1 l'.p2 m'.p1 m'.p2 ↔ BoxesApart l.p1 l.p2 m.p1 m.p2 := by
  rcases hl with rfl | rfl <;> rcases hm with rfl | rfl
  · rfl
  · exact boxesApart_swap_right
  · exact boxesApart_swap_left
  · exact boxesApart_swap_left.trans boxesApart_swap_right

theorem boxesApart_comm : BoxesApart c d a b ↔ BoxesApart a b c d := by
  unfold BoxesApart
  tauto

/-- Segments whose boxes are apart have no common point. -/
theorem not_meets_of_boxesApart (h : BoxesApart l.p1 l.p2 m.p1 m.p2) : ¬Meets l m := by
  rintro ⟨q, hl, hm⟩
  obtain ⟨hx, hy⟩ := inf_le_sup_of_mem_segment hl hm
  obtain ⟨hx', hy'⟩ := inf_le_sup_of_mem_segment hm hl
  rcases h with h | h | h | h
  · exact absurd hy (not_le.mpr h)
  · exact absurd hy' (not_le.mpr h)
  · exact absurd hx (not_le.mpr h)
  · exact absurd hx' (not_le.mpr h)

theorem Sound.turned (h : Sound l m) (hl : Turned l l') (hm : Turned m m') : Sound l' m' := by
  have hsame := (h.same l' m' hl hm).1
  refine ⟨⟨answer_eq_intersect_iff, ?_, ?_⟩, fun l'' m'' hl' hm' => ?_⟩
  · rw [hsame, meets_turned hl hm, h.exact.seperate]
  · rw [hsame, meets_turned hl hm, crossesInside_turned hl hm, h.exact.touch]
  · rw [hsame]
    exact h.same l'' m'' (hl.trans hl') (hm.trans hm')

theorem Sound.symm (h : Sound l m) : Sound m l := by
  have hsame := (h.same l m (.inl rfl) (.inl rfl)).2
  refine ⟨⟨answer_eq_intersect_iff, ?_, ?_⟩, fun m' l' hm' hl' => ?_⟩
  · rw [hsame, meets_comm, h.exact.seperate]
  · rw [hsame, meets_comm, crossesInside_comm, h.exact.touch]
  · rw [hsame]
    exact (h.same l' m' hl' hm').symm

/-- With the right end of the first segment last, and an end of the second that is not to the right of it first, no
end changes its place. -/
theorem Sound.orderedCCW_eq (h : Sound l m) (hapart : ¬BoxesApart l.p1 l.p2 m.p1 m.p2) (hl : Turned l ⟨a, b⟩)
    (hm : Turned m ⟨c, d⟩) (hab : a.x ≤ b.x) (hcb : c.x ≤ b.x) : orderedCCW a b c d = answer l m := by
  rw [← (h.same _ _ hl hm).1]
  unfold answer
  rw [intersectCCW_eq ((boxesApart_turned hl hm).not.mpr hapart)]
  dsimp only
  rw [if_pos hab, if_pos hab, if_pos hcb, if_pos hcb]

theorem exists_turned (l : Linef) : ∃ a b, Turned l ⟨a, b⟩ ∧ a.x ≤ b.x := by
  rcases le_total l.p1.x l.p2.x with h | h
  · exact ⟨l.p1, l.p2, .inl rfl, h⟩
  · exact ⟨l.p2, l.p1, .inr rfl, h⟩

/-! ## Where the answers are right -/

theorem meets_left (l m : Linef) (hl : Turned l ⟨c, a⟩) (hm : Turned m ⟨c, b⟩) : Meets l m :=
  (meets_turned hl hm).mp ⟨c.pair, left_mem_segment ℚ _ _, left_mem_segment ℚ _ _⟩

theorem side_self_left (p q : Pointf) : side p q p = 0 := by
  unfold side
  ring

/-- A common end that is not the end of a straight way through has the other ends to its right. -/
theorem Sound.lt_of_end (h : Sound l m) (hl : Turned l ⟨c, a⟩) (hm : Turned m ⟨c, b⟩) (hside : side c a b ≠ 0) :
    c.x < b.x := by
  have hmeets := meets_left l m hl hm
  have hapart : ¬BoxesApart l.p1 l.p2 m.p1 m.p2 := fun hc => not_meets_of_boxesApart hc hmeets
  have hnot : ¬CrossesInside l m := by
    rw [← crossesInside_turned hl hm, crossesInside_iff]
    exact SomeZero.not_crosses (.inl (side_self_left c a))
  have htouch := h.exact.touch.mpr ⟨hmeets, hnot⟩
  have hends : ∀ {p q}, side p q b ≠ 0 → c = p ∨ c = q → orderedCCW p q c b = .touch → c.x < b.x := by
    intro p q hb hend hc
    rw [orderedCCW_of_end hb hend] at hc
    split_ifs at hc with hlt
    exact hlt
  rcases le_total c.x a.x with hca | hac
  · exact hends hside (.inl rfl) ((h.orderedCCW_eq hapart hl hm hca hca).trans htouch)
  · refine hends (p := a) (q := c) ?_ (.inr rfl) ?_
    · intro hc
      apply hside
      unfold side at hc ⊢
      linear_combination -hc
    · exact (h.orderedCCW_eq hapart (hl.trans (.inr rfl)) hm hac le_rfl).trans htouch

theorem side_turned (hl : Turned l ⟨a, b⟩) (q : Pointf) : side a b q = 0 ↔ side l.p1 l.p2 q = 0 := by
  rcases hl with heq | heq <;> obtain ⟨rfl, rfl⟩ := Linef.mk.inj heq
  · rfl
  · rw [show side l.p2 l.p1 q = -side l.p1 l.p2 q from Lib.side_swap l.p1.pair l.p2.pair q.pair, neg_eq_zero]

/-- An end of a segment is on the line of the other, the other end is not: then the segments meet. -/
theorem Sound.meets_of_on (h : Sound l m) (hapart : ¬BoxesApart l.p1 l.p2 m.p1 m.p2) (hm : Turned m ⟨c, d⟩)
    (hc : side l.p1 l.p2 c = 0) (hd : side l.p1 l.p2 d ≠ 0) : Meets l m := by
  by_contra hnot
  have hsep := h.exact.seperate.mpr hnot
  have hsep' := h.symm.exact.seperate.mpr (meets_comm.not.mpr hnot)
  obtain ⟨a, b, hl, hab⟩ := exists_turned l
  obtain ⟨u, v, hm', huv⟩ := exists_turned m
  have hends : (c = u ∨ c = v) ∧ u.x ≤ d.x ∧ d.x ≤ v.x := by
    rcases hm.symm.trans hm' with heq | heq <;> obtain ⟨rfl, rfl⟩ := Linef.mk.inj heq
    · exact ⟨.inl rfl, huv, le_rfl⟩
    · exact ⟨.inr rfl, le_rfl, huv⟩
  -- No end of the first segment is in the columns of the second.
  have hout : ∀ {p p'}, Turned l ⟨p, p'⟩ → p.x < u.x ∨ v.x < p.x := by
    intro p p' hp
    by_contra hin
    obtain ⟨hup, hpv⟩ := not_or.mp hin
    have hcp : side p p' c = 0 := (side_turned hp c).mpr hc
    have hoff : side u v p ≠ 0 := by
      intro hzero
      have hzero : side c d p = 0 := (side_turned (hm.symm.trans hm') p).mp hzero
      have heq : c.pair = p.pair :=
        eq_of_side_eq_zero (b := p'.pair) (d := d.pair) hcp ((side_turned hp d).not.mpr hd) hzero
      apply hnot
      rw [← meets_turned hp hm]
      exact ⟨p.pair, left_mem_segment ℚ _ _, heq ▸ left_mem_segment ℚ _ _⟩
    have hzero : SomeZero u v p p' := by
      rcases hends.1 with rfl | rfl
      · exact .inr (.inr (.inl hcp))
      · exact .inr (.inr (.inr hcp))
    have hans := h.symm.orderedCCW_eq (boxesApart_comm.not.mpr hapart) hm' hp huv (not_lt.mp hpv)
    rw [orderedCCW_of_off hoff hzero, if_neg hin, hsep'] at hans
    exact absurd hans (by decide)
  have hcolumn : d.x < a.x ∨ b.x < d.x := by
    by_contra hin
    have hans := h.orderedCCW_eq hapart hl (hm.trans (.inr rfl)) hab (not_lt.mp (not_or.mp hin).2)
    rw [orderedCCW_of_off ((side_turned hl d).not.mpr hd) (.inr (.inl ((side_turned hl c).mpr hc))), if_neg hin,
      hsep] at hans
    exact absurd hans (by decide)
  have hboxes := (boxesApart_turned hl hm').not.mpr hapart
  unfold BoxesApart at hboxes
  simp only [not_or, not_lt, max_eq_right hab, min_eq_left hab, max_eq_right huv, min_eq_left huv] at hboxes
  obtain ⟨-, -, hav, hub⟩ := hboxes
  have ha := (hout hl).resolve_right (not_lt.mpr hav)
  have hb := (hout (hl.trans (.inr rfl))).resolve_left (not_lt.mpr hub)
  rcases hcolumn with hlt | hlt <;> linarith [hends.2.1, hends.2.2]

/-- Then they share that end, and leave it to the right. -/
theorem Sound.sharedLeft_of_on (h : Sound l m) (hapart : ¬BoxesApart l.p1 l.p2 m.p1 m.p2) (hm : Turned m ⟨c, d⟩)
    (hc : side l.p1 l.p2 c = 0) (hd : side l.p1 l.p2 d ≠ 0) : SharedLeft l m := by
  have hmeets := h.meets_of_on hapart hm hc hd
  obtain ⟨a, b, hl, hab⟩ := exists_turned l
  have hc' : side a b c = 0 := (side_turned hl c).mpr hc
  have hd' : side a b d ≠ 0 := (side_turned hl d).not.mpr hd
  have hnot : ¬CrossesInside l m := by
    rw [← crossesInside_turned hl hm, crossesInside_iff]
    exact SomeZero.not_crosses (.inl hc')
  -- The common point is the end on the line.
  obtain ⟨q, hq, hq'⟩ := (meets_turned hl hm).mpr hmeets
  obtain rfl := eq_of_mem_segment (a := a.pair) (b := b.pair) (c := c.pair) (d := d.pair) hc' hd' hq hq'
  have hcb : c.x ≤ b.x := by
    obtain ⟨hx, -⟩ := Prod.segment_subset _ _ hq
    exact (segment_subset_uIcc _ _ hx).2.trans (sup_le hab le_rfl)
  have htouch := (h.orderedCCW_eq hapart hl hm hab hcb).trans (h.exact.touch.mpr ⟨hmeets, hnot⟩)
  have hshared : ∀ {p p'}, Turned l ⟨p, p'⟩ → side c d p = 0 → SharedLeft l m := by
    intro p p' hp hzero
    have hoff : side p p' d ≠ 0 := (side_turned hp d).not.mpr hd
    have heq : c.pair = p.pair :=
      eq_of_side_eq_zero (b := p'.pair) (d := d.pair) ((side_turned hp c).mpr hc) hoff hzero
    obtain rfl : c = p := by
      cases c
      cases p
      obtain ⟨hx, hy⟩ := Prod.mk.inj heq
      exact Pointf.mk.injEq .. |>.mpr ⟨hx, hy⟩
    have hoff' : side c d p' ≠ 0 := by
      intro hc
      apply hoff
      unfold side at hc ⊢
      linear_combination -hc
    exact ⟨c, p', d, hp, hm, h.symm.lt_of_end hm hp hoff', h.lt_of_end hp hm hoff, hoff⟩
  by_cases ha : side c d a = 0
  · exact hshared hl ha
  · by_cases hb : side c d b = 0
    · exact hshared (hl.trans (.inr rfl)) hb
    · rw [orderedCCW_of_on hc' hd' ha hb] at htouch
      exact absurd htouch (by decide)

theorem SharedLeft.symm (h : SharedLeft l m) : SharedLeft m l := by
  obtain ⟨c, a, b, hl, hm, ha, hb, hside⟩ := h
  refine ⟨c, b, a, hm, hl, hb, ha, fun hc => hside ?_⟩
  unfold side at hc ⊢
  linear_combination -hc

/-- A segment that is a point off the line of the other gets the wrong answer. -/
theorem Sound.not_point (h : Sound l m) (hapart : ¬BoxesApart l.p1 l.p2 m.p1 m.p2) (hpoint : l.p1 = l.p2)
    (hoff : side m.p1 m.p2 l.p1 ≠ 0) : False := by
  obtain ⟨c, d, hm, hcd⟩ := exists_turned m
  have hnot : ¬Meets l m := by
    rintro ⟨q, hl, hm⟩
    rw [← hpoint, segment_same, Set.mem_singleton_iff] at hl
    subst hl
    exact hoff (side_eq_zero_of_mem_segment (a := m.p1.pair) (b := m.p2.pair) (q := l.p1.pair) hm)
  have hboxes := (boxesApart_turned (.inl rfl : Turned l l) hm).not.mpr hapart
  unfold BoxesApart at hboxes
  simp only [not_or, not_lt, ← hpoint, max_self, min_self, max_eq_right hcd, min_eq_left hcd] at hboxes
  obtain ⟨-, -, hpd, hcp⟩ := hboxes
  have hzero : side l.p1 l.p2 c = 0 := by
    rw [← hpoint]
    unfold side
    ring
  have hans := h.symm.orderedCCW_eq (boxesApart_comm.not.mpr hapart) hm (.inl rfl) hcd hpd
  rw [orderedCCW_of_off ((side_turned hm _).not.mpr hoff) (.inr (.inr (.inl hzero))),
    if_neg (not_or.mpr ⟨not_lt.mpr hcp, not_lt.mpr hpd⟩), h.symm.exact.seperate.mpr (meets_comm.not.mpr hnot)] at hans
  exact absurd hans (by decide)

theorem columns_eq (hl : Turned l ⟨a, b⟩) (hab : a.x ≤ b.x) : min l.p1.x l.p2.x = a.x ∧ max l.p1.x l.p2.x = b.x := by
  rcases hl with heq | heq <;> obtain ⟨rfl, rfl⟩ := Linef.mk.inj heq
  · exact ⟨min_eq_left hab, max_eq_right hab⟩
  · exact ⟨min_eq_right hab, max_eq_left hab⟩

theorem Aligned.meets (h : Aligned l m) (hapart : ¬BoxesApart l.p1 l.p2 m.p1 m.p2) : Meets l m := by
  unfold BoxesApart at hapart
  simp only [not_or, not_lt] at hapart
  obtain ⟨hy, hy', hx, hx'⟩ := hapart
  exact exists_mem_segment_of_collinear (a := l.p1.pair) (b := l.p2.pair) (c := m.p1.pair) (d := m.p2.pair)
    h.1.1 h.1.2 h.2.1 h.2.2 ⟨hx, hy⟩ ⟨hx', hy'⟩

theorem Aligned.not_crossesInside (h : Aligned l m) : ¬CrossesInside l m := by
  rw [crossesInside_iff]
  exact SomeZero.not_crosses (.inl h.1.1)

/-- Segments on one line are in the same columns. -/
theorem Sound.columns_le (h : Sound l m) (hapart : ¬BoxesApart l.p1 l.p2 m.p1 m.p2) (halign : Aligned l m)
    (hl : Turned l ⟨a, b⟩) (hab : a.x ≤ b.x) (hm : Turned m ⟨c, d⟩) (hcd : c.x ≤ d.x) : a.x ≤ c.x ∧ d.x ≤ b.x := by
  have hboxes := (boxesApart_turned hl hm).not.mpr hapart
  unfold BoxesApart at hboxes
  simp only [not_or, not_lt, max_eq_right hab, min_eq_left hab, max_eq_right hcd, min_eq_left hcd] at hboxes
  obtain ⟨-, -, -, hcb⟩ := hboxes
  have hside : ∀ q, side l.p1 l.p2 q = 0 → side a b q = 0 := fun q => (side_turned hl q).mpr
  have hends : side a b c = 0 ∧ side a b d = 0 := by
    rcases hm with heq | heq <;> obtain ⟨rfl, rfl⟩ := Linef.mk.inj heq
    · exact ⟨hside _ halign.1.1, hside _ halign.1.2⟩
    · exact ⟨hside _ halign.1.2, hside _ halign.1.1⟩
  have hans := h.orderedCCW_eq hapart hl hm hab hcb
  rw [h.exact.touch.mpr ⟨halign.meets hapart, halign.not_crossesInside⟩, orderedCCW_of_aligned hends.1 hends.2] at hans
  split_ifs at hans with hcolumn
  obtain ⟨hdb, hac⟩ := not_or.mp hcolumn
  exact ⟨not_lt.mp hac, not_lt.mp hdb⟩

theorem Aligned.symm (h : Aligned l m) : Aligned m l := ⟨h.2, h.1⟩

theorem Sound.sameColumns (h : Sound l m) (hapart : ¬BoxesApart l.p1 l.p2 m.p1 m.p2) (halign : Aligned l m) :
    SameColumns l m := by
  obtain ⟨a, b, hl, hab⟩ := exists_turned l
  obtain ⟨c, d, hm, hcd⟩ := exists_turned m
  obtain ⟨hac, hdb⟩ := h.columns_le hapart halign hl hab hm hcd
  obtain ⟨hca, hbd⟩ := h.symm.columns_le (boxesApart_comm.not.mpr hapart) halign.symm hm hcd hl hab
  unfold SameColumns
  rw [(columns_eq hl hab).1, (columns_eq hl hab).2, (columns_eq hm hcd).1, (columns_eq hm hcd).2]
  exact ⟨le_antisymm hac hca, le_antisymm hbd hdb⟩

/-- Both ends are on the line of a segment, whose own ends are off theirs: it is a point. -/
theorem eq_of_both_on (hc : side a b c = 0) (hd : side a b d = 0) (ha : side c d a ≠ 0) : a = b := by
  have heq : b.pair = a.pair := by
    apply eq_of_side_eq_zero (b := c.pair) (d := d.pair)
    · change side a c b = 0
      unfold side at hc ⊢
      linear_combination -hc
    · change side a c d ≠ 0
      intro hzero
      apply ha
      unfold side at hzero ⊢
      linear_combination hzero
    · change side b d a = 0
      unfold side at hd ⊢
      linear_combination hd
  cases a
  cases b
  obtain ⟨hx, hy⟩ := Prod.mk.inj heq
  exact Pointf.mk.injEq .. |>.mpr ⟨hx.symm, hy.symm⟩

theorem Sound.regular (h : Sound l m) : Regular l m := by
  by_cases hapart : BoxesApart l.p1 l.p2 m.p1 m.p2
  · exact .inl hapart
  have hapart' := boxesApart_comm.not.mpr hapart
  have hself : ∀ l : Linef, Turned l ⟨l.p1, l.p2⟩ := fun _ => .inl rfl
  have hother : ∀ l : Linef, Turned l ⟨l.p2, l.p1⟩ := fun _ => .inr rfl
  by_cases h1 : side l.p1 l.p2 m.p1 = 0 <;> by_cases h2 : side l.p1 l.p2 m.p2 = 0
  · by_cases h3 : side m.p1 m.p2 l.p1 = 0 <;> by_cases h4 : side m.p1 m.p2 l.p2 = 0
    · exact .inr (.inr (.inr ⟨⟨⟨h1, h2⟩, h3, h4⟩, h.sameColumns hapart ⟨⟨h1, h2⟩, h3, h4⟩⟩))
    · exact .inr (.inr (.inl (h.symm.sharedLeft_of_on hapart' (hself l) h3 h4).symm))
    · exact .inr (.inr (.inl (h.symm.sharedLeft_of_on hapart' (hother l) h4 h3).symm))
    · exact (h.not_point hapart (eq_of_both_on h1 h2 h3) h3).elim
  · exact .inr (.inr (.inl (h.sharedLeft_of_on hapart (hself m) h1 h2)))
  · exact .inr (.inr (.inl (h.sharedLeft_of_on hapart (hother m) h2 h1)))
  · by_cases h3 : side m.p1 m.p2 l.p1 = 0 <;> by_cases h4 : side m.p1 m.p2 l.p2 = 0
    · exact (h.symm.not_point hapart' (eq_of_both_on h3 h4 h1) h1).elim
    · exact .inr (.inr (.inl (h.symm.sharedLeft_of_on hapart' (hself l) h3 h4).symm))
    · exact .inr (.inr (.inl (h.symm.sharedLeft_of_on hapart' (hother l) h4 h3).symm))
    · exact .inr (.inl ⟨⟨h1, h2⟩, h3, h4⟩)

/-! ## The answers there -/

/-- The ends as the code puts them in order. The ends of the second segment are compared with the first segment. -/
theorem exists_answer_eq (h : ¬BoxesApart l.p1 l.p2 m.p1 m.p2) : ∃ a b c d, Turned l ⟨a, b⟩ ∧ a.x ≤ b.x ∧
    Turned m ⟨c, d⟩ ∧ (c.x ≤ l.p2.x ∨ l.p2.x < d.x) ∧ answer l m = orderedCCW a b c d := by
  have hl : ∃ a b, Turned l ⟨a, b⟩ ∧ a.x ≤ b.x ∧ (if l.p2.x ≥ l.p1.x then l.p1 else l.p2) = a ∧
      (if l.p2.x ≥ l.p1.x then l.p2 else l.p1) = b := by
    split_ifs with hle
    · exact ⟨_, _, .inl rfl, hle, rfl, rfl⟩
    · exact ⟨_, _, .inr rfl, (not_le.mp hle).le, rfl, rfl⟩
  have hm : ∃ c d, Turned m ⟨c, d⟩ ∧ (c.x ≤ l.p2.x ∨ l.p2.x < d.x) ∧ (if l.p2.x ≥ m.p1.x then m.p1 else m.p2) = c ∧
      (if l.p2.x ≥ m.p1.x then m.p2 else m.p1) = d := by
    split_ifs with hle
    · exact ⟨_, _, .inl rfl, .inl hle, rfl, rfl⟩
    · exact ⟨_, _, .inr rfl, .inr (not_le.mp hle), rfl, rfl⟩
  obtain ⟨a, b, hl, hab, rfl, rfl⟩ := hl
  obtain ⟨c, d, hm, hcd, rfl, rfl⟩ := hm
  exact ⟨_, _, _, _, hl, hab, hm, hcd, intersectCCW_eq h⟩

theorem Exact.of_seperate (hnot : ¬Meets l m) (h : answer l m = .seperate) : Exact l m where
  intersect := answer_eq_intersect_iff
  seperate := iff_of_true h hnot
  touch := iff_of_false (by rw [h]; decide) fun hc => hnot hc.1

theorem Exact.of_touch (hmeets : Meets l m) (hnot : ¬CrossesInside l m) (h : answer l m = .touch) : Exact l m where
  intersect := answer_eq_intersect_iff
  seperate := iff_of_false (by rw [h]; decide) (not_not.mpr hmeets)
  touch := iff_of_true h ⟨hmeets, hnot⟩

theorem Exact.of_intersect (hcross : CrossesInside l m) : Exact l m := by
  have h := answer_eq_intersect_iff.mpr hcross
  refine ⟨answer_eq_intersect_iff, iff_of_false ?_ (not_not.mpr hcross.meets), iff_of_false ?_ fun hc => hc.2 hcross⟩
  · rw [h]
    decide
  · rw [h]
    decide

theorem exact_of_boxesApart (h : BoxesApart l.p1 l.p2 m.p1 m.p2) : Exact l m :=
  .of_seperate (not_meets_of_boxesApart h) (if_pos h)

theorem Clear.turned (h : Clear l m) (hl : Turned l l') (hm : Turned m m') : Clear l' m' := by
  have hl' : ∀ q, side l'.p1 l'.p2 q ≠ 0 ↔ side l.p1 l.p2 q ≠ 0 := fun q => (side_turned hl q).not
  have hm' : ∀ q, side m'.p1 m'.p2 q ≠ 0 ↔ side m.p1 m.p2 q ≠ 0 := fun q => (side_turned hm q).not
  unfold Clear
  rw [hl', hl', hm', hm']
  rcases hl with rfl | rfl <;> rcases hm with rfl | rfl
  · exact h
  · exact ⟨h.1.symm, h.2⟩
  · exact ⟨h.1, h.2.symm⟩
  · exact ⟨h.1.symm, h.2.symm⟩

/-- Segments that meet with no end on the line of the other cross. -/
theorem Clear.crossesInside (h : Clear l m) (hmeets : Meets l m) : CrossesInside l m := by
  obtain ⟨q, hl, hm⟩ := hmeets
  rw [crossesInside_iff]
  exact crosses_of_mem_segment hl hm h.1.1 h.1.2 h.2.1 h.2.2

theorem Clear.exact (h : Clear l m) (hapart : ¬BoxesApart l.p1 l.p2 m.p1 m.p2) : Exact l m := by
  by_cases hcross : CrossesInside l m
  · exact .of_intersect hcross
  obtain ⟨a, b, c, d, hl, -, hm, -, heq⟩ := exists_answer_eq hapart
  obtain ⟨⟨hc, hd⟩, ha, hb⟩ := h.turned hl hm
  apply Exact.of_seperate fun hmeets => hcross (h.crossesInside hmeets)
  rw [heq]
  apply orderedCCW_of_clear hc hd ha hb
  rw [← crossesInside_turned hl hm, crossesInside_iff] at hcross
  exact hcross

theorem SharedLeft.exact (h : SharedLeft l m) : Exact l m := by
  obtain ⟨c, a, b, hl, hm, hca, hcb, hside⟩ := h
  have hmeets := meets_left l m hl hm
  have hnot : ¬CrossesInside l m := by
    rw [← crossesInside_turned hl hm, crossesInside_iff]
    exact SomeZero.not_crosses (.inl (side_self_left c a))
  apply Exact.of_touch hmeets hnot
  obtain ⟨p, q, r, s, hl', hpq, hm', hrs, heq⟩ := exists_answer_eq fun hc => not_meets_of_boxesApart hc hmeets
  rw [heq]
  obtain ⟨rfl, rfl⟩ : p = c ∧ q = a := by
    rcases hl.symm.trans hl' with hpair | hpair <;> obtain ⟨rfl, rfl⟩ := Linef.mk.inj hpair
    · exact ⟨rfl, rfl⟩
    · exact absurd hpq (not_le.mpr hca)
  rcases hm.symm.trans hm' with hpair | hpair <;> obtain ⟨rfl, rfl⟩ := Linef.mk.inj hpair
  · rw [orderedCCW_of_end hside (.inl rfl), if_pos hcb]
  · -- The ends of the second segment are exchanged, which the code only does within the first one's columns.
    have hlast : l.p2.x ≤ q.x ∧ s.x ≤ l.p2.x := by
      rcases hl with hpair | hpair <;> obtain ⟨hfst, hsnd⟩ := Linef.mk.inj hpair
      · exact ⟨hsnd ▸ le_rfl, hsnd ▸ hca.le⟩
      · exact ⟨hfst ▸ hca.le, hfst ▸ le_rfl⟩
    have hrq : r.x ≤ q.x := (hrs.resolve_right (not_lt.mpr hlast.2)).trans hlast.1
    rw [orderedCCW_of_off hside (.inr (.inl (side_self_left s q))),
      if_neg (not_or.mpr ⟨not_lt.mpr hcb.le, not_lt.mpr hrq⟩)]

theorem Aligned.exact (h : Aligned l m) (hcolumns : SameColumns l m) (hapart : ¬BoxesApart l.p1 l.p2 m.p1 m.p2) :
    Exact l m := by
  apply Exact.of_touch (h.meets hapart) h.not_crossesInside
  obtain ⟨a, b, c, d, hl, hab, hm, -, heq⟩ := exists_answer_eq hapart
  obtain ⟨hmin, hmax⟩ := hcolumns
  rw [(columns_eq hl hab).1] at hmin
  rw [(columns_eq hl hab).2] at hmax
  have hzero : side a b c = 0 ∧ side a b d = 0 := by
    rw [side_turned hl, side_turned hl]
    rcases hm with hpair | hpair <;> obtain ⟨rfl, rfl⟩ := Linef.mk.inj hpair
    · exact h.1
    · exact h.1.symm
  have hends : a.x ≤ c.x ∧ d.x ≤ b.x := by
    rw [hmin, hmax]
    rcases hm with hpair | hpair <;> obtain ⟨rfl, rfl⟩ := Linef.mk.inj hpair
    · exact ⟨min_le_left _ _, le_max_right _ _⟩
    · exact ⟨min_le_right _ _, le_max_left _ _⟩
  rw [heq, orderedCCW_of_aligned hzero.1 hzero.2, if_neg (not_or.mpr ⟨not_lt.mpr hends.2, not_lt.mpr hends.1⟩)]

theorem Regular.exact (h : Regular l m) : Exact l m := by
  by_cases hapart : BoxesApart l.p1 l.p2 m.p1 m.p2
  · exact exact_of_boxesApart hapart
  · rcases h with happart | hclear | hshared | ⟨halign, hcolumns⟩
    · exact absurd happart hapart
    · exact hclear.exact hapart
    · exact hshared.exact
    · exact halign.exact hcolumns hapart

theorem Regular.turned (h : Regular l m) (hl : Turned l l') (hm : Turned m m') : Regular l' m' := by
  have hbounds : ∀ {l l'}, Turned l l' → min l'.p1.x l'.p2.x = min l.p1.x l.p2.x ∧
      max l'.p1.x l'.p2.x = max l.p1.x l.p2.x := by
    rintro l l' (rfl | rfl)
    · exact ⟨rfl, rfl⟩
    · exact ⟨min_comm _ _, max_comm _ _⟩
  rcases h with hapart | hclear | ⟨c, a, b, hca, hcb, hright⟩ | ⟨halign, hcolumns⟩
  · exact .inl ((boxesApart_turned hl hm).mpr hapart)
  · exact .inr (.inl (hclear.turned hl hm))
  · exact .inr (.inr (.inl ⟨c, a, b, hl.symm.trans hca, hm.symm.trans hcb, hright⟩))
  · refine .inr (.inr (.inr ⟨?_, ?_⟩))
    · have hl' : ∀ q, side l'.p1 l'.p2 q = 0 ↔ side l.p1 l.p2 q = 0 := side_turned hl
      have hm' : ∀ q, side m'.p1 m'.p2 q = 0 ↔ side m.p1 m.p2 q = 0 := side_turned hm
      unfold Aligned
      rw [hl', hl', hm', hm']
      rcases hl with rfl | rfl <;> rcases hm with rfl | rfl
      · exact halign
      · exact ⟨halign.1.symm, halign.2⟩
      · exact ⟨halign.1, halign.2.symm⟩
      · exact ⟨halign.1.symm, halign.2.symm⟩
    · unfold SameColumns
      rw [(hbounds hl).1, (hbounds hl).2, (hbounds hm).1, (hbounds hm).2]
      exact hcolumns

theorem Regular.symm (h : Regular l m) : Regular m l := by
  rcases h with hapart | hclear | hshared | ⟨halign, hcolumns⟩
  · exact .inl (boxesApart_comm.mpr hapart)
  · exact .inr (.inl ⟨hclear.2, hclear.1⟩)
  · exact .inr (.inr (.inl hshared.symm))
  · exact .inr (.inr (.inr ⟨halign.symm, hcolumns.1.symm, hcolumns.2.symm⟩))

/-- Right answers about the same geometry are the same. -/
theorem Exact.answer_eq (h : Exact l m) (h' : Exact l' m') (hmeets : Meets l' m' ↔ Meets l m)
    (hcross : CrossesInside l' m' ↔ CrossesInside l m) : answer l' m' = answer l m := by
  cases hans : answer l m with
  | intersect => exact h'.intersect.mpr (hcross.mpr (h.intersect.mp hans))
  | seperate => exact h'.seperate.mpr (hmeets.not.mpr (h.seperate.mp hans))
  | touch =>
    obtain ⟨hm, hn⟩ := h.touch.mp hans
    exact h'.touch.mpr ⟨hmeets.mpr hm, hcross.not.mpr hn⟩

/-- **Which pairs of segments get the right answer in every order**: those with boxes apart, with no end on the line
of the other, with a common end that both leave to the right, and those on one line in the same columns. -/
theorem sound_iff (l m : Linef) : Sound l m ↔ Regular l m := by
  refine ⟨Sound.regular, fun h => ⟨h.exact, fun l' m' hl hm => ⟨?_, ?_⟩⟩⟩
  · exact h.exact.answer_eq (h.turned hl hm).exact (meets_turned hl hm) (crossesInside_turned hl hm)
  · exact h.exact.answer_eq (h.turned hl hm).symm.exact (meets_comm.trans (meets_turned hl hm))
      (crossesInside_comm.trans (crossesInside_turned hl hm))

/-- An end inside the other segment is not noticed. -/
theorem not_sound : ¬ ∀ l m, Sound l m := by
  intro hall
  have hsound := hall ⟨⟨0, 0⟩, ⟨2, 0⟩⟩ ⟨⟨1, 0⟩, ⟨1, 1⟩⟩
  have hans : answer ⟨⟨0, 0⟩, ⟨2, 0⟩⟩ ⟨⟨1, 0⟩, ⟨1, 1⟩⟩ = .seperate := by decide +kernel
  refine hsound.exact.seperate.mp hans ⟨(1, 0), ?_, left_mem_segment ℚ _ _⟩
  refine ⟨1 / 2, 1 / 2, by norm_num, by norm_num, by norm_num, ?_⟩
  norm_num [Pointf.pair]

end Linef

end RZEmulator.Chihiro
