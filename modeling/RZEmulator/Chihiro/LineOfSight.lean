import RZEmulator.Chihiro.QuadTree
import RZEmulator.Lib.Plane

/-!
# Lines of sight

`GameContent::CollisionToLine` against the blocking polygons of a map, read as closed curves in the plane. A
line that crosses an edge is blocked, unless one of its ends is in the polygon: `IsLooseCollision` looks for
crossings only where neither end is included. `lineOfSight_iff` says which lines get the right answer.
-/

namespace RZEmulator.Chihiro

open Lib

/-! ## Points of the plane -/

def Pointf.pair (p : Pointf) : ℚ × ℚ := (p.x, p.y)

noncomputable def Pointf.real (p : Pointf) : ℝ × ℝ := (p.x, p.y)

/-- The points of the line. -/
def Linef.points (l : Linef) : Set (ℝ × ℝ) := segment ℝ l.p1.real l.p2.real

/-- The vertices of the polygon. -/
noncomputable def PolygonF.outline (p : PolygonF) : List (ℝ × ℝ) := p.m_Points.map Pointf.real

/-! ## What is computed for two lines -/

namespace Linef

variable {p1 p2 p3 p4 : Pointf}

theorem toInt_checkClockWisef_pos : 0 < (checkClockWisef p1 p2 p3).toInt ↔ 0 < Lib.side p1.pair p2.pair p3.pair := by
  change _ ↔ 0 < side p1 p2 p3
  unfold checkClockWisef
  dsimp only
  split_ifs with hle hge
  · exact iff_of_false (by decide) hle.not_gt
  · exact iff_of_false (by decide) hle.not_gt
  · exact iff_of_true (by decide) (not_le.mp hle)

theorem toInt_checkClockWisef_neg : (checkClockWisef p1 p2 p3).toInt < 0 ↔ Lib.side p1.pair p2.pair p3.pair < 0 := by
  change _ ↔ side p1 p2 p3 < 0
  unfold checkClockWisef
  dsimp only
  split_ifs with hle hge
  · exact iff_of_false (by decide) (not_lt.mpr hge)
  · exact iff_of_true (by decide) (not_le.mp hge)
  · exact iff_of_false (by decide) (not_lt.mpr (not_le.mp hle).le)

/-- The test for opposite sides, twice. -/
theorem crosses_iff : (checkClockWisef p1 p2 p3).toInt * (checkClockWisef p1 p2 p4).toInt < 0 ∧
    (checkClockWisef p3 p4 p1).toInt * (checkClockWisef p3 p4 p2).toInt < 0 ↔
    Crosses p1.pair p2.pair p3.pair p4.pair := by
  unfold Crosses
  simp only [mul_neg_iff, toInt_checkClockWisef_pos, toInt_checkClockWisef_neg]

theorem touchCCW_ne_intersect : touchCCW p1 p2 p3 p4 ≠ .intersect := by
  have hite : ∀ (c : Prop) [Decidable c] (r s : IntersectResult), r ≠ .intersect → s ≠ .intersect →
      (if c then r else s) ≠ .intersect := by
    intro c _ r s hr hs
    split_ifs
    · exact hr
    · exact hs
  have hsep : IntersectResult.seperate ≠ .intersect := by decide
  have htouch : IntersectResult.touch ≠ .intersect := by decide
  unfold touchCCW
  dsimp only
  repeat' first | exact hsep | exact htouch | apply hite

/-- Lines that cross have bounding boxes that meet. -/
theorem not_boxesApart (h : Crosses p1.pair p2.pair p3.pair p4.pair) : ¬BoxesApart p1 p2 p3 p4 := by
  obtain ⟨q, h12, h34⟩ := h.exists_mem_segment
  obtain ⟨hx, hy⟩ := inf_le_sup_of_mem_segment h12 h34
  obtain ⟨hx', hy'⟩ := inf_le_sup_of_mem_segment h34 h12
  rintro (hlt | hlt | hlt | hlt)
  · exact absurd hy (not_le.mpr hlt)
  · exact absurd hy' (not_le.mpr hlt)
  · exact absurd hx (not_le.mpr hlt)
  · exact absurd hx' (not_le.mpr hlt)

/-- The answer is `Intersect` for the lines that cross. -/
theorem intersectCCW_eq_intersect_iff :
    intersectCCW p1 p2 p3 p4 = .intersect ↔ Crosses p1.pair p2.pair p3.pair p4.pair := by
  have hordered : ∀ (c d : Prop) [Decidable c] [Decidable d],
      Crosses (if c then p1 else p2).pair (if c then p2 else p1).pair (if d then p3 else p4).pair
        (if d then p4 else p3).pair ↔ Crosses p1.pair p2.pair p3.pair p4.pair := by
    intro c d _ _
    split_ifs
    · rfl
    · exact crosses_swap_right
    · exact crosses_swap_left
    · exact crosses_swap_right.trans crosses_swap_left
  unfold intersectCCW
  by_cases hapart : BoxesApart p1 p2 p3 p4
  · rw [if_pos hapart]
    exact iff_of_false (by decide) fun h => not_boxesApart h hapart
  rw [if_neg hapart, ← hordered (p2.x ≥ p1.x) (p2.x ≥ p3.x), ← crosses_iff]
  dsimp only
  generalize (if p2.x ≥ p1.x then p1 else p2) = tp1
  generalize (if p2.x ≥ p1.x then p2 else p1) = tp2
  generalize (if p2.x ≥ p3.x then p3 else p4) = tp3
  generalize (if p2.x ≥ p3.x then p4 else p3) = tp4
  split_ifs with hcross
  · exact iff_of_true rfl hcross
  all_goals refine iff_of_false ?_ hcross
  · exact not_false
  · exact touchCCW_ne_intersect
  · exact not_false
  · exact not_false

/-- Lines that cross have a common point. -/
theorem exists_mem_points (h : Crosses p1.pair p2.pair p3.pair p4.pair) :
    ∃ q, q ∈ points ⟨p1, p2⟩ ∧ q ∈ points ⟨p3, p4⟩ := by
  have hcast : ∀ a b c : Pointf, Lib.side a.real b.real c.real = (Lib.side a.pair b.pair c.pair : ℚ) := by
    intro a b c
    unfold Lib.side Pointf.real Pointf.pair
    push_cast
    ring
  have hreal : Crosses p1.real p2.real p3.real p4.real := by
    unfold Crosses
    rw [hcast, hcast, hcast, hcast]
    exact_mod_cast h
  exact hreal.exists_mem_segment

end Linef

/-! ## Polygons -/

namespace PolygonF

variable {p : PolygonF} {line : Linef}

theorem getElem?_edges (i : Fin p.m_Points.length) :
    (edges p.m_Points)[i.val]? = some ((p.getSegment i).p1, (p.getSegment i).p2) := by
  have hnext : (p.m_Points.rotate 1)[i.val]? = some (p.getSegment i).p2 := by
    rw [List.getElem?_rotate i.isLt]
    unfold getSegment
    dsimp only
    split_ifs with hlast
    · rw [Nat.mod_eq_of_lt hlast, List.getElem?_eq_getElem hlast]
    · have hlen : i.val + 1 = p.m_Points.length := Nat.le_antisymm i.isLt (not_lt.mp hlast)
      rw [hlen, Nat.mod_self, List.getElem?_eq_getElem i.pos]
      rfl
  exact List.getElem?_zip_eq_some.mpr ⟨List.getElem?_eq_getElem i.isLt, hnext⟩

/-- The segments are the edges. -/
theorem mem_segments_iff {l : Linef} : l ∈ p.segments ↔ (l.p1, l.p2) ∈ edges p.m_Points := by
  unfold segments
  rw [List.mem_map]
  constructor
  · rintro ⟨i, -, rfl⟩
    exact List.mem_of_getElem? (getElem?_edges i)
  · intro hl
    obtain ⟨i, hi⟩ := List.mem_iff_getElem?.mp hl
    obtain ⟨hlt, -⟩ := List.getElem?_eq_some_iff.mp (List.getElem?_zip_eq_some.mp hi).1
    refine ⟨⟨i, hlt⟩, List.mem_finRange _, ?_⟩
    have hsame := Prod.mk.inj (Option.some.inj ((getElem?_edges ⟨i, hlt⟩).symm.trans hi))
    rw [Linef.mk.injEq]
    exact hsame

/-- The line crosses an edge of the polygon and neither of its ends is included. -/
structure CrossesWall (p : PolygonF) (line : Linef) : Prop where
  first : ¬p.isLooseInclude line.p1
  last : ¬p.isLooseInclude line.p2
  edge : ∃ e ∈ edges p.m_Points, Crosses e.1.pair e.2.pair line.p1.pair line.p2.pair

theorem isLooseCollision_iff : p.isLooseCollision line ↔ p.CrossesWall line := by
  have hintersect : ∀ r : IntersectResult, (r ≠ .seperate ∧ r ≠ .touch) ↔ r = .intersect := by
    intro r
    cases r <;> decide
  have hedges : (p.segments.any fun l => decide (Linef.intersectCCW l.p1 l.p2 line.p1 line.p2 ≠ .seperate ∧
      Linef.intersectCCW l.p1 l.p2 line.p1 line.p2 ≠ .touch)) ↔
      ∃ e ∈ edges p.m_Points, Crosses e.1.pair e.2.pair line.p1.pair line.p2.pair := by
    rw [List.any_eq_true]
    constructor
    · rintro ⟨l, hl, hres⟩
      exact ⟨(l.p1, l.p2), mem_segments_iff.mp hl,
        Linef.intersectCCW_eq_intersect_iff.mp ((hintersect _).mp (of_decide_eq_true hres))⟩
    · rintro ⟨e, he, hcross⟩
      exact ⟨⟨e.1, e.2⟩, mem_segments_iff.mpr he,
        decide_eq_true ((hintersect _).mpr (Linef.intersectCCW_eq_intersect_iff.mpr hcross))⟩
  unfold isLooseCollision
  rw [Bool.and_eq_true, Bool.and_eq_true, Bool.not_eq_true', Bool.not_eq_true', ← Bool.not_eq_true, ← Bool.not_eq_true]
  constructor
  · rintro ⟨⟨hfirst, hlast⟩, hany⟩
    exact ⟨hfirst, hlast, hedges.mp hany⟩
  · rintro ⟨hfirst, hlast, hedge⟩
    exact ⟨⟨hfirst, hlast⟩, hedges.mpr hedge⟩

/-- A line that crosses an edge has a point on the boundary. -/
theorem CrossesWall.exists_mem_boundary (h : p.CrossesWall line) : ∃ q ∈ line.points, q ∈ boundary p.outline := by
  obtain ⟨e, he, hcross⟩ := h.edge
  obtain ⟨q, hqe, hql⟩ := Linef.exists_mem_points hcross
  refine ⟨q, hql, (e.1.real, e.2.real), ?_, hqe⟩
  unfold outline
  rw [edges_map]
  exact List.mem_map_of_mem he

end PolygonF

/-! ## The claim -/

open QuadTreeMapInfo

/-- `GameContent::CollisionToLine`, with the root of `g_qtBlockInfo`. -/
def collisionToLine (m_MasterNode : Node) (x1 y1 x2 y2 : ℚ) : Bool :=
  m_MasterNode.looseCollision ⟨⟨x1, y1⟩, ⟨x2, y2⟩⟩

/-- The line has a point in the interior of a block. -/
def Inside (blocks : List MapLocationInfo) (line : Linef) : Prop :=
  ∃ u ∈ blocks, ∃ q ∈ line.points, q ∈ interiorOf u.outline

/-- The answer is right for the line: it is blocked by the interior of a block and not without a point of one. -/
structure Sound (blocks : List MapLocationInfo) (line : Linef) (answer : Bool) : Prop where
  blocked : Inside blocks line → answer = true
  free : (∀ u ∈ blocks, ∀ q ∈ line.points, q ∉ region u.outline) → answer = false

/-- **Which lines get the right answer**: those that have no point in an interior, and those that cross an
edge of a block in which they neither begin nor end. -/
theorem lineOfSight_iff (width height : ℚ) (us : List MapLocationInfo) (line : Linef) :
    Sound (accepted width height us) line
      (collisionToLine (addAll (empty width height) us) line.p1.x line.p1.y line.p2.x line.p2.y) ↔
    (Inside (accepted width height us) line → (empty width height).info.m_Area.isCollision line ∧
      ∃ u ∈ accepted width height us, u.CrossesWall line) := by
  have hanswer : collisionToLine (addAll (empty width height) us) line.p1.x line.p1.y line.p2.x line.p2.y ↔
      (empty width height).info.m_Area.isCollision line ∧ ∃ u ∈ accepted width height us, u.CrossesWall line := by
    obtain ⟨hflat, harea, hlist⟩ := addAll_empty width height us
    unfold collisionToLine
    rw [Node.looseCollision_of_flat hflat, harea, hlist, Bool.and_eq_true, List.any_eq_true]
    simp only [PolygonF.isLooseCollision_iff]
  constructor
  · intro hsound hinside
    exact hanswer.mp (hsound.blocked hinside)
  · intro hcrosses
    refine ⟨fun hinside => hanswer.mpr (hcrosses hinside), fun hfree => ?_⟩
    by_contra hno
    obtain ⟨-, u, hu, hwall⟩ := hanswer.mp (Bool.not_eq_false _ ▸ hno)
    obtain ⟨q, hq, hboundary⟩ := hwall.exists_mem_boundary
    exact hfree u hu q hq (.inl hboundary)

/-- A square wall. -/
def wall : MapLocationInfo :=
  { PolygonF.ofPoints ⟨2, 2⟩ [⟨6, 2⟩, ⟨6, 6⟩, ⟨2, 6⟩] with
    location_id := 0
    priority := 0 }

/-- A line that begins in the wall is not blocked. -/
theorem not_lineOfSight : ¬ ∀ width height us line, Sound (accepted width height us) line
    (collisionToLine (addAll (empty width height) us) line.p1.x line.p1.y line.p2.x line.p2.y) := by
  intro hall
  have hsound := hall 100 100 [wall] ⟨⟨4, 4⟩, ⟨10, 4⟩⟩
  have hloaded : accepted 100 100 [wall] = [wall] := by decide +kernel
  have hmiss : collisionToLine (addAll (empty 100 100) [wall]) 4 4 10 4 = false := by decide +kernel
  have hinterior : Pointf.real ⟨4, 4⟩ ∈ interiorOf wall.outline := by
    have hbox : Pointf.real ⟨4, 4⟩ ∈ Set.Ioo (2 : ℝ) 6 ×ˢ Set.Ioo (2 : ℝ) 6 := by
      refine ⟨⟨?_, ?_⟩, ?_, ?_⟩ <;> norm_num [Pointf.real]
    have houtline : wall.outline = [(2, 2), (6, 2), (6, 6), (2, 6)] := by
      norm_num [wall, PolygonF.ofPoints, PolygonF.outline, Pointf.real]
    rw [houtline]
    exact mem_interiorOf_rectangle hbox
  rw [hloaded] at hsound
  have hblocked := hsound.blocked ⟨wall, List.mem_singleton_self wall, _, left_mem_segment ℝ _ _, hinterior⟩
  exact absurd (hmiss.symm.trans hblocked) Bool.false_ne_true

end RZEmulator.Chihiro
