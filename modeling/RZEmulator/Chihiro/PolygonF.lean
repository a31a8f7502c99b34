import RZEmulator.Chihiro.Linef

/-!
# Polygons

`PolygonF` and the regions of a map, `MapLocationInfo`. A loop over the vertices that returns at a vertex and
counts edges otherwise is a test for the vertex and a count, and `IsInclude` and `IsLooseInclude` share both.
-/

namespace RZEmulator.Chihiro

structure PolygonF where
  m_Points : List Pointf
  m_Area : RectangleF
  deriving DecidableEq, Repr

structure MapLocationInfo extends PolygonF where
  location_id : Int
  priority : Int
  deriving DecidableEq, Repr

namespace PolygonF

/-- The polygon with the given points, of which the first is given apart. -/
def ofPoints (p : Pointf) (points : List Pointf) : PolygonF where
  m_Points := p :: points
  m_Area := .ofPoints p points

def ofCorners (p1 p2 : Pointf) : PolygonF :=
  let area := RectangleF.ofCorners p1 p2
  { m_Area := area
    m_Points := [⟨area.m_TopLeft.x, area.m_TopLeft.y⟩, ⟨area.m_BottomRight.x, area.m_TopLeft.y⟩,
      ⟨area.m_BottomRight.x, area.m_BottomRight.y⟩, ⟨area.m_TopLeft.x, area.m_BottomRight.y⟩] }

/-- The edge from a vertex to the next one. -/
def getSegment (p : PolygonF) (idx : Fin p.m_Points.length) : Linef where
  p1 := p.m_Points[idx]
  p2 := if h : idx.val + 1 < p.m_Points.length then p.m_Points[idx.val + 1] else p.m_Points.get ⟨0, idx.pos⟩

/-- The edges, in the order of the loops. -/
def segments (p : PolygonF) : List Linef := (List.finRange p.m_Points.length).map p.getSegment

/-- The edge counts for the ray from the point to the right; where they touch, it counts for its lower end. -/
def countsEdge (farAway pt : Pointf) (l : Linef) : Bool :=
  match Linef.intersectCCW l.p1 l.p2 farAway pt with
  | .intersect => true
  | .touch => min l.p1.y l.p2.y = pt.y ∧ l.p2.y ≠ l.p1.y
  | .seperate => false

/-- The ray from the point to the right counts an odd number of edges. -/
def oddEdges (p : PolygonF) (pt : Pointf) : Bool :=
  p.segments.countP (countsEdge ⟨p.m_Area.m_BottomRight.x + 1, pt.y⟩ pt) % 2 = 1

def isInclude (p : PolygonF) (pt : Pointf) : Bool :=
  p.m_Area.isInclude pt && (decide (pt ∈ p.m_Points) || p.oddEdges pt)

/-- Unlike `IsInclude`, false at the vertices. -/
def isLooseInclude (p : PolygonF) (pt : Pointf) : Bool :=
  p.m_Area.isInclude pt && !decide (pt ∈ p.m_Points) && p.oddEdges pt

def isIn (p : PolygonF) (t : RectangleF) : Bool := p.m_Points.all t.isInclude

def isCollision (p : PolygonF) (rc : RectangleF) : Bool :=
  let topLeft := rc.m_TopLeft
  let topRight : Pointf := ⟨rc.m_BottomRight.x, rc.m_TopLeft.y⟩
  let bottomRight := rc.m_BottomRight
  let bottomLeft : Pointf := ⟨rc.m_TopLeft.x, rc.m_BottomRight.y⟩
  p.isInclude topLeft || p.m_Points.any rc.isInclude || p.segments.any fun line =>
    let r1 := Linef.intersectCCW line.p1 line.p2 topRight bottomRight
    let r2 := Linef.intersectCCW line.p1 line.p2 bottomRight bottomLeft
    Linef.intersectCCW line.p1 line.p2 topLeft topRight = .intersect || r1 = .intersect || r2 = .intersect ||
      Linef.intersectCCW line.p1 line.p2 bottomLeft topLeft = .intersect ||
      (line.p2.x ≠ line.p1.x ∧ line.p2.y ≠ line.p1.y ∧ r1 = .touch ∧ r2 = .touch)

/-- A line collides if it crosses an edge and neither of its ends is included. -/
def isLooseCollision (p : PolygonF) (line : Linef) : Bool :=
  !p.isLooseInclude line.p1 && !p.isLooseInclude line.p2 && p.segments.any fun l =>
    let res := Linef.intersectCCW l.p1 l.p2 line.p1 line.p2
    res ≠ .seperate ∧ res ≠ .touch

end PolygonF

end RZEmulator.Chihiro
