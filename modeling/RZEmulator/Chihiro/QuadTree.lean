import RZEmulator.Chihiro.PolygonF

/-!
# The quad tree of a map

`QuadTreeMapInfo`. `getFitNode` returns a copy of a child, so a region that went to a child would be lost;
but the flag `init`, without which the copy is not used, is set in no node that has an area. So a tree keeps
all regions in its root (`Flat`), and `equals_linear_scan` follows.
-/

namespace RZEmulator.Chihiro

namespace QuadTreeMapInfo

/-- A node without its children. -/
structure NodeInfo where
  init : Bool := false
  m_vList : List MapLocationInfo := []
  m_Area : RectangleF
  m_unDepth : Nat := 0

/-- `m_pNode` is empty or has all four children. -/
inductive Node
  | leaf (info : NodeInfo)
  | divided (info : NodeInfo) (n0 n1 n2 n3 : Node)

namespace Node

def info : Node → NodeInfo
  | leaf i => i
  | divided i _ _ _ _ => i

@[simp] theorem info_leaf (i : NodeInfo) : (leaf i).info = i := rfl

@[simp] theorem info_divided (i : NodeInfo) (n0 n1 n2 n3 : Node) : (divided i n0 n1 n2 n3).info = i := rfl

/-- The constructor with an area leaves `init` as it is. -/
def ofCorners (p1 p2 : Pointf) (depth : Nat) : Node :=
  leaf { m_Area := .ofCorners p1 p2, m_unDepth := depth }

/-- The child that the region is in; the result is a copy. -/
def getFitNode (n0 n1 n2 n3 : Node) (u : MapLocationInfo) : Option Node :=
  if u.isIn n0.info.m_Area then some n0
  else if u.isIn n1.info.m_Area then some n1
  else if u.isIn n2.info.m_Area then some n2
  else if u.isIn n3.info.m_Area then some n3
  else none

/-- `divide`. The corners are those of the source, where the second child gets the bottom right corner of
the first. A region that fits a child is added to a copy of it, which is thrown away. -/
def divide (i : NodeInfo) : Node :=
  let tl := i.m_Area.m_TopLeft
  let br := i.m_Area.m_BottomRight
  let easx := (br.x - tl.x) * (1 / 2) + tl.x
  let easy := (br.y - tl.y) * (1 / 2) + tl.y
  let depth := i.m_unDepth + 1
  let n0 := ofCorners tl ⟨tl.x + easx, tl.y + easy⟩ depth
  let n1 := ofCorners ⟨br.x, tl.y + easy⟩ ⟨tl.x + easx, tl.y + easy⟩ depth
  let n2 := ofCorners ⟨tl.x, tl.y + easx⟩ ⟨tl.x + easx, br.y⟩ depth
  let n3 := ofCorners ⟨tl.x + easx, tl.y + easx⟩ br depth
  let nl := i.m_vList.filter fun u => !(getFitNode n0 n1 n2 n3 u).any fun fn => fn.info.init
  divided { i with m_vList := nl } n0 n1 n2 n3

/-- `add`: a node that is divided is not divided again. -/
def push (u : MapLocationInfo) : Node → Node
  | leaf i =>
    let i := { i with m_vList := i.m_vList ++ [u] }
    if i.m_vList.length ≥ 10 ∧ i.m_unDepth < 10 then divide i else leaf i
  | divided i n0 n1 n2 n3 => divided { i with m_vList := i.m_vList ++ [u] } n0 n1 n2 n3

/-- `Add`, with the node it leaves. A child that fits is asked as a copy, so the node stays as it is when the
copy takes the region. -/
def add (u : MapLocationInfo) : Node → Bool × Node
  | leaf i => if u.isCollision i.m_Area then (true, push u (leaf i)) else (false, leaf i)
  | divided i n0 n1 n2 n3 =>
    if u.isCollision i.m_Area then
      let taken : Bool :=
        if u.isIn n0.info.m_Area then n0.info.init && (add u n0).1
        else if u.isIn n1.info.m_Area then n1.info.init && (add u n1).1
        else if u.isIn n2.info.m_Area then n2.info.init && (add u n2).1
        else if u.isIn n3.info.m_Area then n3.info.init && (add u n3).1
        else false
      if taken then (true, divided i n0 n1 n2 n3) else (true, push u (divided i n0 n1 n2 n3))
    else (false, divided i n0 n1 n2 n3)

/-- `Enum`: the regions that the functor collects. -/
def enum (c : Pointf) : Node → List MapLocationInfo
  | leaf i => if i.m_Area.isInclude c then i.m_vList.filter (·.isInclude c) else []
  | divided i n0 n1 n2 n3 =>
    if i.m_Area.isInclude c then
      enum c n0 ++ enum c n1 ++ enum c n2 ++ enum c n3 ++ i.m_vList.filter (·.isInclude c)
    else []

def collision (c : Pointf) : Node → Bool
  | leaf i => i.m_Area.isInclude c && i.m_vList.any (·.isInclude c)
  | divided i n0 n1 n2 n3 =>
    i.m_Area.isInclude c && (i.m_vList.any (·.isInclude c) ||
      (collision c n0 || collision c n1 || collision c n2 || collision c n3))

def looseCollision (line : Linef) : Node → Bool
  | leaf i => i.m_Area.isCollision line && i.m_vList.any (·.isLooseCollision line)
  | divided i n0 n1 n2 n3 =>
    i.m_Area.isCollision line && (i.m_vList.any (·.isLooseCollision line) ||
      (looseCollision line n0 || looseCollision line n1 || looseCollision line n2 || looseCollision line n3))

end Node

/-- The root of a tree of the given size. -/
def empty (width height : ℚ) : Node := .ofCorners ⟨0, 0⟩ ⟨width, height⟩ 0

/-- The root after the calls of `Add`, in this order. -/
def addAll (root : Node) (us : List MapLocationInfo) : Node := us.foldl (fun n u => (n.add u).2) root

/-! ## All regions are in the root -/

namespace Node

variable {n : Node} {u : MapLocationInfo}

/-- A leaf without regions whose copies are not used. -/
def Bare : Node → Prop
  | leaf i => i.init = false ∧ i.m_vList = []
  | divided .. => False

/-- The children have no regions. -/
def Flat : Node → Prop
  | leaf _ => True
  | divided _ n0 n1 n2 n3 => n0.Bare ∧ n1.Bare ∧ n2.Bare ∧ n3.Bare

theorem bare_ofCorners (p1 p2 : Pointf) (depth : Nat) : (ofCorners p1 p2 depth).Bare := ⟨rfl, rfl⟩

theorem Bare.init (h : n.Bare) : n.info.init = false := by
  cases n with
  | leaf i => exact h.1
  | divided => exact h.elim

theorem Bare.enum (h : n.Bare) (c : Pointf) : n.enum c = [] := by
  cases n with
  | leaf i => simp [Node.enum, h.2]
  | divided => exact h.elim

theorem Bare.collision (h : n.Bare) (c : Pointf) : n.collision c = false := by
  cases n with
  | leaf i => simp [Node.collision, h.2]
  | divided => exact h.elim

theorem Bare.looseCollision (h : n.Bare) (line : Linef) : n.looseCollision line = false := by
  cases n with
  | leaf i => simp [Node.looseCollision, h.2]
  | divided => exact h.elim

/-- No region fits a child without `init`. -/
theorem filter_of_bare {n0 n1 n2 n3 : Node} (h0 : n0.Bare) (h1 : n1.Bare) (h2 : n2.Bare) (h3 : n3.Bare)
    (us : List MapLocationInfo) :
    (us.filter fun u => !(getFitNode n0 n1 n2 n3 u).any fun fn => fn.info.init) = us := by
  apply List.filter_eq_self.mpr
  intro u _
  have hno : ((getFitNode n0 n1 n2 n3 u).any fun fn => fn.info.init) = false := by
    unfold getFitNode
    split_ifs
    · exact h0.init
    · exact h1.init
    · exact h2.init
    · exact h3.init
    · rfl
  rw [hno]
  rfl

/-- A division leaves all regions where they are. -/
theorem divide_spec (i : NodeInfo) : (divide i).Flat ∧ (divide i).info = i := by
  refine ⟨⟨bare_ofCorners .., bare_ofCorners .., bare_ofCorners .., bare_ofCorners ..⟩, ?_⟩
  rw [divide, info_divided, filter_of_bare (bare_ofCorners ..) (bare_ofCorners ..) (bare_ofCorners ..)
    (bare_ofCorners ..)]

theorem push_spec (h : n.Flat) (u : MapLocationInfo) :
    (push u n).Flat ∧ (push u n).info = { n.info with m_vList := n.info.m_vList ++ [u] } := by
  cases n with
  | leaf i =>
    unfold push
    dsimp only
    split_ifs
    · exact divide_spec _
    · exact ⟨trivial, rfl⟩
  | divided i n0 n1 n2 n3 => exact ⟨h, rfl⟩

/-- A region that collides with the area is kept in the root, any other is refused. -/
theorem add_of_flat (h : n.Flat) (u : MapLocationInfo) :
    n.add u = if u.isCollision n.info.m_Area then (true, push u n) else (false, n) := by
  cases n with
  | leaf i => rw [add, info]
  | divided i n0 n1 n2 n3 =>
    obtain ⟨h0, h1, h2, h3⟩ := h
    rw [add, info_divided]
    simp only [h0.init, h1.init, h2.init, h3.init, Bool.false_and, ite_self, Bool.false_eq_true, if_false]

theorem enum_of_flat (h : n.Flat) (c : Pointf) :
    n.enum c = if n.info.m_Area.isInclude c then n.info.m_vList.filter (·.isInclude c) else [] := by
  cases n with
  | leaf i => rw [enum, info_leaf]
  | divided i n0 n1 n2 n3 =>
    obtain ⟨h0, h1, h2, h3⟩ := h
    rw [Node.enum, h0.enum, h1.enum, h2.enum, h3.enum, info_divided]
    rfl

theorem collision_of_flat (h : n.Flat) (c : Pointf) :
    n.collision c = (n.info.m_Area.isInclude c && n.info.m_vList.any (·.isInclude c)) := by
  cases n with
  | leaf i => rw [collision, info_leaf]
  | divided i n0 n1 n2 n3 =>
    obtain ⟨h0, h1, h2, h3⟩ := h
    rw [Node.collision, h0.collision, h1.collision, h2.collision, h3.collision, info_divided]
    simp only [Bool.or_false]

theorem looseCollision_of_flat (h : n.Flat) (line : Linef) :
    n.looseCollision line = (n.info.m_Area.isCollision line && n.info.m_vList.any (·.isLooseCollision line)) := by
  cases n with
  | leaf i => rw [looseCollision, info_leaf]
  | divided i n0 n1 n2 n3 =>
    obtain ⟨h0, h1, h2, h3⟩ := h
    rw [Node.looseCollision, h0.looseCollision, h1.looseCollision, h2.looseCollision, h3.looseCollision, info_divided]
    simp only [Bool.or_false]

end Node

/-! ## Whole sequences of calls -/

open Node

/-- What a sequence of calls leaves: the regions that collide with the area, in the root, in their order. -/
theorem addAll_spec (us : List MapLocationInfo) {root : Node} (h : root.Flat) :
    (addAll root us).Flat ∧ (addAll root us).info =
      { root.info with m_vList := root.info.m_vList ++ us.filter (·.isCollision root.info.m_Area) } := by
  induction us generalizing root with
  | nil =>
    refine ⟨h, ?_⟩
    rw [List.filter_nil, List.append_nil]
    rfl
  | cons u us ih =>
    have hstep : (root.add u).2.Flat ∧ (root.add u).2.info =
        { root.info with m_vList := root.info.m_vList ++ [u].filter (·.isCollision root.info.m_Area) } := by
      rw [add_of_flat h]
      by_cases hu : u.isCollision root.info.m_Area
      · rw [if_pos hu, List.filter_cons, if_pos hu, List.filter_nil]
        exact push_spec h u
      · rw [if_neg hu, List.filter_cons, if_neg hu, List.filter_nil, List.append_nil]
        exact ⟨h, rfl⟩
    have hrest := ih hstep.1
    rw [hstep.2] at hrest
    refine ⟨hrest.1, hrest.2.trans ?_⟩
    rw [List.append_assoc, ← List.filter_append]
    rfl

/-- The regions that `Add` accepts in a tree of the given size. -/
def accepted (width height : ℚ) (us : List MapLocationInfo) : List MapLocationInfo :=
  us.filter (·.isCollision (empty width height).info.m_Area)

theorem addAll_empty (width height : ℚ) (us : List MapLocationInfo) :
    (addAll (empty width height) us).Flat ∧
      (addAll (empty width height) us).info.m_Area = (empty width height).info.m_Area ∧
      (addAll (empty width height) us).info.m_vList = accepted width height us := by
  obtain ⟨hflat, hinfo⟩ := addAll_spec us (show (empty width height).Flat from trivial)
  rw [hinfo]
  exact ⟨hflat, rfl, rfl⟩

/-- **The tree answers like a scan of the regions**, whichever were added, in whichever order: for points and
lines inside of the area. -/
theorem equals_linear_scan (width height : ℚ) (us : List MapLocationInfo)
    (hus : ∀ u ∈ us, u.isCollision (empty width height).info.m_Area) :
    (∀ c, (empty width height).info.m_Area.isInclude c →
      ((addAll (empty width height) us).collision c ↔ ∃ u ∈ us, u.isInclude c) ∧
      (addAll (empty width height) us).enum c = us.filter (·.isInclude c)) ∧
    ∀ line : Linef, (empty width height).info.m_Area.isInclude line.p1 →
      (empty width height).info.m_Area.isInclude line.p2 →
      ((addAll (empty width height) us).looseCollision line ↔ ∃ u ∈ us, u.isLooseCollision line) := by
  obtain ⟨hflat, harea, hlist⟩ := addAll_empty width height us
  have hall : accepted width height us = us := List.filter_eq_self.mpr hus
  refine ⟨fun c hc => ⟨?_, ?_⟩, fun line hbegin hend => ?_⟩
  · rw [collision_of_flat hflat, harea, hlist, hall, hc, Bool.true_and, List.any_eq_true]
  · rw [enum_of_flat hflat, harea, hlist, hall, if_pos hc]
  · rw [looseCollision_of_flat hflat, harea, hlist, hall, RectangleF.isCollision_of_isInclude hbegin, Bool.true_and,
      List.any_eq_true]

/-- Twelve squares, more than a node has before it is divided. -/
def squares : List MapLocationInfo :=
  (List.range 12).map fun (k : Nat) =>
    { PolygonF.ofCorners ⟨(k : ℚ), (k : ℚ)⟩ ⟨(k : ℚ) + 2, (k : ℚ) + 2⟩ with
      location_id := (k : Int)
      priority := 0 }

theorem equals_linear_scan_squares :
    (addAll (empty 100 100) squares).collision ⟨12, 12⟩ ∧
      ¬(addAll (empty 100 100) squares).looseCollision ⟨⟨20, 20⟩, ⟨30, 20⟩⟩ := by
  have hscan := equals_linear_scan 100 100 squares (by decide +kernel)
  refine ⟨((hscan.1 ⟨12, 12⟩ (by decide +kernel)).1).mpr (by decide +kernel), ?_⟩
  rw [hscan.2 ⟨⟨20, 20⟩, ⟨30, 20⟩⟩ (by decide +kernel) (by decide +kernel)]
  decide +kernel

end QuadTreeMapInfo

end RZEmulator.Chihiro
