import RZEmulator.Chihiro.MoveVector
import RZEmulator.Lib.Strip

/-!
# Region testers

`DirectionRegionTester` and `CrossRegionTester`, in exact arithmetic; a division by zero has no result. A tester is made
for one enumeration of targets: `Init` once, then `IsInRegion` for each unit.

`regionRight_iff`: the direction tester is right unless the target or the unit stands on the origin. The cross tester
keeps both constants in `c1`, so that its two lines go astray.
-/

namespace RZEmulator.Chihiro

open Lib
open ArMoveVector (SquareRoot)

variable {K : Type*} [Field K] [LinearOrder K]

/-- A quotient, if the divisor is not 0. -/
def quotient (a b : K) : Option K := if b = 0 then none else some (a / b)

/-! ## The direction -/

structure DirectionRegionTester (K : Type*) where
  V1x : K
  V1y : K
  ori_x : K
  ori_y : K
  dx : K
  dy : K
  c : K
  thickness : K
  denominator : K

namespace DirectionRegionTester

/-- The constructor. -/
def new : DirectionRegionTester K := ⟨0, 0, 0, 0, 0, 0, 0, 0, 0⟩

def init (sqrt : K → K) (T : DirectionRegionTester K) (OriginalPos TargetPos : Position K) (RegionProperty : K) :
    Option (DirectionRegionTester K) :=
  let dx := TargetPos.m_positionX - OriginalPos.m_positionX
  let dy := TargetPos.m_positionY - OriginalPos.m_positionY
  let _V1x := TargetPos.m_positionX - OriginalPos.m_positionX
  let _V1y := TargetPos.m_positionY - OriginalPos.m_positionY
  let m := sqrt (_V1x * _V1x + _V1y * _V1y)
  (quotient _V1x m).bind fun V1x => (quotient _V1y m).map fun V1y =>
    { T with
      dx := dx
      dy := dy
      c := dy * OriginalPos.m_positionX - dx * OriginalPos.m_positionY
      denominator := sqrt (dx * dx + dy * dy)
      thickness := RegionProperty * 12 / 2
      V1x := V1x
      V1y := V1y
      ori_x := OriginalPos.m_positionX
      ori_y := OriginalPos.m_positionY }

/-- Whether a position near the line lies ahead. -/
def isAhead (sqrt : K → K) (T : DirectionRegionTester K) (pos : Position K) : Option Bool :=
  let _V2x := pos.m_positionX - T.ori_x
  let _V2y := pos.m_positionY - T.ori_y
  let m := sqrt (_V2x * _V2x + _V2y * _V2y)
  (quotient _V2x m).bind fun V2x => (quotient _V2y m).map fun V2y => decide (0 ≤ T.V1x * V2x + T.V1y * V2y)

def isInRegion (sqrt : K → K) (T : DirectionRegionTester K) (pos : Position K) : Option Bool :=
  (quotient |-T.dy * pos.m_positionX + T.dx * pos.m_positionY + T.c| T.denominator).bind fun dist =>
    if T.thickness > dist then T.isAhead sqrt pos else some false

end DirectionRegionTester

/-! ## The cross -/

structure CrossRegionTester (K : Type*) where
  x1 : K
  y1 : K
  c1 : K
  x2 : K
  y2 : K
  c2 : K
  thickness : K
  denominator : K

namespace CrossRegionTester

def new : CrossRegionTester K := ⟨0, 0, 0, 0, 0, 0, 0, 0⟩

/-- The constant of the second line is assigned to `c1` too, and `c2` is left as it was. -/
def init (sqrt : K → K) (T : CrossRegionTester K) (OriginalPos TargetPos : Position K) (RegionProperty : K) :
    CrossRegionTester K :=
  let x1 := TargetPos.m_positionY - OriginalPos.m_positionY
  let y1 := OriginalPos.m_positionX - TargetPos.m_positionX
  let x2 := y1
  let y2 := -x1
  { T with
    x1 := x1
    y1 := y1
    x2 := x2
    y2 := y2
    c1 := 0 - x2 * OriginalPos.m_positionX - y2 * OriginalPos.m_positionY
    denominator := sqrt (x1 * x1 + y1 * y1)
    thickness := RegionProperty * 12 / 2 }

/-- The second line is looked at only if the position is not near the first. -/
def isInRegion (T : CrossRegionTester K) (pos : Position K) : Option Bool :=
  (quotient |T.x1 * pos.m_positionX + T.y1 * pos.m_positionY + T.c1| T.denominator).bind fun dist1 =>
    if T.thickness > dist1 then some true
    else (quotient |T.x2 * pos.m_positionX + T.y2 * pos.m_positionY + T.c2| T.denominator).map fun dist2 =>
      decide (T.thickness > dist2)

end CrossRegionTester

/-! ## The answer of a tester -/

inductive RegionShape
  | direction
  | cross
  deriving DecidableEq, Repr

/-- The two testers before `Init`. -/
structure RegionTesters (K : Type*) where
  direction : DirectionRegionTester K
  cross : CrossRegionTester K

namespace RegionTesters

/-- As `EnumSkillTargetsAndCalcDamage` declares them. -/
def new : RegionTesters K := ⟨.new, .new⟩

/-- `Init` and one `IsInRegion`. -/
def answer (sqrt : K → K) (T : RegionTesters K) (OriginalPos TargetPos : Position K) (RegionProperty : K)
    (pos : Position K) : RegionShape → Option Bool
  | .direction => (T.direction.init sqrt OriginalPos TargetPos RegionProperty).bind fun tester =>
      tester.isInRegion sqrt pos
  | .cross => (T.cross.init sqrt OriginalPos TargetPos RegionProperty).isInRegion pos

end RegionTesters

/-! ## What is claimed -/

namespace Position

def xy (p : Position K) : K × K := (p.m_positionX, p.m_positionY)

def translate (p shift : Position K) : Position K :=
  ⟨p.m_positionX + shift.m_positionX, p.m_positionY + shift.m_positionY, p.m_positionZ + shift.m_positionZ⟩

end Position

variable {sqrt : K → K} {o target pos shift : Position K} {RegionProperty : K} {shape : RegionShape}

def halfWidth (RegionProperty : K) : K := RegionProperty * 12 / 2

/-- The way from the origin to the target. -/
def heading (o target : Position K) : K × K := target.xy - o.xy

/-- The region of a shape. -/
def InShape (o target : Position K) (RegionProperty : K) (pos : Position K) : RegionShape → Prop
  | .direction => Near o.xy (heading o target) (halfWidth RegionProperty) pos.xy ∧
      0 ≤ dot (heading o target) (pos.xy - o.xy)
  | .cross => Near o.xy (heading o target) (halfWidth RegionProperty) pos.xy ∨
      Near o.xy (turn (heading o target)) (halfWidth RegionProperty) pos.xy

/-- A tester answers, according to the shape, the same when all is translated, and from what `Init` has set alone. -/
structure RegionRight (sqrt : K → K) (shape : RegionShape) (o target : Position K) (RegionProperty : K)
    (pos shift : Position K) : Prop where
  accepts : ∃ b, RegionTesters.new.answer sqrt o target RegionProperty pos shape = some b ∧
    (b = true ↔ InShape o target RegionProperty pos shape)
  translated : RegionTesters.new.answer sqrt (o.translate shift) (target.translate shift) RegionProperty
      (pos.translate shift) shape = RegionTesters.new.answer sqrt o target RegionProperty pos shape
  fromInit : ∀ T : RegionTesters K, T.answer sqrt o target RegionProperty pos shape =
    RegionTesters.new.answer sqrt o target RegionProperty pos shape

/-- What `IsInRegion` computes of the position for the first line of the cross. -/
def astray (o target pos : Position K) : K := dot (heading o target) o.xy - cross (heading o target) pos.xy

/-- The squares are compared, those of a distance and of the half width, each times the squared length of the way. -/
def within (o target : Position K) (RegionProperty v : K) : Prop :=
  v ^ 2 < halfWidth RegionProperty ^ 2 * dot (heading o target) (heading o target)

/-- For the cross: the position is near the line that goes astray, it is in the cross, and after the translation it is
near one of the two lines of the code. -/
def RegionCareful (o target : Position K) (RegionProperty : K) (pos shift : Position K) : RegionShape → Prop
  | .direction => target.xy ≠ o.xy ∧ pos.xy ≠ o.xy
  | .cross => target.xy ≠ o.xy ∧ within o target RegionProperty (astray o target pos) ∧
      (within o target RegionProperty (cross (heading o target) (pos.xy - o.xy)) ∨
        within o target RegionProperty (dot (heading o target) (pos.xy - o.xy))) ∧
      (within o target RegionProperty (astray (o.translate shift) (target.translate shift) (pos.translate shift)) ∨
        within o target RegionProperty (dot (heading o target) (pos.translate shift).xy))

instance (v : K) : Decidable (within o target RegionProperty v) := inferInstanceAs (Decidable (_ < _))

instance : (shape : RegionShape) → Decidable (RegionCareful o target RegionProperty pos shift shape)
  | .direction => inferInstanceAs (Decidable (_ ∧ _))
  | .cross => inferInstanceAs (Decidable (_ ∧ _ ∧ (_ ∨ _) ∧ (_ ∨ _)))

section Ways

omit [LinearOrder K]

theorem heading_ne_zero : heading o target ≠ 0 ↔ target.xy ≠ o.xy := sub_ne_zero

@[simp]
theorem heading_translate : heading (o.translate shift) (target.translate shift) = heading o target := by
  unfold heading Position.xy Position.translate
  simp

theorem way_translate : (pos.translate shift).xy - (o.translate shift).xy = pos.xy - o.xy := by
  unfold Position.xy Position.translate
  simp

end Ways

/-! ## The square root -/

theorem quotient_zero (a : K) : quotient a 0 = none := if_pos rfl

theorem quotient_of_ne {a b : K} (hb : b ≠ 0) : quotient a b = some (a / b) := if_neg hb

theorem root_zero (hsqrt : SquareRoot sqrt) : sqrt 0 = 0 := mul_self_eq_zero.mp (hsqrt.mul_self 0 le_rfl)

theorem root_pos (hsqrt : SquareRoot sqrt) {x : K} (hx : 0 < x) : 0 < sqrt x := by
  refine lt_of_le_of_ne (hsqrt.nonneg x) fun h => hx.ne ?_
  rw [← hsqrt.mul_self x hx.le, ← h, mul_zero]

variable [IsStrictOrderedRing K] {d w : K × K} {v θ : K}

/-- A length is less than a bound if its square is. -/
theorem div_root_lt_iff (hsqrt : SquareRoot sqrt) (hd : d ≠ 0) (hθ : 0 < θ) :
    |v| / sqrt (dot d d) < θ ↔ v ^ 2 < θ ^ 2 * dot d d := by
  have hpos := dot_self_pos hd
  have hbound : 0 < θ * sqrt (dot d d) := mul_pos hθ (root_pos hsqrt hpos)
  have hsquare : (θ * sqrt (dot d d)) ^ 2 = θ ^ 2 * dot d d := by
    rw [mul_pow, sq (sqrt _), hsqrt.mul_self _ hpos.le]
  calc |v| / sqrt (dot d d) < θ ↔ |v| < θ * sqrt (dot d d) := div_lt_iff₀ (root_pos hsqrt hpos)
    _ ↔ |v| < |θ * sqrt (dot d d)| := by rw [abs_of_pos hbound]
    _ ↔ v ^ 2 < (θ * sqrt (dot d d)) ^ 2 := sq_lt_sq.symm
    _ ↔ v ^ 2 < θ ^ 2 * dot d d := by rw [hsquare]

theorem halfWidth_pos (hprop : 0 < RegionProperty) : 0 < halfWidth RegionProperty := by
  unfold halfWidth
  linarith

/-! ## The direction -/

/-- The scalar product of the two unit vectors has the sign of that of the ways. -/
theorem unit_product_nonneg_iff (hsqrt : SquareRoot sqrt) (hd : d ≠ 0) (hw : w ≠ 0) :
    0 ≤ d.1 / sqrt (dot d d) * (w.1 / sqrt (dot w w)) + d.2 / sqrt (dot d d) * (w.2 / sqrt (dot w w)) ↔
      0 ≤ dot d w := by
  have hlengths : 0 < sqrt (dot d d) * sqrt (dot w w) :=
    mul_pos (root_pos hsqrt (dot_self_pos hd)) (root_pos hsqrt (dot_self_pos hw))
  have hproduct : d.1 / sqrt (dot d d) * (w.1 / sqrt (dot w w)) + d.2 / sqrt (dot d d) * (w.2 / sqrt (dot w w)) =
      dot d w / (sqrt (dot d d) * sqrt (dot w w)) := by
    rw [div_mul_div_comm, div_mul_div_comm, ← add_div]
    rfl
  rw [hproduct]
  constructor
  · intro h
    have := mul_nonneg h hlengths.le
    rwa [div_mul_cancel₀ _ hlengths.ne'] at this
  · intro h
    exact div_nonneg h hlengths.le

namespace DirectionRegionTester

variable {T : DirectionRegionTester K}

theorem init_self (hsqrt : SquareRoot sqrt) (h : target.xy = o.xy) : T.init sqrt o target RegionProperty = none := by
  have hroot : sqrt (dot (heading o target) (heading o target)) = 0 := by
    rw [heading, sub_eq_zero.mpr h, dot_self_eq_zero.mpr rfl, root_zero hsqrt]
  unfold init
  dsimp only
  change ((quotient _ (sqrt (dot (heading o target) (heading o target)))).bind _) = none
  rw [hroot, quotient_zero]
  rfl

theorem init_eq (hsqrt : SquareRoot sqrt) (h : target.xy ≠ o.xy) : T.init sqrt o target RegionProperty = some
    { V1x := (heading o target).1 / sqrt (dot (heading o target) (heading o target))
      V1y := (heading o target).2 / sqrt (dot (heading o target) (heading o target))
      ori_x := o.m_positionX
      ori_y := o.m_positionY
      dx := (heading o target).1
      dy := (heading o target).2
      c := (heading o target).2 * o.m_positionX - (heading o target).1 * o.m_positionY
      thickness := halfWidth RegionProperty
      denominator := sqrt (dot (heading o target) (heading o target)) } := by
  have hroot := (root_pos hsqrt (dot_self_pos (heading_ne_zero.mpr h))).ne'
  unfold init
  dsimp only
  change ((quotient _ (sqrt (dot (heading o target) (heading o target)))).bind fun _ =>
    (quotient _ (sqrt (dot (heading o target) (heading o target)))).map _) = _
  rw [quotient_of_ne hroot, quotient_of_ne hroot]
  rfl

theorem isAhead_eq (hsqrt : SquareRoot sqrt) (hd : d ≠ 0) (hV1x : T.V1x = d.1 / sqrt (dot d d))
    (hV1y : T.V1y = d.2 / sqrt (dot d d)) (hori : (T.ori_x, T.ori_y) = o.xy) :
    T.isAhead sqrt pos = if pos.xy = o.xy then none else some (decide (0 ≤ dot d (pos.xy - o.xy))) := by
  have hx : T.ori_x = o.m_positionX := congrArg Prod.fst hori
  have hy : T.ori_y = o.m_positionY := congrArg Prod.snd hori
  unfold isAhead
  rw [hx, hy]
  change ((quotient _ (sqrt (dot (pos.xy - o.xy) (pos.xy - o.xy)))).bind fun _ =>
    (quotient _ (sqrt (dot (pos.xy - o.xy) (pos.xy - o.xy)))).map _) = _
  split_ifs with hself
  · rw [dot_self_eq_zero.mpr (sub_eq_zero.mpr hself), root_zero hsqrt, quotient_zero]
    rfl
  · have hw : pos.xy - o.xy ≠ 0 := sub_ne_zero.mpr hself
    have hroot := (root_pos hsqrt (dot_self_pos hw)).ne'
    rw [quotient_of_ne hroot, quotient_of_ne hroot, hV1x, hV1y]
    exact congrArg some (decide_eq_decide.mpr (unit_product_nonneg_iff hsqrt hd hw))

end DirectionRegionTester

theorem answer_direction_self (hsqrt : SquareRoot sqrt) (T : RegionTesters K) (h : target.xy = o.xy) :
    T.answer sqrt o target RegionProperty pos .direction = none := by
  unfold RegionTesters.answer
  rw [DirectionRegionTester.init_self hsqrt h]
  rfl

/-- The direction tester, its divisions taken away. -/
theorem answer_direction (hsqrt : SquareRoot sqrt) (hprop : 0 < RegionProperty) (T : RegionTesters K)
    (h : target.xy ≠ o.xy) :
    T.answer sqrt o target RegionProperty pos .direction =
      if within o target RegionProperty (cross (heading o target) (pos.xy - o.xy)) then
        if pos.xy = o.xy then none else some (decide (0 ≤ dot (heading o target) (pos.xy - o.xy)))
      else some false := by
  have hd : heading o target ≠ 0 := heading_ne_zero.mpr h
  have hline : -(heading o target).2 * pos.m_positionX + (heading o target).1 * pos.m_positionY +
      ((heading o target).2 * o.m_positionX - (heading o target).1 * o.m_positionY) =
        cross (heading o target) (pos.xy - o.xy) := by
    unfold cross Position.xy
    dsimp only [Prod.fst_sub, Prod.snd_sub]
    ring
  unfold RegionTesters.answer
  rw [DirectionRegionTester.init_eq hsqrt h, Option.bind_some]
  unfold DirectionRegionTester.isInRegion
  dsimp only
  rw [quotient_of_ne (root_pos hsqrt (dot_self_pos hd)).ne', Option.bind_some, hline,
    DirectionRegionTester.isAhead_eq hsqrt hd rfl rfl rfl]
  exact if_congr (div_root_lt_iff hsqrt hd (halfWidth_pos hprop)) rfl rfl

/-! ## The cross -/

omit [IsStrictOrderedRing K] in
theorem answer_cross_self (hsqrt : SquareRoot sqrt) (T : RegionTesters K) (h : target.xy = o.xy) :
    T.answer sqrt o target RegionProperty pos .cross = none := by
  have hx : target.m_positionX = o.m_positionX := congrArg Prod.fst h
  have hy : target.m_positionY = o.m_positionY := congrArg Prod.snd h
  unfold RegionTesters.answer CrossRegionTester.init CrossRegionTester.isInRegion
  dsimp only
  rw [hx, hy, sub_self, sub_self, mul_zero, add_zero, root_zero hsqrt, quotient_zero]
  rfl

/-- The cross tester, its divisions taken away; it reads `c2` as it was before `Init`. -/
theorem answer_cross (hsqrt : SquareRoot sqrt) (hprop : 0 < RegionProperty) (T : RegionTesters K)
    (h : target.xy ≠ o.xy) :
    T.answer sqrt o target RegionProperty pos .cross =
      some (decide (within o target RegionProperty (astray o target pos) ∨
        within o target RegionProperty (T.cross.c2 - dot (heading o target) pos.xy))) := by
  have hd : heading o target ≠ 0 := heading_ne_zero.mpr h
  have hfirst : (target.m_positionY - o.m_positionY) * pos.m_positionX + (o.m_positionX - target.m_positionX) *
      pos.m_positionY + (0 - (o.m_positionX - target.m_positionX) * o.m_positionX -
        -(target.m_positionY - o.m_positionY) * o.m_positionY) = astray o target pos := by
    unfold astray dot cross heading Position.xy
    dsimp only [Prod.fst_sub, Prod.snd_sub]
    ring
  have hsecond : (o.m_positionX - target.m_positionX) * pos.m_positionX + -(target.m_positionY - o.m_positionY) *
      pos.m_positionY + T.cross.c2 = T.cross.c2 - dot (heading o target) pos.xy := by
    unfold dot heading Position.xy
    dsimp only [Prod.fst_sub, Prod.snd_sub]
    ring
  have hlength : (target.m_positionY - o.m_positionY) * (target.m_positionY - o.m_positionY) +
      (o.m_positionX - target.m_positionX) * (o.m_positionX - target.m_positionX) =
        dot (heading o target) (heading o target) := by
    unfold dot heading Position.xy
    dsimp only [Prod.fst_sub, Prod.snd_sub]
    ring
  have hnear : ∀ v, RegionProperty * 12 / 2 > |v| / sqrt (dot (heading o target) (heading o target)) ↔
      within o target RegionProperty v := fun v => div_root_lt_iff hsqrt hd (halfWidth_pos hprop)
  have hroot := (root_pos hsqrt (dot_self_pos hd)).ne'
  unfold RegionTesters.answer CrossRegionTester.init CrossRegionTester.isInRegion
  dsimp only
  rw [hfirst, hsecond, hlength, quotient_of_ne hroot, quotient_of_ne hroot, Option.bind_some, Option.map_some]
  simp only [hnear]
  by_cases hastray : within o target RegionProperty (astray o target pos)
  · rw [if_pos hastray, decide_eq_true (Or.inl hastray)]
  · rw [if_neg hastray]
    exact congrArg some (decide_eq_decide.mpr (or_iff_right hastray).symm)

/-! ## The regions -/

theorem near_heading_iff (h : target.xy ≠ o.xy) : Near o.xy (heading o target) (halfWidth RegionProperty) pos.xy ↔
    within o target RegionProperty (cross (heading o target) (pos.xy - o.xy)) :=
  near_iff (heading_ne_zero.mpr h)

theorem near_turn_iff (h : target.xy ≠ o.xy) :
    Near o.xy (turn (heading o target)) (halfWidth RegionProperty) pos.xy ↔
      within o target RegionProperty (dot (heading o target) (pos.xy - o.xy)) := by
  have hturn : turn (heading o target) ≠ 0 := by
    intro hturn
    have hpos := dot_self_pos (heading_ne_zero.mpr h)
    rw [← dot_turn, hturn, dot_self_eq_zero.mpr rfl] at hpos
    exact hpos.false
  rw [near_iff hturn, cross_turn, dot_turn]
  rfl

omit [LinearOrder K] [IsStrictOrderedRing K] in
theorem translate_eq_iff (p q : Position K) : (p.translate shift).xy = (q.translate shift).xy ↔ p.xy = q.xy := by
  rw [← sub_eq_zero, way_translate, sub_eq_zero]

omit [IsStrictOrderedRing K] in
theorem within_translate {v : K} : within (o.translate shift) (target.translate shift) RegionProperty v ↔
    within o target RegionProperty v := by
  unfold within
  rw [heading_translate]

/-- Whatever the half width, a large enough `c2` puts the second line out of reach. -/
theorem exists_not_within (o target : Position K) (RegionProperty v : K) :
    ∃ c2, ¬within o target RegionProperty (c2 - v) := by
  refine ⟨v + (halfWidth RegionProperty ^ 2 * dot (heading o target) (heading o target) + 1), ?_⟩
  rw [add_sub_cancel_left]
  unfold within
  have hbound : 0 ≤ halfWidth RegionProperty ^ 2 * dot (heading o target) (heading o target) :=
    mul_nonneg (sq_nonneg _) (add_nonneg (mul_self_nonneg _) (mul_self_nonneg _))
  nlinarith

theorem within_zero (hprop : 0 < RegionProperty) (h : target.xy ≠ o.xy) : within o target RegionProperty 0 := by
  unfold within
  rw [zero_pow two_ne_zero]
  exact mul_pos (pow_pos (halfWidth_pos hprop) 2) (dot_self_pos (heading_ne_zero.mpr h))

theorem directionRight_iff (hsqrt : SquareRoot sqrt) (hprop : 0 < RegionProperty) :
    RegionRight sqrt .direction o target RegionProperty pos shift ↔
      RegionCareful o target RegionProperty pos shift .direction := by
  constructor
  · intro hright
    obtain ⟨b, hb, _⟩ := hright.accepts
    have htarget : target.xy ≠ o.xy := by
      intro h
      rw [answer_direction_self hsqrt _ h] at hb
      cases hb
    refine ⟨htarget, fun hpos => ?_⟩
    have hzero : cross (heading o target) (pos.xy - o.xy) = 0 := by
      rw [hpos, sub_self, cross, Prod.fst_zero, Prod.snd_zero, mul_zero, mul_zero, sub_zero]
    rw [answer_direction hsqrt hprop _ htarget, hzero, if_pos (within_zero hprop htarget), if_pos hpos] at hb
    cases hb
  · rintro ⟨htarget, hpos⟩
    refine ⟨?_, ?_, fun T => ?_⟩
    · rw [answer_direction hsqrt hprop _ htarget, if_neg hpos]
      unfold InShape
      rw [near_heading_iff htarget]
      split_ifs with hnear
      · exact ⟨_, rfl, decide_eq_true_iff.trans (and_iff_right hnear).symm⟩
      · exact ⟨false, rfl, iff_of_false Bool.false_ne_true fun h => hnear h.1⟩
    · rw [answer_direction hsqrt hprop _ htarget,
        answer_direction hsqrt hprop _ ((translate_eq_iff target o).not.mpr htarget)]
      rw [heading_translate, way_translate]
      exact if_congr within_translate (if_congr (translate_eq_iff pos o) rfl rfl) rfl
    · rw [answer_direction hsqrt hprop _ htarget, answer_direction hsqrt hprop _ htarget]

theorem crossRight_iff (hsqrt : SquareRoot sqrt) (hprop : 0 < RegionProperty) :
    RegionRight sqrt .cross o target RegionProperty pos shift ↔
      RegionCareful o target RegionProperty pos shift .cross := by
  by_cases htarget : target.xy = o.xy
  · refine iff_of_false (fun hright => ?_) fun hcareful => hcareful.1 htarget
    obtain ⟨b, hb, _⟩ := hright.accepts
    rw [answer_cross_self hsqrt _ htarget] at hb
    cases hb
  have hshifted : (target.translate shift).xy ≠ (o.translate shift).xy := (translate_eq_iff target o).not.mpr htarget
  have hshape : InShape o target RegionProperty pos .cross ↔
      within o target RegionProperty (cross (heading o target) (pos.xy - o.xy)) ∨
        within o target RegionProperty (dot (heading o target) (pos.xy - o.xy)) :=
    or_congr (near_heading_iff htarget) (near_turn_iff htarget)
  have hsquare : ∀ v : K, within o target RegionProperty (0 - v) ↔ within o target RegionProperty v := fun v => by
    unfold within
    rw [zero_sub, neg_sq]
  have hnew : (RegionTesters.new : RegionTesters K).cross.c2 = 0 := rfl
  constructor
  · intro hright
    -- The second line is not looked at: otherwise the answer would depend on `c2`.
    have hastray : within o target RegionProperty (astray o target pos) := by
      by_contra hfar
      obtain ⟨far, hnot⟩ := exists_not_within o target RegionProperty (dot (heading o target) pos.xy)
      have hhit := hright.fromInit ⟨.new, { CrossRegionTester.new with c2 := dot (heading o target) pos.xy }⟩
      have hmiss := hright.fromInit ⟨.new, { CrossRegionTester.new with c2 := far }⟩
      rw [← hmiss, answer_cross hsqrt hprop _ htarget, answer_cross hsqrt hprop _ htarget] at hhit
      dsimp only at hhit
      rw [Option.some.injEq, decide_eq_decide, sub_self, or_iff_right hfar, or_iff_right hfar] at hhit
      exact hnot (hhit.mp (within_zero hprop htarget))
    obtain ⟨b, hb, hiff⟩ := hright.accepts
    have htranslated := hright.translated
    rw [answer_cross hsqrt hprop _ htarget, decide_eq_true (Or.inl hastray)] at hb htranslated
    rw [answer_cross hsqrt hprop _ hshifted, Option.some.injEq, decide_eq_true_iff, hnew, heading_translate,
      within_translate, within_translate, hsquare] at htranslated
    exact ⟨htarget, hastray, hshape.mp (hiff.mp (Option.some.inj hb).symm), htranslated⟩
  · rintro ⟨_, hastray, hcross, hshift⟩
    have hanswer : ∀ T : RegionTesters K, T.answer sqrt o target RegionProperty pos .cross = some true := fun T => by
      rw [answer_cross hsqrt hprop _ htarget, decide_eq_true (Or.inl hastray)]
    refine ⟨⟨true, hanswer _, iff_of_true rfl (hshape.mpr hcross)⟩, ?_, fun T => ?_⟩
    · rw [hanswer, answer_cross hsqrt hprop _ hshifted, Option.some.injEq, decide_eq_true_iff, hnew, heading_translate,
        within_translate, within_translate, hsquare]
      exact hshift
    · rw [hanswer, hanswer]

theorem regionRight_iff (hsqrt : SquareRoot sqrt) (hprop : 0 < RegionProperty) (shape : RegionShape)
    (o target pos shift : Position K) : RegionRight sqrt shape o target RegionProperty pos shift ↔
      RegionCareful o target RegionProperty pos shift shape := by
  cases shape with
  | direction => exact directionRight_iff hsqrt hprop
  | cross => exact crossRight_iff hsqrt hprop

/-- A unit five steps ahead of the caster, one step aside. -/
theorem regionRight_ahead : RegionRight Real.sqrt .direction ⟨0, 0, 0⟩ ⟨10, 0, 0⟩ 1 ⟨5, 1, 0⟩ ⟨3, 4, 0⟩ := by
  refine (regionRight_iff ArMoveVector.squareRoot_real one_pos _ _ _ _ _).mpr ⟨?_, ?_⟩
  · intro h
    have := congrArg Prod.fst h
    norm_num [Position.xy] at this
  · intro h
    have := congrArg Prod.fst h
    norm_num [Position.xy] at this

/-- A unit on the line through caster and target is not in the cross, and for one on the caster's place the direction
tester divides by zero. -/
theorem region_astray :
    (¬RegionRight Real.sqrt .cross ⟨100, 0, 0⟩ ⟨110, 0, 0⟩ 1 ⟨150, 0, 0⟩ ⟨0, 0, 0⟩ ∧
      RegionTesters.new.answer Real.sqrt ⟨100, 0, 0⟩ ⟨110, 0, 0⟩ 1 ⟨150, 0, 0⟩ .cross = some false ∧
      InShape (⟨100, 0, 0⟩ : Position ℝ) ⟨110, 0, 0⟩ 1 ⟨150, 0, 0⟩ .cross) ∧
    ¬RegionRight Real.sqrt .direction ⟨100, 0, 0⟩ ⟨110, 0, 0⟩ 1 ⟨100, 0, 0⟩ ⟨0, 0, 0⟩ ∧
      RegionTesters.new.answer Real.sqrt ⟨100, 0, 0⟩ ⟨110, 0, 0⟩ 1 ⟨100, 0, 0⟩ .direction = none := by
  have htarget : (⟨110, 0, 0⟩ : Position ℝ).xy ≠ (⟨100, 0, 0⟩ : Position ℝ).xy := by
    intro h
    have := congrArg Prod.fst h
    norm_num [Position.xy] at this
  have hline : InShape (⟨100, 0, 0⟩ : Position ℝ) ⟨110, 0, 0⟩ 1 ⟨150, 0, 0⟩ .cross := by
    refine Or.inl ((near_heading_iff htarget).mpr ?_)
    norm_num [within, halfWidth, heading, cross, dot, Position.xy]
  have hcross : RegionTesters.new.answer Real.sqrt ⟨100, 0, 0⟩ ⟨110, 0, 0⟩ 1 ⟨150, 0, 0⟩ .cross = some false := by
    rw [answer_cross ArMoveVector.squareRoot_real one_pos _ htarget]
    norm_num [within, halfWidth, heading, astray, cross, dot, Position.xy, RegionTesters.new, CrossRegionTester.new]
  have hself : RegionTesters.new.answer Real.sqrt ⟨100, 0, 0⟩ ⟨110, 0, 0⟩ 1 ⟨100, 0, 0⟩ .direction = none := by
    rw [answer_direction ArMoveVector.squareRoot_real one_pos _ htarget, if_pos, if_pos rfl]
    norm_num [within, halfWidth, heading, cross, dot, Position.xy]
  refine ⟨⟨fun h => ?_, hcross, hline⟩, fun h => ?_, hself⟩
  · obtain ⟨b, hb, hiff⟩ := h.accepts
    rw [hcross] at hb
    exact Bool.false_ne_true ((Option.some.inj hb).trans (hiff.mpr hline))
  · obtain ⟨b, hb, _⟩ := h.accepts
    rw [hself] at hb
    cases hb

end RZEmulator.Chihiro
