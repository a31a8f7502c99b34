import Mathlib.Algebra.Ring.Nat
import RZEmulator.Lib.MachineInt

/-!
# The region container

A map is cut into regions. Objects are announced to each other through two scans of the regions around
an object: `DoEachVisibleRegion` when it enters the map and `DoEachNewRegion` when it changes its
region. Both run over the columns up to `right` and the rows below `bottom`, and skip a region whose
block does not exist. `isVisibleRegion` is the test as the code computes it, on signed 32-bit integers;
`Visible` is what it says as long as nothing overflows (`isVisibleRegion_eq`).
-/

namespace RZEmulator.Chihiro

open Lib

/-- The coordinates of a region. -/
structure RegionPos where
  x : Nat
  y : Nat
deriving DecidableEq, Repr

/-- The sizes `RegionContainer::InitRegion` computes. They are converted from floats that are at least
one, and the largest float below `2 ^ 32` is `2 ^ 32 - 256`. -/
structure RegionContainer where
  m_nRegionWidth : Nat
  m_nRegionHeight : Nat
  width_pos : 0 < m_nRegionWidth
  height_pos : 0 < m_nRegionHeight
  width_le : m_nRegionWidth ≤ 2 ^ 32 - 256
  height_le : m_nRegionHeight ≤ 2 ^ 32 - 256

def REGION_BLOCK_COUNT : Nat := 100

/-- The place of a `Region` in the tables of the container. -/
structure RegionPtr where
  block : Nat
  layer : UInt8
  cell : Nat
deriving DecidableEq, Repr

/-! ## The visibility test -/

/-- `abs((int32_t)(b - a))` of two unsigned numbers. -/
def span (a b : Nat) : Nat := (narrow32 ((b : Int) - a)).natAbs

/-- `RegionContainer::IsVisibleRegion`. Without a result the sum overflows; the absolute value of
`-2 ^ 31`, which does not exist, is among these cases. -/
def isVisibleRegion (p q : RegionPos) : Option Bool :=
  let cx := span p.x q.x
  let cy := span p.y q.y
  let result := if cx ≤ cy then cx + 3 * cy else cy + 3 * cx
  if result < 2 ^ 31 then some (decide (result ≤ 9)) else none

/-- Two regions see each other: their distances in columns and rows, the larger one counted three
times, add up to at most nine. -/
def Visible (p q : RegionPos) : Prop :=
  min ((q.x : Int) - p.x).natAbs ((q.y : Int) - p.y).natAbs +
    3 * max ((q.x : Int) - p.x).natAbs ((q.y : Int) - p.y).natAbs ≤ 9

/-- The visibility test between the two regions stays within 32 bits. -/
def Fits (p q : RegionPos) : Prop :=
  min (span p.x q.x) (span p.y q.y) + 3 * max (span p.x q.x) (span p.y q.y) < 2 ^ 31

instance : DecidableRel Visible := fun _ _ => inferInstanceAs (Decidable (_ ≤ _))

instance : DecidableRel Fits := fun _ _ => inferInstanceAs (Decidable (_ < _))

theorem Visible.symm {p q : RegionPos} (h : Visible p q) : Visible q p := by
  unfold Visible at *
  omega

theorem Visible.near {p q : RegionPos} (h : Visible p q) :
    p.x ≤ q.x + 3 ∧ q.x ≤ p.x + 3 ∧ p.y ≤ q.y + 3 ∧ q.y ≤ p.y + 3 := by
  unfold Visible at h
  omega

namespace RegionContainer

variable (c : RegionContainer)

/-! ## The tables -/

/-- `RegionContainer::IsValidRegion`. -/
def IsValidRegion (p : RegionPos) : Prop := p.x < c.m_nRegionWidth ∧ p.y < c.m_nRegionHeight

instance : DecidablePred c.IsValidRegion := fun _ => inferInstanceAs (Decidable (_ ∧ _))

def m_nRegionBlockWidth : Nat := c.m_nRegionWidth / REGION_BLOCK_COUNT + 1

/-- The place of the region in the block of its hundred columns and rows. -/
def regionAt (p : RegionPos) (layer : UInt8) : RegionPtr where
  block := p.x / REGION_BLOCK_COUNT + p.y / REGION_BLOCK_COUNT * c.m_nRegionBlockWidth
  layer := layer
  cell := p.x % REGION_BLOCK_COUNT + 100 * (p.y % REGION_BLOCK_COUNT)

/-- `RegionContainer::GetRegion`, which makes the region where there is none yet. -/
def getRegion (p : RegionPos) (layer : UInt8) : Option RegionPtr :=
  if c.IsValidRegion p then some (c.regionAt p layer) else none

/-- `RegionContainer::getRegionPtr`: nothing where the block does not exist. Within a block that does
exist the region is made. -/
def getRegionPtr (m_RegionBlock : Nat → Bool) (p : RegionPos) (layer : UInt8) : Option RegionPtr :=
  if m_RegionBlock (c.regionAt p layer).block then some (c.regionAt p layer) else none

/-! ## The scans -/

/-- The first column or row of a scan. -/
def left (r : Nat) : Nat := if r < 3 then 0 else r - 3

/-- The last column of a scan. -/
def right (rx : Nat) : Nat := if c.m_nRegionWidth ≤ rx + 3 then c.m_nRegionWidth - 1 else rx + 3

/-- The row below the last one of a scan. -/
def bottom (ry : Nat) : Nat :=
  if c.m_nRegionHeight ≤ ry + 3 then c.m_nRegionHeight - 1 else ry + 3

/-- The regions the loops run over. The column `right` is among them, the row `bottom` is not. -/
def scanned (r : RegionPos) : List RegionPos :=
  (List.range' (left r.x) (c.right r.x + 1 - left r.x)).flatMap fun x =>
    (List.range' (left r.y) (c.bottom r.y - left r.y)).map fun y => ⟨x, y⟩

/-- The regions of a list that pass a test, which may have no result. -/
def select (test : RegionPos → Option Bool) : List RegionPos → Option (List RegionPos)
  | [] => some []
  | q :: qs =>
    (test q).bind fun pass => (select test qs).bind fun rest =>
      some (if pass then q :: rest else rest)

variable (m_RegionBlock : Nat → Bool) (layer : UInt8)

/-- `RegionContainer::DoEachVisibleRegion`: the regions the functor is run on. -/
def doEachVisibleRegion (r : RegionPos) : Option (List RegionPos) :=
  select (fun q => (isVisibleRegion r q).bind fun now =>
    some (now && (c.getRegionPtr m_RegionBlock q layer).isSome)) (c.scanned r)

/-- `RegionContainer::DoEachNewRegion`: the regions the functor is run on. -/
def doEachNewRegion (r pr : RegionPos) : Option (List RegionPos) :=
  select (fun q => (isVisibleRegion r q).bind fun now =>
    if now then (isVisibleRegion pr q).bind fun before =>
      some (!before && (c.getRegionPtr m_RegionBlock q layer).isSome)
    else some false) (c.scanned r)

end RegionContainer

/-! ## What the test says -/

/-- The difference is exact, or it wraps around and is large all the same. -/
theorem span_eq_or {a b n : Nat} (ha : a < n) (hb : b < n) (hn : n ≤ 2 ^ 32 - 256) :
    span a b = ((b : Int) - a).natAbs ∨ 256 ≤ span a b ∧ 256 ≤ ((b : Int) - a).natAbs := by
  unfold span narrow32
  omega

/-- Where the test has a result it is right: regions so far apart that the difference wraps around are
still hundreds of regions apart after it. -/
theorem isVisibleRegion_eq {c : RegionContainer} {p q : RegionPos} (hp : c.IsValidRegion p)
    (hq : c.IsValidRegion q) :
    isVisibleRegion p q = if Fits p q then some (decide (Visible p q)) else none := by
  have hright : min (span p.x q.x) (span p.y q.y) + 3 * max (span p.x q.x) (span p.y q.y) ≤ 9 ↔
      Visible p q := by
    unfold Visible
    rcases span_eq_or hp.1 hq.1 c.width_le with hx | ⟨hx, hx'⟩
    · rcases span_eq_or hp.2 hq.2 c.height_le with hy | ⟨hy, hy'⟩
      · rw [hx, hy]
      · constructor <;> intro h <;> omega
    · constructor <;> intro h <;> omega
  have hsum : (if span p.x q.x ≤ span p.y q.y then span p.x q.x + 3 * span p.y q.y
      else span p.y q.y + 3 * span p.x q.x) =
      min (span p.x q.x) (span p.y q.y) + 3 * max (span p.x q.x) (span p.y q.y) := by
    split_ifs <;> omega
  unfold isVisibleRegion
  dsimp only
  rw [hsum, decide_eq_decide.mpr hright]
  rfl

/-- Regions at most three apart are tested without an overflow. -/
theorem isVisibleRegion_of_near {c : RegionContainer} {p q : RegionPos} (hp : c.IsValidRegion p)
    (hq : c.IsValidRegion q) (hx : p.x ≤ q.x + 3 ∧ q.x ≤ p.x + 3)
    (hy : p.y ≤ q.y + 3 ∧ q.y ≤ p.y + 3) :
    isVisibleRegion p q = some (decide (Visible p q)) := by
  have hfits : Fits p q := by
    unfold Fits span narrow32
    omega
  rw [isVisibleRegion_eq hp hq, if_pos hfits]

namespace RegionContainer

variable {c : RegionContainer} {m_RegionBlock : Nat → Bool} {layer : UInt8} {p q r pr : RegionPos}

/-- Different regions of the map have different places in the tables. -/
theorem regionAt_inj (hp : c.IsValidRegion p) (hq : c.IsValidRegion q)
    (h : c.regionAt p layer = c.regionAt q layer) : p = q := by
  obtain ⟨hpx, -⟩ := hp
  obtain ⟨hqx, -⟩ := hq
  obtain ⟨hblock, -, hcell⟩ := RegionPtr.mk.inj h
  unfold REGION_BLOCK_COUNT at hblock hcell
  have hp' : p.x / 100 < c.m_nRegionBlockWidth := by
    unfold m_nRegionBlockWidth REGION_BLOCK_COUNT
    omega
  have hq' : q.x / 100 < c.m_nRegionBlockWidth := by
    unfold m_nRegionBlockWidth REGION_BLOCK_COUNT
    omega
  have hx := congrArg (· % c.m_nRegionBlockWidth) hblock
  simp only [Nat.add_mul_mod_self_right, Nat.mod_eq_of_lt hp', Nat.mod_eq_of_lt hq'] at hx
  rw [hx, Nat.add_left_cancel_iff] at hblock
  have hy := Nat.eq_of_mul_eq_mul_right (Nat.zero_lt_of_lt hp') hblock
  cases p
  cases q
  simp only at hx hy hcell
  congr 1 <;> omega

/-! ## What a scan visits -/

theorem mem_scanned :
    q ∈ c.scanned r ↔ (left r.x ≤ q.x ∧ q.x ≤ c.right r.x) ∧ left r.y ≤ q.y ∧ q.y < c.bottom r.y := by
  unfold scanned
  simp only [List.mem_flatMap, List.mem_map, List.mem_range'_1]
  constructor
  · rintro ⟨x, hx, y, hy, rfl⟩
    dsimp only
    omega
  · rintro ⟨hx, hy⟩
    exact ⟨q.x, by omega, q.y, by omega, rfl⟩

/-- A scan stays on the map, within three of its centre. -/
theorem near_of_scanned (hr : c.IsValidRegion r) (hq : q ∈ c.scanned r) :
    c.IsValidRegion q ∧ (r.x ≤ q.x + 3 ∧ q.x ≤ r.x + 3) ∧ r.y ≤ q.y + 3 ∧ q.y ≤ r.y + 3 := by
  obtain ⟨hrx, hry⟩ := hr
  obtain ⟨hx, hy⟩ := mem_scanned.mp hq
  unfold left right at hx
  unfold left bottom at hy
  unfold IsValidRegion
  split_ifs at hx hy <;> omega

/-- **A visible region is scanned exactly if its row is above `bottom`.** -/
theorem scanned_iff_of_visible (hq : c.IsValidRegion q) (h : Visible r q) :
    q ∈ c.scanned r ↔ q.y < c.bottom r.y := by
  obtain ⟨hqx, hqy⟩ := hq
  obtain ⟨h₁, h₂, h₃, h₄⟩ := h.near
  rw [mem_scanned]
  constructor
  · intro hs
    exact hs.2.2
  · intro hy
    refine ⟨⟨?_, ?_⟩, ?_, hy⟩
    · unfold left
      split_ifs <;> omega
    · unfold right
      split_ifs <;> omega
    · unfold left
      split_ifs <;> omega

theorem mem_select {test : RegionPos → Option Bool} {l l' : List RegionPos}
    (h : select test l = some l') : q ∈ l' ↔ q ∈ l ∧ test q = some true := by
  induction l generalizing l' with
  | nil =>
    obtain rfl := Option.some.inj h
    simp
  | cons a l ih =>
    obtain ⟨pass, hpass, h⟩ := Option.bind_eq_some_iff.mp h
    obtain ⟨rest, hrest, h⟩ := Option.bind_eq_some_iff.mp h
    obtain rfl := Option.some.inj h
    have ih := ih hrest
    by_cases hqa : q = a
    · subst hqa
      cases pass with
      | true => simp [hpass]
      | false => simp [hpass, ih]
    · cases pass with
      | true => simp [hqa, ih]
      | false => simp [hqa, ih]

theorem select_isSome_iff {test : RegionPos → Option Bool} {l : List RegionPos} :
    (select test l).isSome ↔ ∀ q ∈ l, (test q).isSome := by
  induction l with
  | nil => simp [select]
  | cons a l ih =>
    rw [List.forall_mem_cons, ← ih, select]
    cases test a with
    | none => simp
    | some pass => cases select test l <;> simp

variable (m_RegionBlock layer) in
/-- The initial scan always has a result and visits the visible regions above `bottom`. -/
theorem doEachVisibleRegion_spec (hr : c.IsValidRegion r) :
    ∃ l, c.doEachVisibleRegion m_RegionBlock layer r = some l ∧ ∀ q, q ∈ l ↔
      q ∈ c.scanned r ∧ Visible r q ∧ (c.getRegionPtr m_RegionBlock q layer).isSome := by
  have htest : ∀ q ∈ c.scanned r, isVisibleRegion r q = some (decide (Visible r q)) := by
    intro q hq
    obtain ⟨hvalid, hx, hy⟩ := near_of_scanned hr hq
    exact isVisibleRegion_of_near hr hvalid hx hy
  have hsome : (c.doEachVisibleRegion m_RegionBlock layer r).isSome := by
    refine select_isSome_iff.mpr fun q hq => ?_
    rw [htest q hq]
    rfl
  obtain ⟨l, hl⟩ := Option.isSome_iff_exists.mp hsome
  refine ⟨l, hl, fun q => ?_⟩
  rw [mem_select hl]
  refine and_congr_right fun hq => ?_
  rw [htest q hq]
  simp

/-- The scan of a step has a result exactly if the visibility from the old region is computed without an
overflow wherever it is asked for. -/
theorem doEachNewRegion_isSome_iff (hr : c.IsValidRegion r) (hpr : c.IsValidRegion pr) :
    (c.doEachNewRegion m_RegionBlock layer r pr).isSome ↔
      ∀ q ∈ c.scanned r, Visible r q → Fits pr q := by
  unfold doEachNewRegion
  rw [select_isSome_iff]
  refine forall_congr' fun q => forall_congr' fun hq => ?_
  obtain ⟨hvalid, hx, hy⟩ := near_of_scanned hr hq
  rw [isVisibleRegion_of_near hr hvalid hx hy, isVisibleRegion_eq hpr hvalid]
  by_cases hv : Visible r q <;> by_cases hf : Fits pr q <;> simp [hv, hf]

/-- Where it has a result it visits the regions above `bottom` that are visible now and were not before. -/
theorem mem_doEachNewRegion (hr : c.IsValidRegion r) (hpr : c.IsValidRegion pr)
    {l : List RegionPos} (hl : c.doEachNewRegion m_RegionBlock layer r pr = some l) :
    q ∈ l ↔ q ∈ c.scanned r ∧ Visible r q ∧ ¬Visible pr q ∧
      (c.getRegionPtr m_RegionBlock q layer).isSome := by
  have hfits := (doEachNewRegion_isSome_iff hr hpr).mp (Option.isSome_of_eq_some hl)
  rw [mem_select hl]
  refine and_congr_right fun hq => ?_
  obtain ⟨hvalid, hx, hy⟩ := near_of_scanned hr hq
  rw [isVisibleRegion_of_near hr hvalid hx hy, isVisibleRegion_eq hpr hvalid]
  by_cases hv : Visible r q
  · rw [if_pos (hfits q hq hv)]
    simp [hv]
  · simp [hv]

end RegionContainer

end RZEmulator.Chihiro
