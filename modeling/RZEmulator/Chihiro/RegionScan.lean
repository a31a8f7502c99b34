import Mathlib.Data.List.Nodup
import RZEmulator.Chihiro.RegionContainer

/-!
# What the scans miss

The scans of `RegionContainer` against the regions that are visible from one position, or from one of two. Both
leave out the row `bottom`; the scan from two positions subtracts before it compares, so a position in the first
three columns or rows does not count for the border of its box. `oneScan_iff` and `twoScan_iff` say when a scan
is complete all the same.
-/

namespace RZEmulator.Chihiro

namespace RegionContainer

variable (c : RegionContainer)

/-! ## Two positions -/

/-- The unsigned difference `r - 3`. -/
def sub3 (r : Nat) : Nat := (r + 2 ^ 32 - 3) % 2 ^ 32

/-- The first column or row of the scan from two positions; the test for a negative number is none. -/
def left2 (r1 r2 : Nat) : Nat :=
  let left := if sub3 r2 ≥ sub3 r1 then sub3 r1 else sub3 r2
  if left ≤ 0 then 0 else left

def right2 (rx1 rx2 : Nat) : Nat :=
  let right := if rx1 + 3 ≥ rx2 + 3 then rx1 + 3 else rx2 + 3
  if right ≥ c.m_nRegionWidth then c.m_nRegionWidth - 1 else right

def bottom2 (ry1 ry2 : Nat) : Nat :=
  let bottom := if ry1 + 3 ≥ ry2 + 3 then ry1 + 3 else ry2 + 3
  if bottom ≥ c.m_nRegionHeight then c.m_nRegionHeight - 1 else bottom

/-- The regions the loops run over. -/
def scanned2 (r1 r2 : RegionPos) : List RegionPos :=
  (List.range' (left2 r1.x r2.x) (c.right2 r1.x r2.x + 1 - left2 r1.x r2.x)).flatMap fun x =>
    (List.range' (left2 r1.y r2.y) (c.bottom2 r1.y r2.y - left2 r1.y r2.y)).map fun y => ⟨x, y⟩

variable (m_RegionBlock : Nat → Bool) (layer : UInt8)

/-- `RegionContainer::DoEachVisibleRegion` of two positions: the regions the functor is run on. -/
def doEachVisibleRegion2 (r1 r2 : RegionPos) : Option (List RegionPos) :=
  select (fun q => (isVisibleRegion r1 q).bind fun first =>
    if first then some (c.getRegionPtr m_RegionBlock q layer).isSome
    else (isVisibleRegion r2 q).bind fun second =>
      some (second && (c.getRegionPtr m_RegionBlock q layer).isSome)) (c.scanned2 r1 r2)

/-! ## The claims -/

/-- A region of the map that exists. -/
def Present (q : RegionPos) : Prop := c.IsValidRegion q ∧ (c.getRegionPtr m_RegionBlock q layer).isSome

/-- The scan has a result, in which every region that is present and has the property is once, and no other. -/
def Complete (scan : Option (List RegionPos)) (P : RegionPos → Prop) : Prop :=
  ∃ l, scan = some l ∧ l.Nodup ∧ ∀ q, q ∈ l ↔ c.Present m_RegionBlock layer q ∧ P q

end RegionContainer

namespace RegionContainer

variable {c : RegionContainer} {m_RegionBlock : Nat → Bool} {layer : UInt8} {q r r1 r2 : RegionPos}

/-! ## Lists of regions -/

theorem box_nodup (left width top height : Nat) : ((List.range' left width).flatMap fun x =>
    (List.range' top height).map fun y => (⟨x, y⟩ : RegionPos)).Nodup := by
  rw [List.nodup_flatMap]
  constructor
  · intro x _
    apply List.Nodup.map _ List.nodup_range'
    intro y y' h
    exact (RegionPos.mk.inj h).2
  · apply List.Nodup.pairwise_of_forall_ne List.nodup_range'
    intro x _ x' _ hne q hq hq'
    obtain ⟨y, -, rfl⟩ := List.mem_map.mp hq
    obtain ⟨y', -, heq⟩ := List.mem_map.mp hq'
    exact hne (RegionPos.mk.inj heq).1.symm

theorem select_sublist {test : RegionPos → Option Bool} {l l' : List RegionPos} (h : select test l = some l') :
    l'.Sublist l := by
  induction l generalizing l' with
  | nil => exact (Option.some.inj h) ▸ List.Sublist.refl _
  | cons a l ih =>
    obtain ⟨pass, -, h⟩ := Option.bind_eq_some_iff.mp h
    obtain ⟨rest, hrest, h⟩ := Option.bind_eq_some_iff.mp h
    obtain rfl := Option.some.inj h
    split_ifs
    · exact (ih hrest).cons_cons a
    · exact (ih hrest).cons a

/-! ## The tests -/

/-- The test of the code holds where the region is visible. -/
theorem isVisibleRegion_eq_true_iff (hr : c.IsValidRegion r) (hq : c.IsValidRegion q) :
    isVisibleRegion r q = some true ↔ Visible r q := by
  constructor
  · intro htest
    rw [isVisibleRegion_eq hr hq] at htest
    split_ifs at htest
    exact of_decide_eq_true (Option.some.inj htest)
  · intro h
    obtain ⟨hx, hx', hy, hy'⟩ := h.near
    rw [isVisibleRegion_of_near hr hq ⟨hx, hx'⟩ ⟨hy, hy'⟩, decide_eq_true h]

theorem isSome_isVisibleRegion_iff (hr : c.IsValidRegion r) (hq : c.IsValidRegion q) :
    (isVisibleRegion r q).isSome ↔ Fits r q := by
  rw [isVisibleRegion_eq hr hq]
  split_ifs with h
  · exact iff_of_true rfl h
  · exact iff_of_false Bool.false_ne_true h

/-! ## One position -/

/-- **When the scan from a position is complete**: when no visible region is present in the last row. -/
theorem oneScan_iff (hr : c.IsValidRegion r) :
    c.Complete m_RegionBlock layer (c.doEachVisibleRegion m_RegionBlock layer r)
      (fun q => isVisibleRegion r q = some true) ↔
    ∀ q, c.Present m_RegionBlock layer q → Visible r q → q.y ≠ min (r.y + 3) (c.m_nRegionHeight - 1) := by
  obtain ⟨l, hl, hmem⟩ := doEachVisibleRegion_spec m_RegionBlock layer hr
  have hbottom : c.bottom r.y = min (r.y + 3) (c.m_nRegionHeight - 1) := by
    have hpos := c.height_pos
    unfold bottom
    split_ifs <;> omega
  constructor
  · rintro ⟨l', hl', -, hall⟩ q hq hvisible hrow
    obtain rfl := Option.some.inj (hl.symm.trans hl')
    have hin := (hall q).mpr ⟨hq, (isVisibleRegion_eq_true_iff hr hq.1).mpr hvisible⟩
    have hlt := (scanned_iff_of_visible hq.1 hvisible).mp ((hmem q).mp hin).1
    omega
  · intro hrow
    refine ⟨l, hl, (box_nodup ..).sublist (select_sublist hl), fun q => ?_⟩
    rw [hmem]
    constructor
    · rintro ⟨hscanned, hvisible, hblock⟩
      have hvalid := (near_of_scanned hr hscanned).1
      exact ⟨⟨hvalid, hblock⟩, (isVisibleRegion_eq_true_iff hr hvalid).mpr hvisible⟩
    · rintro ⟨hq, htest⟩
      have hvisible := (isVisibleRegion_eq_true_iff hr hq.1).mp htest
      have hne := hrow q hq hvisible
      have hnear := hvisible.near
      have hlt := hq.1.2
      exact ⟨(scanned_iff_of_visible hq.1 hvisible).mpr (by omega), hvisible, hq.2⟩

/-- A map of twelve by twelve regions. -/
def twelveByTwelve : RegionContainer where
  m_nRegionWidth := 12
  m_nRegionHeight := 12
  width_pos := by decide
  height_pos := by decide
  width_le := by decide
  height_le := by decide

theorem not_oneScan_corner : ¬twelveByTwelve.Complete (fun _ => true) 0 (twelveByTwelve.doEachVisibleRegion (fun _ => true) 0 ⟨0, 0⟩)
    (fun q => isVisibleRegion ⟨0, 0⟩ q = some true) := by
  rw [oneScan_iff (by decide)]
  intro hrow
  exact hrow ⟨0, 3⟩ ⟨by decide, rfl⟩ (by decide) (by decide)

/-- The region three rows below the middle of the map is visible and not visited. -/
theorem not_oneScan : ¬ ∀ (c : RegionContainer) m_RegionBlock layer r, c.IsValidRegion r →
    c.Complete m_RegionBlock layer (c.doEachVisibleRegion m_RegionBlock layer r)
      (fun q => isVisibleRegion r q = some true) := by
  intro hall
  obtain ⟨l, hl, -, hmem⟩ := hall twelveByTwelve (fun _ => true) 0 ⟨5, 5⟩ (by decide)
  have hin : (⟨5, 8⟩ : RegionPos) ∈ l := (hmem ⟨5, 8⟩).mpr ⟨⟨by decide, rfl⟩, by decide⟩
  have hscanned : (⟨5, 8⟩ : RegionPos) ∈ twelveByTwelve.scanned ⟨5, 5⟩ := (select_sublist hl).subset hin
  exact absurd hscanned (by decide)

/-! ## Two positions -/

theorem mem_scanned2 : q ∈ c.scanned2 r1 r2 ↔
    (left2 r1.x r2.x ≤ q.x ∧ q.x ≤ c.right2 r1.x r2.x) ∧ left2 r1.y r2.y ≤ q.y ∧ q.y < c.bottom2 r1.y r2.y := by
  unfold scanned2
  simp only [List.mem_flatMap, List.mem_map, List.mem_range'_1]
  constructor
  · rintro ⟨x, hx, y, hy, rfl⟩
    dsimp only
    omega
  · rintro ⟨hx, hy⟩
    exact ⟨q.x, by omega, q.y, by omega, rfl⟩

theorem isValidRegion_of_scanned2 (hq : q ∈ c.scanned2 r1 r2) : c.IsValidRegion q := by
  obtain ⟨⟨-, hx⟩, -, hy⟩ := mem_scanned2.mp hq
  have hwidth := c.width_pos
  have hheight := c.height_pos
  unfold right2 at hx
  unfold bottom2 at hy
  unfold IsValidRegion
  dsimp only at hx hy
  constructor <;> split_ifs at hx hy <;> omega

/-- A region that is visible from one of the positions is neither right of the box nor below its last row. -/
theorem le_of_visible2 (hq : c.IsValidRegion q) (h : Visible r1 q ∨ Visible r2 q) :
    q.x ≤ c.right2 r1.x r2.x ∧ q.y ≤ c.bottom2 r1.y r2.y := by
  obtain ⟨hx, hy⟩ := hq
  have hnear : (q.x ≤ r1.x + 3 ∨ q.x ≤ r2.x + 3) ∧ (q.y ≤ r1.y + 3 ∨ q.y ≤ r2.y + 3) := by
    rcases h with h | h
    · exact ⟨.inl h.near.2.1, .inl h.near.2.2.2⟩
    · exact ⟨.inr h.near.2.1, .inr h.near.2.2.2⟩
  unfold right2 bottom2
  dsimp only
  constructor <;> split_ifs <;> omega

/-- What the scan from two positions visits, where it has a result. -/
theorem mem_doEachVisibleRegion2 (h1 : c.IsValidRegion r1) (h2 : c.IsValidRegion r2) {l : List RegionPos}
    (hl : c.doEachVisibleRegion2 m_RegionBlock layer r1 r2 = some l) :
    q ∈ l ↔ q ∈ c.scanned2 r1 r2 ∧ (Visible r1 q ∨ Visible r2 q) ∧
      (c.getRegionPtr m_RegionBlock q layer).isSome := by
  rw [mem_select hl]
  refine and_congr_right fun hq => ?_
  have hvalid := isValidRegion_of_scanned2 hq
  have hfirst := isVisibleRegion_eq_true_iff h1 hvalid
  have hsecond := isVisibleRegion_eq_true_iff h2 hvalid
  obtain ⟨pass, hpass⟩ := Option.isSome_iff_exists.mp (select_isSome_iff.mp (Option.isSome_of_eq_some hl) q hq)
  obtain ⟨first, hf, hrest⟩ := Option.bind_eq_some_iff.mp hpass
  rw [hf] at hfirst
  rw [hpass]
  cases first with
  | true =>
    rw [if_pos rfl] at hrest
    rw [← hrest]
    simp [hfirst.mp rfl]
  | false =>
    rw [if_neg Bool.false_ne_true] at hrest
    obtain ⟨second, hs, hsame⟩ := Option.bind_eq_some_iff.mp hrest
    rw [hs] at hsecond
    rw [← hsame, ← hfirst, ← hsecond]
    cases second <;> simp

/-- It has a result where no distance overflows. -/
theorem isSome_doEachVisibleRegion2_iff (h1 : c.IsValidRegion r1) (h2 : c.IsValidRegion r2) :
    (c.doEachVisibleRegion2 m_RegionBlock layer r1 r2).isSome ↔
      ∀ q ∈ c.scanned2 r1 r2, Fits r1 q ∧ (Visible r1 q ∨ Fits r2 q) := by
  unfold doEachVisibleRegion2
  rw [select_isSome_iff]
  refine forall_congr' fun q => forall_congr' fun hq => ?_
  have hvalid := isValidRegion_of_scanned2 hq
  rw [← isSome_isVisibleRegion_iff h1 hvalid, ← isSome_isVisibleRegion_iff h2 hvalid,
    ← isVisibleRegion_eq_true_iff h1 hvalid]
  cases isVisibleRegion r1 q with
  | none => simp
  | some first =>
    cases isVisibleRegion r2 q with
    | none => cases first <;> simp
    | some second => cases first <;> simp

/-- **When the scan from two positions is complete**: when no distance overflows and every region that is present
and visible lies in the box, not in its last row. -/
theorem twoScan_iff (h1 : c.IsValidRegion r1) (h2 : c.IsValidRegion r2) :
    c.Complete m_RegionBlock layer (c.doEachVisibleRegion2 m_RegionBlock layer r1 r2)
      (fun q => isVisibleRegion r1 q = some true ∨ isVisibleRegion r2 q = some true) ↔
    (∀ q ∈ c.scanned2 r1 r2, Fits r1 q ∧ (Visible r1 q ∨ Fits r2 q)) ∧
      ∀ q, c.Present m_RegionBlock layer q → Visible r1 q ∨ Visible r2 q →
        left2 r1.x r2.x ≤ q.x ∧ left2 r1.y r2.y ≤ q.y ∧ q.y ≠ min (max r1.y r2.y + 3) (c.m_nRegionHeight - 1) := by
  have hbottom : c.bottom2 r1.y r2.y = min (max r1.y r2.y + 3) (c.m_nRegionHeight - 1) := by
    have hpos := c.height_pos
    unfold bottom2
    dsimp only
    split_ifs <;> omega
  have htest : ∀ q, c.IsValidRegion q →
      ((isVisibleRegion r1 q = some true ∨ isVisibleRegion r2 q = some true) ↔ (Visible r1 q ∨ Visible r2 q)) :=
    fun q hq => or_congr (isVisibleRegion_eq_true_iff h1 hq) (isVisibleRegion_eq_true_iff h2 hq)
  rw [← isSome_doEachVisibleRegion2_iff h1 h2, Option.isSome_iff_exists]
  constructor
  · rintro ⟨l, hl, -, hall⟩
    refine ⟨⟨l, hl⟩, fun q hq hvisible => ?_⟩
    have hin := (hall q).mpr ⟨hq, (htest q hq.1).mpr hvisible⟩
    have hscanned := mem_scanned2.mp ((mem_doEachVisibleRegion2 h1 h2 hl).mp hin).1
    exact ⟨hscanned.1.1, hscanned.2.1, by omega⟩
  · rintro ⟨⟨l, hl⟩, hall⟩
    refine ⟨l, hl, (box_nodup ..).sublist (select_sublist hl), fun q => ?_⟩
    rw [mem_doEachVisibleRegion2 h1 h2 hl]
    constructor
    · rintro ⟨hscanned, hvisible, hblock⟩
      have hvalid := isValidRegion_of_scanned2 hscanned
      exact ⟨⟨hvalid, hblock⟩, (htest q hvalid).mpr hvisible⟩
    · rintro ⟨hq, hpass⟩
      have hvisible := (htest q hq.1).mp hpass
      obtain ⟨hleft, htop, hne⟩ := hall q hq hvisible
      obtain ⟨hright, hrow⟩ := le_of_visible2 hq.1 hvisible
      exact ⟨mem_scanned2.mpr ⟨⟨hleft, hright⟩, htop, by omega⟩, hvisible, hq.2⟩

theorem not_twoScan_middle : ¬twelveByTwelve.Complete (fun _ => true) 0
    (twelveByTwelve.doEachVisibleRegion2 (fun _ => true) 0 ⟨5, 5⟩ ⟨6, 5⟩)
    (fun q => isVisibleRegion ⟨5, 5⟩ q = some true ∨ isVisibleRegion ⟨6, 5⟩ q = some true) := by
  rw [twoScan_iff (by decide) (by decide)]
  rintro ⟨-, hall⟩
  exact (hall ⟨6, 8⟩ ⟨by decide, rfl⟩ (.inr (by decide))).2.2 (by decide)

/-- Near the border the left column of the box is the other position's, so the column of the first position is
not visited. -/
theorem not_twoScan : ¬ ∀ (c : RegionContainer) m_RegionBlock layer r1 r2, c.IsValidRegion r1 → c.IsValidRegion r2 →
    c.Complete m_RegionBlock layer (c.doEachVisibleRegion2 m_RegionBlock layer r1 r2)
      (fun q => isVisibleRegion r1 q = some true ∨ isVisibleRegion r2 q = some true) := by
  intro hall
  obtain ⟨l, hl, -, hmem⟩ := hall twelveByTwelve (fun _ => true) 0 ⟨1, 5⟩ ⟨5, 5⟩ (by decide) (by decide)
  have hin : (⟨1, 5⟩ : RegionPos) ∈ l := (hmem ⟨1, 5⟩).mpr ⟨⟨by decide, rfl⟩, .inl (by decide)⟩
  have hscanned : (⟨1, 5⟩ : RegionPos) ∈ twelveByTwelve.scanned2 ⟨1, 5⟩ ⟨5, 5⟩ := (select_sublist hl).subset hin
  exact absurd hscanned (by decide)

end RegionContainer

end RZEmulator.Chihiro
