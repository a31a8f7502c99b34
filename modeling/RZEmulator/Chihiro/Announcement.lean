import RZEmulator.Chihiro.RegionContainer

/-!
# What a travelling object is announced to

An object enters the map in a region and travels from region to region. On its way it visits the regions
of an initial scan and then those of one scan for every step. `Announced` says that the scans reach
every region they should: each step exactly the regions that come into view, and together all the
regions in view. Both scans leave out the row `bottom`, so this holds of a path if and only if no region
of that row, or below it, comes into view on it (`announced_iff`).
-/

namespace RZEmulator.Chihiro

open RegionContainer

/-- A stop of a path: the region, and the blocks that exist when the object gets there. -/
structure Stop where
  pos : RegionPos
  m_RegionBlock : Nat → Bool

/-- A path over the map, with any distance between one stop and the next. -/
structure Path (c : RegionContainer) where
  last : Nat
  stop : Nat → Stop
  valid : ∀ i ≤ last, c.IsValidRegion (stop i).pos

namespace Path

variable {c : RegionContainer} (P : Path c) (layer : UInt8)

/-- The region exists when the object is at the `i`-th stop. -/
def Exists (i : Nat) (q : RegionPos) : Prop :=
  c.IsValidRegion q ∧ (c.getRegionPtr (P.stop i).m_RegionBlock q layer).isSome

/-- The region is visible from the `i`-th stop. -/
def Sees (i : Nat) (q : RegionPos) : Prop := Visible (P.stop i).pos q

/-- The regions visited when the object gets to a stop: `AddObjectFunctor::Run` where it enters the map
and `AddObjectFunctor::Run2` where it has changed its region. -/
def visited : Nat → Option (List RegionPos)
  | 0 => c.doEachVisibleRegion (P.stop 0).m_RegionBlock layer (P.stop 0).pos
  | i + 1 => c.doEachNewRegion (P.stop (i + 1)).m_RegionBlock layer (P.stop (i + 1)).pos (P.stop i).pos

/-- **The announcements of a path are complete.** -/
structure Announced : Prop where
  /-- Each step visits exactly the regions visible from the new stop and not from the old one. -/
  step : ∀ i < P.last, ∃ l, P.visited layer (i + 1) = some l ∧
    ∀ q, q ∈ l ↔ P.Exists layer (i + 1) q ∧ P.Sees (i + 1) q ∧ ¬P.Sees i q
  /-- After each step every visible region has been visited. A region that did not exist while it was
  in view has no object in it. -/
  covers : ∀ i ≤ P.last, ∀ q, c.IsValidRegion q → P.Sees i q →
    (∀ j ≤ i, P.Sees j q → P.Exists layer j q) → ∃ j ≤ i, ∃ l, P.visited layer j = some l ∧ q ∈ l

/-- No region that comes into view on the path lies in the row `bottom` of the scan or below it, and the
distances to the old stop fit into 32 bits. -/
structure ScannedAll : Prop where
  enter : ∀ q, P.Exists layer 0 q → P.Sees 0 q → q.y < c.bottom (P.stop 0).pos.y
  step : ∀ i < P.last, ∀ q, P.Exists layer (i + 1) q → P.Sees (i + 1) q → ¬P.Sees i q →
    q.y < c.bottom (P.stop (i + 1)).pos.y
  fits : ∀ i < P.last, ∀ q, c.IsValidRegion q → P.Sees (i + 1) q →
    q.y < c.bottom (P.stop (i + 1)).pos.y → Fits (P.stop i).pos q

variable {P layer} {i : Nat} {q : RegionPos}

/-- What the scan on entering the map visits. -/
theorem visited_zero (P : Path c) (layer : UInt8) : ∃ l, P.visited layer 0 = some l ∧
    ∀ q, q ∈ l ↔ P.Exists layer 0 q ∧ P.Sees 0 q ∧ q.y < c.bottom (P.stop 0).pos.y := by
  have hvalid := P.valid 0 (Nat.zero_le _)
  obtain ⟨l, hl, hmem⟩ := doEachVisibleRegion_spec (P.stop 0).m_RegionBlock layer hvalid
  refine ⟨l, hl, fun q => ?_⟩
  rw [hmem]
  constructor
  · rintro ⟨hs, hv, he⟩
    have hq := (near_of_scanned hvalid hs).1
    exact ⟨⟨hq, he⟩, hv, (scanned_iff_of_visible hq hv).mp hs⟩
  · rintro ⟨⟨hq, he⟩, hv, hy⟩
    exact ⟨(scanned_iff_of_visible hq hv).mpr hy, hv, he⟩

/-- What the scan of a step visits. -/
theorem mem_visited_succ (hi : i < P.last) {l : List RegionPos}
    (hl : P.visited layer (i + 1) = some l) :
    q ∈ l ↔ P.Exists layer (i + 1) q ∧ (P.Sees (i + 1) q ∧ ¬P.Sees i q) ∧
      q.y < c.bottom (P.stop (i + 1)).pos.y := by
  have hnew := P.valid (i + 1) hi
  rw [mem_doEachNewRegion hnew (P.valid i (Nat.le_of_lt hi)) hl]
  constructor
  · rintro ⟨hs, hv, hn, he⟩
    have hq := (near_of_scanned hnew hs).1
    exact ⟨⟨hq, he⟩, ⟨hv, hn⟩, (scanned_iff_of_visible hq hv).mp hs⟩
  · rintro ⟨⟨hq, he⟩, ⟨hv, hn⟩, hy⟩
    exact ⟨(scanned_iff_of_visible hq hv).mpr hy, hv, hn, he⟩

theorem visited_succ_isSome_iff (hi : i < P.last) :
    (P.visited layer (i + 1)).isSome ↔ ∀ q, c.IsValidRegion q → P.Sees (i + 1) q →
      q.y < c.bottom (P.stop (i + 1)).pos.y → Fits (P.stop i).pos q := by
  have hnew := P.valid (i + 1) hi
  refine (doEachNewRegion_isSome_iff hnew (P.valid i (Nat.le_of_lt hi))).trans ?_
  constructor
  · intro h q hq hv hy
    exact h q ((scanned_iff_of_visible hq hv).mpr hy) hv
  · intro h q hs hv
    have hq := (near_of_scanned hnew hs).1
    exact h q hq hv ((scanned_iff_of_visible hq hv).mp hs)

/-- No scan ever visits the last row of the map. -/
theorem visited_above_last_row (hi : i ≤ P.last) {l : List RegionPos}
    (hl : P.visited layer i = some l) (hq : q ∈ l) : q.y + 1 < c.m_nRegionHeight := by
  have hbottom : ∀ ry, q.y < c.bottom ry → q.y + 1 < c.m_nRegionHeight := by
    intro ry h
    unfold bottom at h
    split_ifs at h <;> omega
  cases i with
  | zero =>
    obtain ⟨l₀, hl₀, hmem⟩ := P.visited_zero layer
    obtain rfl := Option.some.inj (hl₀.symm.trans hl)
    exact hbottom _ ((hmem q).mp hq).2.2
  | succ i => exact hbottom _ ((mem_visited_succ hi hl).mp hq).2.2

/-- If every scan visits what comes into view, then by induction on the stops everything in view has
been visited: a region was in view at the stop before, or it comes into view. -/
theorem covers_of_steps (henter : ∀ q, P.Exists layer 0 q → P.Sees 0 q →
      ∃ l, P.visited layer 0 = some l ∧ q ∈ l)
    (hstep : ∀ i < P.last, ∀ q, P.Exists layer (i + 1) q → P.Sees (i + 1) q → ¬P.Sees i q →
      ∃ l, P.visited layer (i + 1) = some l ∧ q ∈ l)
    (hi : i ≤ P.last) (hsees : P.Sees i q)
    (hexists : ∀ j ≤ i, P.Sees j q → P.Exists layer j q) :
    ∃ j ≤ i, ∃ l, P.visited layer j = some l ∧ q ∈ l := by
  induction i with
  | zero => exact ⟨0, Nat.le_refl _, henter q (hexists 0 (Nat.le_refl _) hsees) hsees⟩
  | succ i ih =>
    by_cases hbefore : P.Sees i q
    · obtain ⟨j, hj, hvisited⟩ := ih (by omega) hbefore fun j hj => hexists j (by omega)
      exact ⟨j, by omega, hvisited⟩
    · have hnow := hexists (i + 1) (Nat.le_refl _) hsees
      exact ⟨i + 1, Nat.le_refl _, hstep i (by omega) q hnow hsees hbefore⟩

/-- **The announcements of a path are complete exactly if** everything that comes into view on it does
so above the row `bottom` of the scan. -/
theorem announced_iff (P : Path c) (layer : UInt8) : P.Announced layer ↔ P.ScannedAll layer := by
  obtain ⟨l₀, hl₀, hmem₀⟩ := P.visited_zero layer
  constructor
  · intro h
    refine ⟨fun q he hv => ?_, fun i hi q he hv hn => ?_, fun i hi => ?_⟩
    · obtain ⟨j, hj, l, hl, hq⟩ := h.covers 0 (Nat.zero_le _) q he.1 hv fun j hj _ => by
        rwa [Nat.le_zero.mp hj]
      rw [Nat.le_zero.mp hj, hl₀] at hl
      obtain rfl := Option.some.inj hl
      exact ((hmem₀ q).mp hq).2.2
    · obtain ⟨l, hl, hmem⟩ := h.step i hi
      have hq := (hmem q).mpr ⟨he, hv, hn⟩
      exact ((mem_visited_succ hi hl).mp hq).2.2
    · obtain ⟨l, hl, -⟩ := h.step i hi
      exact (visited_succ_isSome_iff hi).mp (Option.isSome_of_eq_some hl)
  · intro h
    have hstep : ∀ i < P.last, ∃ l, P.visited layer (i + 1) = some l ∧
        ∀ q, q ∈ l ↔ P.Exists layer (i + 1) q ∧ P.Sees (i + 1) q ∧ ¬P.Sees i q := by
      intro i hi
      obtain ⟨l, hl⟩ := Option.isSome_iff_exists.mp ((visited_succ_isSome_iff hi).mpr (h.fits i hi))
      refine ⟨l, hl, fun q => ?_⟩
      rw [mem_visited_succ hi hl]
      exact and_congr_right fun he => and_iff_left_of_imp fun hv => h.step i hi q he hv.1 hv.2
    refine ⟨hstep, fun i hi q _ hsees hexists => ?_⟩
    refine covers_of_steps (fun q he hv => ⟨l₀, hl₀, ?_⟩) (fun i hi q he hv hn => ?_) hi hsees hexists
    · exact (hmem₀ q).mpr ⟨he, hv, h.enter q he hv⟩
    · obtain ⟨l, hl, hmem⟩ := hstep i hi
      exact ⟨l, hl, (hmem q).mpr ⟨he, hv, hn⟩⟩

/-- A map of ten by ten regions, all of them in one block that exists, and an object that enters it in
the middle: the region three rows below it is in view and not visited. -/
theorem not_announced_below : ∃ P : Path ⟨10, 10, by decide, by decide, by decide, by decide⟩,
    (P.stop 0).pos = ⟨5, 5⟩ ∧ P.Sees 0 ⟨5, 8⟩ ∧ ¬P.Announced 0 := by
  refine ⟨⟨0, fun _ => ⟨⟨5, 5⟩, fun _ => true⟩, fun _ _ => by decide⟩, rfl, by
    show Visible _ _; decide, fun h => ?_⟩
  obtain ⟨j, hj, l, hl, hq⟩ := h.covers 0 (Nat.le_refl _) ⟨5, 8⟩ (by decide)
    (by show Visible _ _; decide) (fun _ _ _ => ⟨by decide, rfl⟩)
  rw [Nat.le_zero.mp hj] at hl
  revert hq
  have hnone : ∀ l', doEachVisibleRegion ⟨10, 10, by decide, by decide, by decide, by decide⟩
      (fun _ => true) 0 ⟨5, 5⟩ = some l' → (⟨5, 8⟩ : RegionPos) ∉ l' := by
    intro l' hl' hmem
    have := ((mem_select hl').mp hmem).1
    revert this
    decide
  exact hnone l hl

end Path

end RZEmulator.Chihiro
