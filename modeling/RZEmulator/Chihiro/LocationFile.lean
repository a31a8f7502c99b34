import RZEmulator.Chihiro.Linef
import RZEmulator.Lib.LittleEndian
import RZEmulator.Lib.MachineInt

/-!
# Location files

`LoadLocationFile` of the map loader. A `ByteBuffer` is the bytes from its read position on, and a read past its end has no result.
Every entry of a file has a header, two texts and its polygons. The place of the file on the map, the rounding of `float` and the Lua
interpreter are parameters.
-/

namespace RZEmulator.Chihiro

open Lib

/-- The floats by their bits. -/
structure LocationInfoHeader where
  nPriority : Int
  x : Int
  y : Int
  z : Int
  fRadius : Int

/-- A `MapLocationInfo` by the arguments of its constructor. -/
structure LocationRegion where
  points : List Pointf
  location_id : Int
  priority : Int
  deriving DecidableEq

structure Maploader (L : Type) where
  buffer : List UInt8
  lua : L
  /-- what `RegisterMapLocationInfo` was called with, in order -/
  registered : List LocationRegion

structure MapPlace (L : Type) where
  x : Int
  y : Int
  fAttrLen : ℚ
  fMapLength : ℚ
  float : ℚ → ℚ
  /-- the interpreter after a script, and `g_currentLocationId`, which was 0 before it -/
  runString : List UInt8 → L → L × Int

namespace ByteBuffer

def readInt32 (b : List UInt8) : Option (Int × List UInt8) :=
  if 4 ≤ b.length then some (ofSignedLE (b.take 4), b.drop 4) else none

def read_skip (skip : Nat) (b : List UInt8) : Option (List UInt8) := if skip ≤ b.length then some (b.drop skip) else none

/-- The string ends with the first zero. -/
def ReadString (length : Nat) (b : List UInt8) : Option (List UInt8 × List UInt8) :=
  if length ≤ b.length then some ((b.take length).takeWhile (· ≠ 0), b.drop length) else none

end ByteBuffer

namespace Maploader

open ByteBuffer

variable {L : Type} (M : MapPlace L)

def readHeader (b : List UInt8) : Option (LocationInfoHeader × List UInt8) := do
  let (nPriority, b) ← readInt32 b
  let (x, b) ← readInt32 b
  let (y, b) ← readInt32 b
  let (z, b) ← readInt32 b
  let (fRadius, b) ← readInt32 b
  return (⟨nPriority, x, y, z, fRadius⟩, b)

/-- `s + (float)v * fAttrLen` -/
def coordinate (s : ℚ) (v : Int) : ℚ := M.float (s + M.float (M.float v * M.fAttrLen))

def sx : ℚ := M.float (M.float M.x * M.fMapLength)

def sy : ℚ := M.float (M.float M.y * M.fMapLength)

/-- The loop over the points; `pt.x` is assigned twice. -/
def loadPoints (g_currentLocationId : Int) : Nat → List Pointf → Maploader L → Option (Maploader L)
  | 0, _, s => some s
  | nPointCount + 1, points, s => do
    let pt : Pointf := ⟨0, 0⟩
    let (v, b) ← readInt32 s.buffer
    let pt := { pt with x := coordinate M (sx M) v }
    let (v, b) ← readInt32 b
    let pt := { pt with x := coordinate M (sy M) v }
    let points := points ++ [pt]
    let location_info : LocationRegion := ⟨points, g_currentLocationId, 0⟩
    loadPoints g_currentLocationId nPointCount points { s with buffer := b, registered := s.registered ++ [location_info] }

def loadPolygons (g_currentLocationId : Int) : Nat → Maploader L → Option (Maploader L)
  | 0, s => some s
  | nPolygonCount + 1, s => do
    let (nPointCount, b) ← readInt32 s.buffer
    let s ← loadPoints M g_currentLocationId nPointCount.toNat [] { s with buffer := b }
    loadPolygons g_currentLocationId nPolygonCount s

/-- The first text of an entry is not used. -/
def skipText (b : List UInt8) : Option (List UInt8) := do
  let (nCharSize, b) ← readInt32 b
  if nCharSize > 1 then read_skip nCharSize.toNat b else return b

/-- The loop over the entries, once. -/
def loadEntry (s : Maploader L) : Option (Maploader L) := do
  let (_lih, b) ← readHeader s.buffer
  let b ← skipText b
  let (nCharSize, b) ← readInt32 b
  if nCharSize ≤ 1 then return { s with buffer := b }
  let (script, b) ← ReadString nCharSize.toNat b
  let (lua, g_currentLocationId) := M.runString script s.lua
  if g_currentLocationId = 0 then return { s with buffer := b, lua := lua }
  let (nPolygonCount, b) ← readInt32 b
  loadPolygons M g_currentLocationId nPolygonCount.toNat { s with buffer := b, lua := lua }

def loadEntries : Nat → Maploader L → Option (Maploader L)
  | 0, s => some s
  | n + 1, s => (loadEntry M s).bind (loadEntries n)

def LoadLocationFile (file : List UInt8) (lua : L) : Option (Maploader L) := do
  let (total_entries, b) ← readInt32 file
  loadEntries M total_entries.toNat ⟨b, lua, []⟩

end Maploader

/-! ## Files -/

structure FilePoint where
  x : Int
  y : Int
  isInt32_x : IsInt32 x
  isInt32_y : IsInt32 y

structure FilePolygon where
  points : List FilePoint
  isInt32 : IsInt32 points.length

/-- A text and its size; a size of at most 1 has no bytes. -/
structure FileText where
  nCharSize : Int
  bytes : List UInt8
  isInt32 : IsInt32 nCharSize
  length : bytes.length = if nCharSize > 1 then nCharSize.toNat else 0

structure FileEntry where
  lih : LocationInfoHeader
  name : FileText
  script : FileText
  polygons : List FilePolygon
  isInt32 : IsInt32 polygons.length

structure LocationFile where
  entries : List FileEntry
  isInt32 : IsInt32 entries.length

def LocationInfoHeader.encode (h : LocationInfoHeader) : List UInt8 :=
  toLE 4 h.nPriority ++ toLE 4 h.x ++ toLE 4 h.y ++ toLE 4 h.z ++ toLE 4 h.fRadius

def FilePoint.encode (p : FilePoint) : List UInt8 := toLE 4 p.x ++ toLE 4 p.y

def FilePolygon.encode (p : FilePolygon) : List UInt8 := toLE 4 p.points.length ++ p.points.flatMap FilePoint.encode

def FileText.encode (t : FileText) : List UInt8 := toLE 4 t.nCharSize ++ t.bytes

/-- The bytes of an entry after its texts. -/
def FileEntry.encodePolygons (e : FileEntry) : List UInt8 := toLE 4 e.polygons.length ++ e.polygons.flatMap FilePolygon.encode

def FileEntry.encode (e : FileEntry) : List UInt8 := e.lih.encode ++ e.name.encode ++ e.script.encode ++ e.encodePolygons

def LocationFile.encode (f : LocationFile) : List UInt8 := toLE 4 f.entries.length ++ f.entries.flatMap FileEntry.encode

/-- The script of an entry as `ReadString` returns it. -/
def FileEntry.scriptText (e : FileEntry) : List UInt8 := e.script.bytes.takeWhile (· ≠ 0)

namespace MapPlace

variable {L : Type} (M : MapPlace L)

/-- The entry has a script that names a location. -/
def Accepts (e : FileEntry) (lua : L) : Prop := 1 < e.script.nCharSize ∧ (M.runString e.scriptText lua).2 ≠ 0

instance (e : FileEntry) (lua : L) : Decidable (M.Accepts e lua) := inferInstanceAs (Decidable (_ ∧ _))

/-- The interpreter after an entry. -/
def luaAfter (e : FileEntry) (lua : L) : L := if 1 < e.script.nCharSize then (M.runString e.scriptText lua).1 else lua

/-- The points of a polygon on the map. -/
def polygonPoints (p : FilePolygon) : List Pointf :=
  p.points.map fun q => ⟨Maploader.coordinate M (Maploader.sx M) q.x, Maploader.coordinate M (Maploader.sy M) q.y⟩

/-- One region for each polygon of the entries that are accepted. -/
def regions : List FileEntry → L → List (List Pointf)
  | [], _ => []
  | e :: es, lua => (if M.Accepts e lua then e.polygons.map M.polygonPoints else []) ++ regions es (M.luaAfter e lua)

/-- The loop reads entry by entry and has registered the regions of the entries read. -/
def ReadsEntries (es : List FileEntry) (s : Maploader L) : Prop :=
  ∀ k ≤ es.length, ∃ t, Maploader.loadEntries M k s = some t ∧ t.buffer = (es.drop k).flatMap FileEntry.encode ∧
    t.registered.map LocationRegion.points = s.registered.map LocationRegion.points ++ M.regions (es.take k) s.lua

/-- The file is read to its end, entry by entry, with one region for each accepted polygon. -/
def LoadsRight (f : LocationFile) (lua : L) : Prop :=
  (∃ t, Maploader.LoadLocationFile M f.encode lua = some t ∧ t.buffer = [] ∧
    t.registered.map LocationRegion.points = M.regions f.entries lua) ∧
  M.ReadsEntries f.entries ⟨f.entries.flatMap FileEntry.encode, lua, []⟩

/-- A polygon of a single point, which lies at the origin. -/
def AtOrigin (p : FilePolygon) : Prop :=
  ∃ q, p.points = [q] ∧ Maploader.coordinate M (Maploader.sx M) q.x = 0 ∧ Maploader.coordinate M (Maploader.sy M) q.y = 0

/-- Every entry is accepted, and every polygon is the single point at the origin. -/
def Plain : List FileEntry → L → Prop
  | [], _ => True
  | e :: es, lua => M.Accepts e lua ∧ (∀ p ∈ e.polygons, M.AtOrigin p) ∧ Plain es (M.luaAfter e lua)

end MapPlace

/-! ## Reading what a file has -/

namespace ByteBuffer

variable {n : Int} (rest : List UInt8)

theorem readInt32_append {b : List UInt8} (h : b.length = 4) : readInt32 (b ++ rest) = some (ofSignedLE b, rest) := by
  rw [readInt32, if_pos (by rw [List.length_append]; omega), List.take_left' h, List.drop_left' h]

theorem readInt32_toLE (h : IsInt32 n) : readInt32 (toLE 4 n ++ rest) = some (n, rest) := by
  rw [readInt32_append rest (length_toLE 4 n), ofSignedLE_toLE (by omega) (by omega)]

theorem read_skip_append (b : List UInt8) : read_skip b.length (b ++ rest) = some rest := by
  rw [read_skip, if_pos (by rw [List.length_append]; omega), List.drop_left]

theorem ReadString_append (b : List UInt8) : ReadString b.length (b ++ rest) = some (b.takeWhile (· ≠ 0), rest) := by
  rw [ReadString, if_pos (by rw [List.length_append]; omega), List.take_left, List.drop_left]

end ByteBuffer

namespace Maploader

open ByteBuffer

variable {L : Type} {M : MapPlace L} {lua : L} {registered : List LocationRegion} (rest : List UInt8)

theorem readHeader_encode (h : LocationInfoHeader) : ∃ lih, readHeader (h.encode ++ rest) = some (lih, rest) := by
  refine ⟨⟨ofSignedLE (toLE 4 h.nPriority), ofSignedLE (toLE 4 h.x), ofSignedLE (toLE 4 h.y), ofSignedLE (toLE 4 h.z),
    ofSignedLE (toLE 4 h.fRadius)⟩, ?_⟩
  unfold readHeader LocationInfoHeader.encode
  simp only [List.append_assoc, readInt32_append _ (length_toLE 4 _), Option.bind_eq_bind, Option.bind_some, Option.pure_def]

theorem skipText_encode (t : FileText) : skipText (t.encode ++ rest) = some rest := by
  have hlength := t.length
  unfold skipText FileText.encode
  simp only [List.append_assoc, readInt32_toLE _ t.isInt32, Option.bind_eq_bind, Option.bind_some]
  split_ifs at hlength ⊢ with h
  · rw [← hlength]
    exact read_skip_append rest t.bytes
  · rw [List.length_eq_zero_iff.mp hlength]
    rfl

/-- The point that the loop makes of a point of the file. -/
def readPoint (M : MapPlace L) (q : FilePoint) : Pointf := ⟨coordinate M (sy M) q.y, 0⟩

/-- The points that are handed over while the loop adds more to those it has. -/
def growing (points : List Pointf) : List Pointf → List (List Pointf)
  | [] => []
  | pt :: pts => (points ++ [pt]) :: growing (points ++ [pt]) pts

theorem loadPoints_encode (g_currentLocationId : Int) (qs : List FilePoint) (points : List Pointf) :
    loadPoints M g_currentLocationId qs.length points ⟨qs.flatMap FilePoint.encode ++ rest, lua, registered⟩ =
      some ⟨rest, lua, registered ++ (growing points (qs.map (readPoint M))).map fun points => ⟨points, g_currentLocationId, 0⟩⟩ := by
  induction qs generalizing points registered with
  | nil =>
    rw [List.map_nil, growing, List.map_nil, List.append_nil]
    rfl
  | cons q qs ih =>
    rw [List.flatMap_cons, FilePoint.encode, List.length_cons, loadPoints]
    simp only [List.append_assoc, readInt32_toLE _ q.isInt32_x, readInt32_toLE _ q.isInt32_y, Option.bind_eq_bind, Option.bind_some]
    rw [ih, List.append_assoc]
    rfl

theorem loadPolygons_encode (g_currentLocationId : Int) (ps : List FilePolygon) :
    loadPolygons M g_currentLocationId ps.length ⟨ps.flatMap FilePolygon.encode ++ rest, lua, registered⟩ =
      some ⟨rest, lua, registered ++ ps.flatMap fun p =>
        (growing [] (p.points.map (readPoint M))).map fun points => ⟨points, g_currentLocationId, 0⟩⟩ := by
  induction ps generalizing registered with
  | nil =>
    rw [List.flatMap_nil, List.flatMap_nil, List.append_nil]
    rfl
  | cons p ps ih =>
    rw [List.flatMap_cons, FilePolygon.encode, List.length_cons, loadPolygons]
    simp only [List.append_assoc, readInt32_toLE _ p.isInt32, Option.bind_eq_bind, Option.bind_some, Int.toNat_natCast,
      loadPoints_encode]
    rw [ih, List.append_assoc, List.flatMap_cons]

/-- An entry that is not accepted leaves its polygons to be read. -/
theorem loadEntry_encode (e : FileEntry) :
    loadEntry M ⟨e.encode ++ rest, lua, registered⟩ =
      if M.Accepts e lua then
        some ⟨rest, M.luaAfter e lua, registered ++ e.polygons.flatMap fun p =>
          (growing [] (p.points.map (readPoint M))).map fun points => ⟨points, (M.runString e.scriptText lua).2, 0⟩⟩
      else some ⟨e.encodePolygons ++ rest, M.luaAfter e lua, registered⟩ := by
  obtain ⟨lih, hlih⟩ := readHeader_encode (e.name.encode ++ (e.script.encode ++ (e.encodePolygons ++ rest))) e.lih
  unfold loadEntry FileEntry.encode
  simp only [List.append_assoc, hlih, skipText_encode, Option.bind_eq_bind, Option.bind_some]
  rw [FileText.encode, List.append_assoc, readInt32_toLE _ e.script.isInt32, Option.bind_some]
  have hlength := e.script.length
  by_cases hsize : e.script.nCharSize > 1
  · rw [if_pos hsize] at hlength
    have hlua : M.luaAfter e lua = (M.runString e.scriptText lua).1 := if_pos hsize
    simp only [if_neg (show ¬e.script.nCharSize ≤ 1 by omega), ← hlength, ReadString_append, Option.bind_some]
    by_cases hid : (M.runString e.scriptText lua).2 = 0
    · rw [if_neg fun h : M.Accepts e lua => h.2 hid, hlua]
      exact if_pos hid
    · rw [if_pos (show M.Accepts e lua from ⟨hsize, hid⟩), hlua, FileEntry.encodePolygons, List.append_assoc,
        readInt32_toLE _ e.isInt32]
      exact (if_neg hid).trans (loadPolygons_encode rest _ e.polygons)
  · rw [if_neg hsize] at hlength
    rw [if_neg fun h : M.Accepts e lua => hsize h.1, if_pos (by omega), List.length_eq_zero_iff.mp hlength, MapPlace.luaAfter,
      if_neg hsize]
    rfl

end Maploader

namespace MapPlace

open Maploader

variable {L : Type} {M : MapPlace L} {lua : L} {s t : Maploader L} {e : FileEntry} {es : List FileEntry}

/-! ## When a file is read right -/

theorem ne_nil_of_mem_growing {points l : List Pointf} {pts : List Pointf} (h : l ∈ growing points pts) : l ≠ [] := by
  induction pts generalizing points with
  | nil => cases h
  | cons pt pts ih =>
    rcases List.mem_cons.mp h with rfl | h
    · exact List.append_ne_nil_of_right_ne_nil _ (List.cons_ne_nil _ _)
    · exact ih h

theorem readPoint_eq_iff (q : FilePoint) :
    readPoint M q = ⟨coordinate M (sx M) q.x, coordinate M (sy M) q.y⟩ ↔
      coordinate M (sx M) q.x = 0 ∧ coordinate M (sy M) q.y = 0 := by
  rw [readPoint, Pointf.mk.injEq]
  constructor
  · rintro ⟨hx, hy⟩
    exact ⟨by rw [← hx, ← hy], hy.symm⟩
  · rintro ⟨hx, hy⟩
    exact ⟨by rw [hx, hy], hy.symm⟩

/-- One region for each polygon, if and only if each is the single point at the origin: a polygon of no points has no region, and one
of more points has a first region of one point. -/
theorem flatMap_growing_eq_iff (ps : List FilePolygon) :
    (ps.flatMap fun p => growing [] (p.points.map (readPoint M))) = ps.map M.polygonPoints ↔ ∀ p ∈ ps, M.AtOrigin p := by
  induction ps with
  | nil => exact ⟨fun _ _ h => (List.not_mem_nil h).elim, fun _ => rfl⟩
  | cons p ps ih =>
    rw [List.flatMap_cons, List.map_cons, List.forall_mem_cons, ← ih, polygonPoints]
    rcases hpoints : p.points with _ | ⟨q, qs⟩
    · constructor
      · intro h
        rw [List.map_nil, growing, List.nil_append] at h
        have hmem : [] ∈ ps.flatMap fun p => growing [] (p.points.map (readPoint M)) := by
          rw [h]
          exact List.mem_cons_self
        obtain ⟨_, _, hmem⟩ := List.mem_flatMap.mp hmem
        exact (ne_nil_of_mem_growing hmem rfl).elim
      · rintro ⟨⟨q, hq, _⟩, _⟩
        rw [hpoints] at hq
        cases hq
    · rw [List.map_cons, growing, List.nil_append, List.cons_append, List.map_cons, List.cons.injEq, List.cons.injEq, readPoint_eq_iff]
      constructor
      · rintro ⟨⟨hq, hqs⟩, h⟩
        obtain rfl : qs = [] := List.map_eq_nil_iff.mp hqs.symm
        exact ⟨⟨q, hpoints, hq⟩, h⟩
      · rintro ⟨⟨q', hq', hq⟩, h⟩
        rw [hpoints] at hq'
        cases hq'
        exact ⟨⟨hq, rfl⟩, h⟩

/-- The points of the regions that the loop registers for the polygons. -/
theorem points_registered (id : Int) (ps : List FilePolygon) :
    (ps.flatMap fun p => (growing [] (p.points.map (readPoint M))).map fun points => (⟨points, id, 0⟩ : LocationRegion)).map
      LocationRegion.points = ps.flatMap fun p => growing [] (p.points.map (readPoint M)) := by
  simp only [List.map_flatMap, List.map_map]
  exact congrArg (List.flatMap · ps) (funext fun p => List.map_id _)

/-- What the loop does for an entry of the file that meets the condition. -/
theorem loadEntry_plain (hs : s.buffer = (e :: es).flatMap FileEntry.encode) (haccepts : M.Accepts e s.lua) :
    ∃ t, loadEntry M s = some t ∧ t.buffer = es.flatMap FileEntry.encode ∧ t.lua = M.luaAfter e s.lua ∧
      t.registered.map LocationRegion.points = s.registered.map LocationRegion.points ++
        e.polygons.flatMap fun p => growing [] (p.points.map (readPoint M)) := by
  obtain ⟨buffer, lua, registered⟩ := s
  obtain rfl : buffer = e.encode ++ es.flatMap FileEntry.encode := hs
  refine ⟨_, (loadEntry_encode _ e).trans (if_pos haccepts), rfl, rfl, ?_⟩
  rw [List.map_append, points_registered]

theorem encodePolygons_ne_nil (e : FileEntry) : e.encodePolygons ≠ [] := by
  intro h
  have hlength := congrArg List.length h
  rw [FileEntry.encodePolygons, List.length_append, length_toLE, List.length_nil] at hlength
  omega

theorem accepts_of_readsEntries (hs : s.buffer = (e :: es).flatMap FileEntry.encode) (h : M.ReadsEntries (e :: es) s) :
    M.Accepts e s.lua := by
  obtain ⟨t, ht, hbuffer, _⟩ := h 1 (by rw [List.length_cons]; omega)
  obtain ⟨buffer, lua, registered⟩ := s
  obtain rfl : buffer = e.encode ++ es.flatMap FileEntry.encode := hs
  by_contra haccepts
  rw [loadEntries, loadEntry_encode, if_neg haccepts, Option.bind_some, loadEntries, Option.some.injEq] at ht
  subst ht
  exact encodePolygons_ne_nil e (List.append_left_eq_self.mp hbuffer)

theorem readsEntries_iff (hs : s.buffer = es.flatMap FileEntry.encode) : M.ReadsEntries es s ↔ M.Plain es s.lua := by
  induction es generalizing s with
  | nil =>
    refine ⟨fun _ => trivial, fun _ k hk => ⟨s, ?_, ?_, ?_⟩⟩
    · obtain rfl : k = 0 := Nat.le_zero.mp hk
      rfl
    · rw [List.drop_nil]
      exact hs
    · rw [List.take_nil, regions, List.append_nil]
  | cons e es ih =>
    constructor
    · intro h
      have haccepts := accepts_of_readsEntries hs h
      obtain ⟨t, ht, hbuffer, hlua, hregistered⟩ := loadEntry_plain hs haccepts
      have hone : e.polygons.flatMap (fun p => growing [] (p.points.map (readPoint M))) = e.polygons.map M.polygonPoints := by
        obtain ⟨t', ht', _, hregions⟩ := h 1 (by rw [List.length_cons]; omega)
        rw [loadEntries, ht, Option.bind_some, loadEntries, Option.some.injEq] at ht'
        subst ht'
        rw [hregistered, List.take_succ_cons, regions, if_pos haccepts, List.take_zero, regions, List.append_nil] at hregions
        exact List.append_cancel_left hregions
      refine ⟨haccepts, (flatMap_growing_eq_iff _).mp hone, ?_⟩
      rw [← hlua, ← ih hbuffer]
      intro k hk
      obtain ⟨t', ht', hrest, hregions⟩ := h (k + 1) (Nat.succ_le_succ hk)
      rw [loadEntries, ht, Option.bind_some] at ht'
      refine ⟨t', ht', hrest, ?_⟩
      rw [hregions, hregistered, hone, List.take_succ_cons, regions, if_pos haccepts, hlua, List.append_assoc]
    · rintro ⟨haccepts, horigin, hplain⟩ k hk
      obtain ⟨t, ht, hbuffer, hlua, hregistered⟩ := loadEntry_plain hs haccepts
      rw [(flatMap_growing_eq_iff _).mpr horigin] at hregistered
      cases k with
      | zero => exact ⟨s, rfl, hs, by rw [List.take_zero, regions, List.append_nil]⟩
      | succ k =>
        obtain ⟨t', ht', hrest, hregions⟩ := (ih hbuffer).mpr (hlua ▸ hplain) k (Nat.le_of_succ_le_succ hk)
        refine ⟨t', ?_, hrest, ?_⟩
        · rw [loadEntries, ht, Option.bind_some, ht']
        · rw [hregions, hregistered, List.take_succ_cons, regions, if_pos haccepts, hlua, List.append_assoc]

/-- **A location file is read right exactly if each of its entries has a script that names a location and each polygon is a single
point at the origin.** -/
theorem loadsRight_iff (M : MapPlace L) (f : LocationFile) (lua : L) : M.LoadsRight f lua ↔ M.Plain f.entries lua := by
  have hentries : M.ReadsEntries f.entries ⟨f.entries.flatMap FileEntry.encode, lua, []⟩ ↔ M.Plain f.entries lua :=
    readsEntries_iff rfl
  rw [← hentries]
  refine ⟨And.right, fun h => ⟨?_, h⟩⟩
  obtain ⟨t, ht, hbuffer, hregions⟩ := h f.entries.length (Nat.le_refl _)
  refine ⟨t, ?_, ?_, ?_⟩
  · unfold LoadLocationFile LocationFile.encode
    rw [ByteBuffer.readInt32_toLE _ f.isInt32, Option.bind_eq_bind, Option.bind_some]
    exact ht
  · rw [hbuffer, List.drop_length]
    rfl
  · rw [hregions, List.take_length]
    rfl

/-! ## A triangle -/

theorem isInt32_zero : IsInt32 0 := by decide

theorem isInt32_eight : IsInt32 8 := by decide

def triangle : FilePolygon where
  points := [⟨8, 0, isInt32_eight, isInt32_zero⟩, ⟨8, 8, isInt32_eight, isInt32_eight⟩, ⟨0, 8, isInt32_zero, isInt32_eight⟩]
  isInt32 := by decide

/-- A location without a name whose script is `f()`, with its terminator. -/
def triangleFile : LocationFile where
  entries := [
    { lih := ⟨0, 0, 0, 0, 0⟩
      name := ⟨0, [], isInt32_zero, rfl⟩
      script := ⟨4, [102, 40, 41, 0], by decide, rfl⟩
      polygons := [triangle]
      isInt32 := by decide }]
  isInt32 := by decide

/-- The first file of the map; the script `f()` names location 7. -/
def trianglePlace : MapPlace Unit where
  x := 0
  y := 0
  fAttrLen := 21 / 4
  fMapLength := 16128
  float := id
  runString script lua := (lua, if script = [102, 40, 41] then 7 else 0)

/-- Three regions are registered for a triangle. -/
theorem not_loadsRight_triangle : ¬trianglePlace.LoadsRight triangleFile () := by
  intro h
  obtain ⟨_, horigin, _⟩ := (readsEntries_iff rfl).mp h.2
  obtain ⟨q, hq, _⟩ := horigin triangle List.mem_cons_self
  cases hq

end MapPlace

end RZEmulator.Chihiro
