import RZEmulator.Shared.PacketElements
import Mathlib.Data.List.Forall2

/-!
# Lines with a type

What the three functions do for a line of each metatype that has a type, when it is in the version and when it is
not, from what they do for the values of the type.
-/

namespace RZEmulator.Shared.Packet

open Lib

variable (v : Int)

@[simp] theorem Val.get_set_self (y : Val) (name : Nat) (w : Val) : (y.set name w).get name = w := if_pos rfl

theorem Val.get_set_of_ne (y : Val) {name a : Nat} (w : Val) (h : a ≠ name) : (y.set name w).get a = y.get a :=
  if_neg h

@[simp] theorem Val.toArr_arr (l : List Val) : (Val.arr l).toArr = l := rfl

@[simp] theorem Val.toStr_str (s : List UInt8) : (Val.str s).toStr = s := rfl

/-- What stands for a value of the type at the start of an object. -/
def Ty.Agrees (type : Ty) (e o : Val) (b : List UInt8) : Prop :=
  Packet.Agrees (type.getSize v e {} 0) (type.serialize v e {}) (fun r => type.deserialize v o r {})
    (type.opens v) (type.occupies v fun _ => 0) (type.Same v e) (type.Clean v e o) b

/-! ## The default of an array -/

theorem Prim.length_flatMap_write {α : Type} (p : Prim) (f : α → Int) (l : List α) :
    (l.flatMap fun e => p.write (f e)).length = l.length * p.size := by
  induction l with
  | nil => simp
  | cons e l ih => rw [List.flatMap_cons, List.length_append, p.length_write, ih, List.length_cons, Nat.succ_mul,
      Nat.add_comm]

theorem Prim.take_flatMap_write {α : Type} (p : Prim) (f : α → Int) (l : List α) (k : Nat) :
    (l.flatMap fun e => p.write (f e)).take (k * p.size) = (l.take k).flatMap fun e => p.write (f e) := by
  induction l generalizing k with
  | nil => simp
  | cons e l ih =>
    cases k with
    | zero => simp
    | succ k =>
      rw [List.take_succ_cons, List.flatMap_cons, List.flatMap_cons, Nat.succ_mul, Nat.add_comm,
        List.take_append, p.length_write, Nat.add_sub_cancel_left, ih,
        List.take_of_length_le (by rw [p.length_write]; omega)]

/-- Memory holds given numbers exactly when it holds their bytes. -/
theorem Prim.readAll_eq_iff (p : Prim) {d : List Int} (hd : ∀ n ∈ d, p.InRange n) {b : List UInt8}
    (hb : d.length * p.size ≤ b.length) :
    p.readAll d.length b = d.map .int ↔ b.take (d.length * p.size) = d.flatMap p.write := by
  induction d generalizing b with
  | nil => simp [Prim.readAll]
  | cons n d ih =>
    have hn : p.InRange n := hd n List.mem_cons_self
    rw [List.length_cons, Nat.succ_mul] at hb
    have hlen : (b.take p.size).length = p.size := by
      rw [List.length_take]
      omega
    have hhead : p.read (b.take p.size) = n ↔ b.take p.size = p.write n := by
      constructor
      · intro h
        apply p.read_injective (by rw [hlen, p.length_write])
        rw [h, Prim.read_write hn]
      · intro h
        rw [h, Prim.read_write hn]
    have htail := ih (fun m hm => hd m (List.mem_cons_of_mem n hm)) (b := b.drop p.size)
      (by rw [List.length_drop]; omega)
    rw [List.length_cons, Prim.readAll, List.map_cons, List.cons.injEq, Val.int.injEq, hhead, htail,
      Nat.succ_mul, Nat.add_comm, List.take_add, List.flatMap_cons]
    constructor
    · rintro ⟨h, h'⟩
      rw [h, h']
    · intro h
      exact List.append_inj h (by rw [hlen, p.length_write])

theorem Prim.take_readAll (p : Prim) {k n : Nat} (h : k ≤ n) (b : List UInt8) :
    (p.readAll n b).take k = p.readAll k b := by
  induction k generalizing n b with
  | zero => rfl
  | succ k ih =>
    obtain ⟨n, rfl⟩ : ∃ m, n = m + 1 := ⟨n - 1, by omega⟩
    rw [Prim.readAll, Prim.readAll, List.take_succ_cons, ih (by omega)]

theorem length_defaultArray {size : Nat} {d : List Int} (h : d.length ≤ size) :
    (defaultArray size d).length = size := by
  rw [defaultArray, List.length_append, List.length_replicate]
  omega

theorem inRange_zero (p : Prim) : p.InRange 0 := by
  have hpos : (0 : Int) < 256 ^ p.size := Int.pow_pos (by decide)
  unfold Prim.InRange
  split_ifs <;> omega

theorem inRange_defaultArray {p : Prim} {size : Nat} {d : List Int} (h : ∀ n ∈ d, p.InRange n) :
    ∀ n ∈ defaultArray size d, p.InRange n := by
  intro n hn
  rw [defaultArray, List.mem_append, List.mem_replicate] at hn
  rcases hn with hn | ⟨-, rfl⟩
  · exact h n hn
  · exact inRange_zero p

/-- `copyDefaultValue` sets every element exactly when the bytes that it leaves are right already. -/
theorem copyDefaultValue_take (p : Prim) {size : Nat} {old : List Val} {d : List Int} (hd : ∀ n ∈ d, p.InRange n)
    (hlen : d.length ≤ size) (hold : size ≤ old.length) :
    (copyDefaultValue p size old (defaultArray size d)).take size = (defaultArray size d).map .int ↔
      LeftoverOk p size old d := by
  have hD := length_defaultArray hlen
  have hbytes : ((defaultArray size d).flatMap p.write).length = size * p.size := by
    have h := p.length_flatMap_write id (defaultArray size d)
    rwa [hD] at h
  have hmem : (old.flatMap fun e => p.write e.toInt).length = old.length * p.size :=
    p.length_flatMap_write Val.toInt old
  have hle : size * p.size ≤ old.length * p.size := Nat.mul_le_mul_right _ hold
  have hrange : ∀ n ∈ defaultArray size d, p.InRange n := inRange_defaultArray hd
  have hread := p.readAll_eq_iff hrange (b := ((defaultArray size d).flatMap p.write).take size ++
    (old.flatMap fun e => p.write e.toInt).drop size) (by
      rw [hD, List.length_append, List.length_take, List.length_drop, hbytes, hmem]
      omega)
  rw [hD] at hread
  rw [copyDefaultValue, p.take_readAll hold, hread, LeftoverOk, ← p.take_flatMap_write Val.toInt, List.drop_take,
    List.take_append, List.take_of_length_le (by rw [List.length_take, hbytes]; omega), List.length_take, hbytes]
  have hsplit := List.take_append_drop size ((defaultArray size d).flatMap p.write)
  have hmin : size * p.size - min size (size * p.size) = size * p.size - size := by omega
  rw [hmin]
  constructor
  · intro h
    exact List.append_cancel_left (h.trans hsplit.symm)
  · intro h
    rw [h, hsplit]

/-! ## Lines that the version lacks -/

theorem Agrees.absent {getSize : Option Nat} {write : Nat → Option (List UInt8)}
    {read : Reader → Option (Val × Reader)} {same : Val → Prop} {clean : Prop} (hsize : getSize = some 0)
    (hwrite : ∀ pos, write pos = some []) (hread : ∀ r, ∃ y, read r = some (y, r) ∧ (same y ↔ clean)) :
    Agrees getSize write read false false same clean [] where
  getSize := hsize
  write := hwrite
  read tail _ rpos := hread ⟨rpos, tail⟩
  occupies _ := by simp

theorem TypedField.deserialize_absent (f : TypedField) {type : Ty} {name : Nat} {x y : Val} {L : Locals}
    {read : Val → Reader → Option (Val × Reader)} {same clean : Val → Val → Prop} {occupies : Bool}
    (hwf : f.WF v type false) (hfresh : f.sets false → f.Fresh (type.Fresh v) (y.get name)) (r : Reader) :
    ∃ y', f.deserialize read type.new type.toPrim name false y r L = some (y', r) ∧
      (f.Same same false x (y'.get name) ↔ f.Clean clean type.new occupies type.toPrim false x (y.get name)) := by
  cases f with
  | simple d =>
    cases d with
    | none => exact ⟨y, rfl, by simp [TypedField.Same, TypedField.Clean]⟩
    | some d => exact ⟨y.set name d, rfl, by simp [TypedField.Same, TypedField.Clean]⟩
  | array size declSize d =>
    cases d with
    | none => exact ⟨y, rfl, by simp [TypedField.Same, TypedField.Clean]⟩
    | some d =>
      obtain ⟨hsize, hlen, p, rfl, hd⟩ := hwf
      have hold : size ≤ (y.get name).toArr.length := by
        rw [(hfresh rfl).1]
        exact hsize
      refine ⟨_, rfl, ?_⟩
      simp only [TypedField.Same, TypedField.Clean, Val.get_set_self, Val.toArr_arr, Ty.toPrim, Option.mem_def,
        Option.some.injEq, forall_eq']
      exact copyDefaultValue_take p hd hlen hold
  | dynarray d | endarray d =>
    cases d with
    | none => exact ⟨y, rfl, by simp [TypedField.Same, TypedField.Clean]⟩
    | some d =>
      have hempty : (y.get name).toArr = [] := hfresh rfl
      refine ⟨y, rfl, ?_⟩
      simp only [TypedField.Same, TypedField.Clean, hempty]
      exact eq_comm

/-! ## Lines that the version has -/

theorem forall₂_replicate_right {R : Val → Val → Prop} {a : Val} (l : List Val) :
    List.Forall₂ R l (List.replicate l.length a) ↔ ∀ e ∈ l, R e a := by
  induction l with
  | nil => simp
  | cons e l ih => rw [List.length_cons, List.replicate_succ, List.forall₂_cons, List.forall_mem_cons, ih]

section

variable {v} {type : Ty}

theorem exists_bytes {l : List Val} (hfits : ∀ e ∈ l, type.Fits v e fun _ => 0)
    (htype : ∀ e, (type.Fits v e fun _ => 0) → ∃ b, ∀ o, type.Fresh v o → type.Agrees v e o b) :
    ∃ bytes : Val → List UInt8, ∀ e ∈ l, ∀ o, type.Fresh v o → type.Agrees v e o (bytes e) := by
  have hbytes : ∀ e, ∃ b, e ∈ l → ∀ o, type.Fresh v o → type.Agrees v e o b := by
    intro e
    by_cases he : e ∈ l
    · obtain ⟨b, hb⟩ := htype e (hfits e he)
      exact ⟨b, fun _ => hb⟩
    · exact ⟨[], fun h => absurd h he⟩
  choose bytes h using hbytes
  exact ⟨bytes, h⟩

/-- What the three functions do with a row of elements. -/
structure ElementsAgree (v : Int) (type : Ty) (l os : List Val) (b : List UInt8) : Prop where
  getSize : sizes (fun e => type.getSize v e {} 0) l = some b.length
  write : ∀ pos, writes (fun e => type.serialize v e {}) l pos = some b
  read : ∀ tail rpos, ∃ ys, reads (fun e r => type.deserialize v e r {}) os ⟨rpos, b ++ tail⟩ =
    some (ys, ⟨rpos + b.length, tail⟩) ∧ ys.length = os.length ∧
      (List.Forall₂ (type.Same v) l ys ↔ List.Forall₂ (type.Clean v) l os)
  occupies : b ≠ [] ↔ 0 < l.length ∧ type.occupies v fun _ => 0

theorem elementsAgree {l os : List Val} {bytes : Val → List UInt8} (hopens : type.opens v = false)
    (hlen : l.length = os.length) (h : ∀ e ∈ l, ∀ o ∈ os, type.Agrees v e o (bytes e)) :
    ElementsAgree v type l os (l.flatMap bytes) := by
  have hsome : ∀ e ∈ l, ∃ o ∈ os, type.Agrees v e o (bytes e) := by
    intro e he
    obtain ⟨o, ho⟩ := List.exists_mem_of_length_pos (hlen ▸ List.length_pos_of_mem he)
    exact ⟨o, ho, h e he o ho⟩
  constructor
  · apply sizes_eq
    intro e he
    obtain ⟨o, -, ho⟩ := hsome e he
    exact ho.getSize
  · apply writes_eq
    intro e he
    obtain ⟨o, -, ho⟩ := hsome e he
    exact ho.write
  · apply reads_eq hlen
    intro e he o ho
    rw [← hopens]
    exact (h e he o ho).read
  · apply flatMap_ne_nil_iff
    intro e he
    obtain ⟨o, -, ho⟩ := hsome e he
    exact ho.occupies hopens

/-- The line `f`, whose field of `x` has the bytes `b`. -/
def TypedField.Agrees (v : Int) (f : TypedField) (type : Ty) (name : Nat) (cond : Bool) (x : Val) (count : Nat)
    (b : List UInt8) : Prop :=
  ∀ L y, L.size name = count → (f.sets cond → f.Fresh (type.Fresh v) (y.get name)) →
    Packet.Agrees (f.size (fun e => type.getSize v e {} 0) name cond x L)
      (f.serialize (fun e => type.serialize v e {}) name cond x L)
      (fun r => f.deserialize (fun e r => type.deserialize v e r {}) type.new type.toPrim name cond y r L)
      (cond && f.opens (type.opens v)) (cond && f.occupies (type.occupies v fun _ => 0) count)
      (fun y' => f.Same (type.Same v) cond (x.get name) (y'.get name))
      (f.Clean (type.Clean v) type.new (type.occupies v fun _ => 0) type.toPrim cond (x.get name) (y.get name)) b

variable {name count : Nat} {x : Val}

theorem agrees_simple {d : Option Val} {b : List UInt8}
    (h : ∀ o, type.Fresh v o → type.Agrees v (x.get name) o b) :
    (TypedField.simple d).Agrees v type name true x count b := by
  intro L y _ hfresh
  have hvalue := h _ (hfresh rfl)
  refine ⟨hvalue.getSize, hvalue.write, ?_, hvalue.occupies⟩
  intro tail htail rpos
  obtain ⟨e, he, hsame⟩ := hvalue.read tail htail rpos
  refine ⟨y.set name e, ?_, ?_⟩
  · simp only [TypedField.deserialize, if_true, he, Option.map_some]
  · simpa [TypedField.Same, TypedField.Clean] using hsame

theorem agrees_array {size declSize : Nat} {d : Option (List Int)} {bytes : Val → List UInt8}
    (hwf : size ≤ declSize) (hopens : type.opens v = false) (hsize : size ≤ (x.get name).toArr.length)
    (h : ∀ e ∈ (x.get name).toArr.take size, ∀ o, type.Fresh v o → type.Agrees v e o (bytes e)) :
    (TypedField.array size declSize d).Agrees v type name true x count
      (((x.get name).toArr.take size).flatMap bytes) := by
  intro L y _ hfresh
  obtain ⟨hdecl, hold⟩ := hfresh rfl
  have hlen : ((x.get name).toArr.take size).length = size := by
    rw [List.length_take]
    omega
  have hlen' : ((y.get name).toArr.take size).length = size := by
    rw [List.length_take]
    omega
  have helems := elementsAgree hopens (hlen.trans hlen'.symm)
    (fun e he o ho => h e he o (hold o (List.mem_of_mem_take ho)))
  have hfirst : firstN size (x.get name).toArr = some ((x.get name).toArr.take size) := if_pos hsize
  have hfirst' : firstN size (y.get name).toArr = some ((y.get name).toArr.take size) := if_pos (by omega)
  constructor
  · simp only [TypedField.size, if_true, hfirst, Option.bind_some, helems.getSize]
  · intro pos
    simp only [TypedField.serialize, if_true, hfirst, Option.bind_some, helems.write]
  · intro tail _ rpos
    obtain ⟨ys, hys, hlength, hsame⟩ := helems.read tail rpos
    refine ⟨y.set name (.arr (ys ++ (y.get name).toArr.drop size)), ?_, ?_⟩
    · simp only [TypedField.deserialize, if_true, hfirst', Option.bind_some, hys, Option.map_some]
    · have htake : (ys ++ (y.get name).toArr.drop size).take size = ys :=
        List.take_left' (hlength.trans hlen')
      simp only [TypedField.Same, TypedField.Clean, Val.get_set_self, Val.toArr_arr, htake]
      exact hsame
  · intro _
    rw [helems.occupies, hlen]
    simp [TypedField.occupies]

theorem agrees_dynarray {d : Option (List Val)} {bytes : Val → List UInt8} (hopens : type.opens v = false)
    (hnew : type.Fresh v type.new) (hcount : (x.get name).toArr.length = count)
    (h : ∀ e ∈ (x.get name).toArr, ∀ o, type.Fresh v o → type.Agrees v e o (bytes e)) :
    (TypedField.dynarray d).Agrees v type name true x count ((x.get name).toArr.flatMap bytes) := by
  intro L y hL hfresh
  have hempty : (y.get name).toArr = [] := hfresh rfl
  have hresize : resize (y.get name).toArr (L.size name) type.new = List.replicate count type.new := by
    rw [resize, hempty, hL]
    simp
  have hfirst : firstN (L.size name) (x.get name).toArr = some (x.get name).toArr := by
    rw [firstN, hL, ← hcount, if_pos (Nat.le_refl _), List.take_length]
  have helems := elementsAgree hopens
    (hcount.trans (List.length_replicate (a := type.new)).symm)
    (fun e he o ho => h e he o ((List.mem_replicate.mp ho).2 ▸ hnew))
  constructor
  · simp only [TypedField.size, if_true, hfirst, Option.bind_some, helems.getSize]
  · intro pos
    simp only [TypedField.serialize, if_true, hfirst, Option.bind_some, helems.write]
  · intro tail _ rpos
    obtain ⟨ys, hys, -, hsame⟩ := helems.read tail rpos
    refine ⟨y.set name (.arr ys), ?_, ?_⟩
    · simp only [TypedField.deserialize, if_true, hresize, hys, Option.map_some]
    · simp only [TypedField.Same, TypedField.Clean, Val.get_set_self, Val.toArr_arr]
      rw [hsame, ← hcount, forall₂_replicate_right]
  · intro _
    rw [helems.occupies, hcount]
    simp [TypedField.occupies]

theorem agrees_endarray {d : Option (List Val)} {bytes : Val → List UInt8} (hopens : type.opens v = false)
    (hnew : type.Fresh v type.new)
    (h : ∀ e ∈ (x.get name).toArr, ∀ o, type.Fresh v o → type.Agrees v e o (bytes e)) :
    (TypedField.endarray d).Agrees v type name true x count ((x.get name).toArr.flatMap bytes) := by
  intro L y _ hfresh
  have hempty : (y.get name).toArr = [] := hfresh rfl
  have helems : ElementsAgree v type (x.get name).toArr (List.replicate (x.get name).toArr.length type.new)
      ((x.get name).toArr.flatMap bytes) :=
    elementsAgree hopens List.length_replicate.symm (fun e he o ho => h e he o ((List.mem_replicate.mp ho).2 ▸ hnew))
  refine ⟨helems.getSize, helems.write, ?_, fun ho => absurd (show true = false from ho) (by decide)⟩
  intro tail htail rpos
  obtain rfl := htail rfl
  rw [List.append_nil]
  by_cases hocc : type.occupies v fun _ => 0
  · have hread : ∀ e ∈ (x.get name).toArr, ReadsBack (fun r => type.deserialize v type.new r {}) false
        (type.Same v e) (type.Clean v e type.new) (bytes e) := by
      intro e he
      rw [← hopens]
      exact (h e he _ hnew).read
    have hloop : ∃ ys, readEndArray (fun e r => type.deserialize v e r {}) type.new
        ((x.get name).toArr.flatMap bytes).length ⟨rpos, (x.get name).toArr.flatMap bytes⟩ =
          some (ys, ⟨rpos + ((x.get name).toArr.flatMap bytes).length, []⟩) ∧
        (List.Forall₂ (type.Same v) (x.get name).toArr ys ↔ ∀ e ∈ (x.get name).toArr, type.Clean v e type.new) :=
      readEndArray_eq hread (fun e he => ((h e he _ hnew).occupies hopens).mpr hocc) (Nat.le_refl _) rpos
    obtain ⟨ys, hys, hsame⟩ := hloop
    refine ⟨y.set name (.arr ys), ?_, ?_⟩
    · simp only [TypedField.deserialize, if_true, hys, Option.map_some, hempty, List.nil_append]
    · simp only [TypedField.Same, TypedField.Clean, Val.get_set_self, Val.toArr_arr, hocc, or_true, and_true]
      exact hsame
  · have hnil : (x.get name).toArr.flatMap bytes = [] := by
      by_contra hne
      exact hocc (helems.occupies.mp hne).2
    refine ⟨y.set name (.arr []), ?_, ?_⟩
    · simp only [TypedField.deserialize, if_true, hnil, List.length_nil, readEndArray, Option.map_some, hempty,
        List.nil_append, Nat.add_zero]
    · simp only [TypedField.Same, TypedField.Clean, Val.get_set_self, Val.toArr_arr, hocc, List.forall₂_nil_right_iff]
      constructor
      · intro hx
        simp [hx]
      · intro hx
        exact hx.2.resolve_right Bool.false_ne_true

theorem TypedField.exists_agrees (f : TypedField) {cond : Bool} (hwf : f.WF v type cond)
    (hfits : cond → f.Fits (fun e => type.Fits v e fun _ => 0) (x.get name) count)
    (htype : cond → ∀ e, (type.Fits v e fun _ => 0) → ∃ b, ∀ o, type.Fresh v o → type.Agrees v e o b) :
    ∃ b, f.Agrees v type name cond x count b := by
  cases cond with
  | false =>
    refine ⟨[], fun L y _ hfresh => .absent rfl (fun _ => rfl) fun r => ?_⟩
    exact f.deserialize_absent v hwf hfresh r
  | true =>
    cases f with
    | simple d =>
      obtain ⟨b, hb⟩ := htype rfl _ (hfits rfl)
      exact ⟨b, agrees_simple hb⟩
    | array size declSize d =>
      obtain ⟨bytes, hbytes⟩ := exists_bytes (hfits rfl).2 (htype rfl)
      exact ⟨_, agrees_array hwf.1 hwf.2 (hfits rfl).1 hbytes⟩
    | dynarray d =>
      obtain ⟨bytes, hbytes⟩ := exists_bytes (hfits rfl).2 (htype rfl)
      exact ⟨_, agrees_dynarray hwf.1 hwf.2 (hfits rfl).1 hbytes⟩
    | endarray d =>
      obtain ⟨bytes, hbytes⟩ := exists_bytes (hfits rfl) (htype rfl)
      exact ⟨_, agrees_endarray hwf.1 hwf.2 hbytes⟩

end

end RZEmulator.Shared.Packet
