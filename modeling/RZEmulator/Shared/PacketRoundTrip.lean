import RZEmulator.Shared.PacketTyped
import RZEmulator.Shared.PacketPlain

/-!
# The round trip of a packet

The lines of a struct one after another (`LinesAgree`), and from them the round trip of a declaration. Each line
leaves the fields of the others alone, so that what a line has set is still there at the end and what it finds is
what the target object had at the beginning.

An end string with a terminator is written without it, and the reader takes its last byte for the terminator: this
is one of the ways in which a value that fits does not come back.
-/

namespace RZEmulator.Shared.Packet

open Lib

variable {v : Int}

/-! ## A line leaves the other fields alone -/

theorem TypedField.deserialize_frame {f : TypedField} {read : Val → Reader → Option (Val × Reader)} {new y y' : Val}
    {prim : Option Prim} {name : Nat} {cond : Bool} {r r' : Reader} {L : Locals}
    (h : f.deserialize read new prim name cond y r L = some (y', r')) {a : Nat} (ha : f.sets cond → a ≠ name) :
    y'.get a = y.get a := by
  cases cond with
  | true =>
    have hne : a ≠ name := ha rfl
    cases f <;> simp only [TypedField.deserialize, if_true, Option.map_eq_some_iff, Option.bind_eq_some_iff] at h
    case simple =>
      obtain ⟨z, -, heq⟩ := h
      cases heq
      exact y.get_set_of_ne _ hne
    case array =>
      obtain ⟨l, -, z, -, heq⟩ := h
      cases heq
      exact y.get_set_of_ne _ hne
    case dynarray =>
      obtain ⟨z, -, heq⟩ := h
      cases heq
      exact y.get_set_of_ne _ hne
    case endarray =>
      obtain ⟨z, -, heq⟩ := h
      cases heq
      exact y.get_set_of_ne _ hne
  | false =>
    cases f with
    | simple d =>
      cases d with
      | none =>
        cases h
        rfl
      | some d =>
        cases h
        exact y.get_set_of_ne _ (ha rfl)
    | array size declSize d =>
      cases d with
      | none =>
        cases h
        rfl
      | some d =>
        simp only [TypedField.deserialize, Bool.false_eq_true, if_false, Option.map_eq_some_iff] at h
        obtain ⟨p, -, heq⟩ := h
        cases heq
        exact y.get_set_of_ne _ (ha rfl)
    | dynarray d | endarray d =>
      cases d <;>
      · cases h
        rfl

theorem get_setDefault_of_ne (y : Val) {name a : Nat} {d : Option (List UInt8)} (h : d.isSome → a ≠ name) :
    (y.setDefault name d).get a = y.get a := by
  cases d with
  | none => rfl
  | some d => exact y.get_set_of_ne _ (h rfl)

theorem PlainField.deserialize_frame {f : PlainField} {y y' : Val} {name : Nat} {cond : Bool} {r r' : Reader}
    {L L' : Locals} (h : f.deserialize name cond y r L = some (y', r', L')) {a : Nat}
    (ha : f.sets cond → a ≠ name) : y'.get a = y.get a := by
  have hset : f.sets cond → ∀ w, (y.set name w).get a = y.get a := fun hsets w => y.get_set_of_ne w (ha hsets)
  cases f with
  | count type null d =>
    cases cond <;> simp only [PlainField.deserialize, Bool.false_eq_true, if_true, if_false, Option.map_eq_some_iff,
      Option.some.injEq] at h
    · cases h
      rfl
    · obtain ⟨z, -, heq⟩ := h
      cases heq
      rfl
  | padmarker =>
    cases h
    rfl
  | pad n =>
    unfold PlainField.deserialize at h
    simp only at h
    split_ifs at h
    · obtain ⟨z, -, heq⟩ := Option.map_eq_some_iff.mp h
      cases heq
      rfl
    · cases h
      rfl
  | string n d | dynstring null d | endstring null d =>
    cases cond <;> simp only [PlainField.deserialize, Bool.false_eq_true, if_true, if_false, Option.map_eq_some_iff,
      Option.some.injEq] at h
    · cases h
      exact get_setDefault_of_ne y ha
    · obtain ⟨z, -, heq⟩ := h
      cases heq
      exact hset rfl _

theorem Ty.not_mem_names_typed {f : TypedField} {type rest : Ty} {name a : Nat} {cond : Int → Bool}
    (h : a ∉ (typed f type name cond rest).names v) : (f.sets (cond v) → a ≠ name) ∧ a ∉ rest.names v := by
  rw [Ty.names] at h
  split_ifs at h with hs
  · exact ⟨fun _ heq => h (heq ▸ List.mem_cons_self), fun hmem => h (List.mem_cons_of_mem _ hmem)⟩
  · exact ⟨fun hs' => absurd hs' hs, h⟩

theorem Ty.not_mem_names_plain {f : PlainField} {rest : Ty} {name a : Nat} {cond : Int → Bool}
    (h : a ∉ (plain f name cond rest).names v) : (f.sets (cond v) → a ≠ name) ∧ a ∉ rest.names v := by
  rw [Ty.names] at h
  split_ifs at h with hs
  · exact ⟨fun _ heq => h (heq ▸ List.mem_cons_self), fun hmem => h (List.mem_cons_of_mem _ hmem)⟩
  · exact ⟨fun hs' => absurd hs' hs, h⟩

theorem Ty.deserialize_frame {t : Ty} {ms : List Nat} (hlines : t.isLines) (hwf : t.WF v ms) {y y' : Val}
    {r r' : Reader} {L : Locals} (h : t.deserialize v y r L = some (y', r')) {a : Nat} (ha : a ∉ t.names v) :
    y'.get a = y.get a := by
  induction t generalizing ms y r L with
  | prim p => cases hlines
  | done =>
    cases h
    rfl
  | typed f type name cond rest _ ih =>
    obtain ⟨-, -, -, hrest, hwf⟩ := hwf
    obtain ⟨hne, ha⟩ := Ty.not_mem_names_typed ha
    obtain ⟨⟨y₁, r₁⟩, hline, h⟩ := Option.bind_eq_some_iff.mp h
    exact (ih hrest hwf h ha).trans (TypedField.deserialize_frame hline hne)
  | plain f name cond rest ih =>
    obtain ⟨-, -, -, hrest, hwf⟩ := hwf
    obtain ⟨hne, ha⟩ := Ty.not_mem_names_plain ha
    obtain ⟨⟨y₁, r₁, L₁⟩, hline, h⟩ := Option.bind_eq_some_iff.mp h
    exact (ih hrest hwf h ha).trans (PlainField.deserialize_frame hline hne)

/-! ## What depends on the fields of a struct only -/

theorem Ty.Fresh.congr {t : Ty} {y y' : Val} (h : t.Fresh v y) (heq : ∀ a ∈ t.names v, y'.get a = y.get a) :
    t.Fresh v y' := by
  induction t with
  | prim p => trivial
  | done => trivial
  | typed f type name cond rest _ ih =>
    refine ⟨fun hs => ?_, ih h.2 fun a ha => heq a ?_⟩
    · rw [heq name (by rw [Ty.names, if_pos hs]; exact List.mem_cons_self)]
      exact h.1 hs
    · rw [Ty.names]
      split_ifs
      · exact List.mem_cons_of_mem _ ha
      · exact ha
  | plain f name cond rest ih =>
    refine ih h fun a ha => heq a ?_
    rw [Ty.names]
    split_ifs
    · exact List.mem_cons_of_mem _ ha
    · exact ha

/-- A line that does not set its field has no default, and says nothing of it. -/
theorem TypedField.not_sets {f : TypedField} {cond : Bool} (h : ¬f.sets cond) :
    cond = false ∧ f.hasDefault = false := by
  rw [TypedField.sets, Bool.or_eq_true] at h
  exact ⟨Bool.eq_false_of_not_eq_true fun hc => h (.inl hc), Bool.eq_false_of_not_eq_true fun hd => h (.inr hd)⟩

theorem TypedField.same_of_not_sets {f : TypedField} {cond : Bool} (h : ¬f.sets cond) {same : Val → Val → Prop}
    (x y : Val) : f.Same same cond x y := by
  obtain ⟨rfl, hd⟩ := TypedField.not_sets h
  cases f with
  | simple d | dynarray d | endarray d =>
    obtain rfl := Option.isSome_eq_false_iff.mp hd |> Option.isNone_iff_eq_none.mp
    trivial
  | array size declSize d =>
    obtain rfl := Option.isSome_eq_false_iff.mp hd |> Option.isNone_iff_eq_none.mp
    trivial

theorem TypedField.clean_of_not_sets {f : TypedField} {cond : Bool} (h : ¬f.sets cond) {clean : Val → Val → Prop}
    {new : Val} {occupies : Bool} {prim : Option Prim} (x y : Val) : f.Clean clean new occupies prim cond x y := by
  obtain ⟨rfl, hd⟩ := TypedField.not_sets h
  cases f with
  | simple d => trivial
  | dynarray d | endarray d =>
    obtain rfl := Option.isSome_eq_false_iff.mp hd |> Option.isNone_iff_eq_none.mp
    trivial
  | array size declSize d =>
    obtain rfl := Option.isSome_eq_false_iff.mp hd |> Option.isNone_iff_eq_none.mp
    trivial

theorem PlainField.same_of_not_sets {f : PlainField} {cond : Bool} (h : ¬f.sets cond) (x y : Val) : f.Same cond x y := by
  cases f with
  | count type null d | padmarker | pad n => cases cond <;> trivial
  | string n d | dynstring null d | endstring null d =>
    cases cond with
    | true => exact absurd rfl h
    | false =>
      cases d with
      | none => trivial
      | some d => exact absurd rfl h

theorem Ty.clean_congr {t : Ty} {x y y' : Val} (heq : ∀ a ∈ t.names v, y'.get a = y.get a) :
    t.Clean v x y' ↔ t.Clean v x y := by
  induction t with
  | prim p => exact Iff.rfl
  | done => exact Iff.rfl
  | typed f type name cond rest _ ih =>
    rw [Ty.names] at heq
    split_ifs at heq with hs
    · rw [Ty.Clean, Ty.Clean, heq name List.mem_cons_self, ih fun a ha => heq a (List.mem_cons_of_mem _ ha)]
    · rw [Ty.Clean, Ty.Clean, ih heq]
      exact and_congr_left' ⟨fun _ => TypedField.clean_of_not_sets hs _ _, fun _ => TypedField.clean_of_not_sets hs _ _⟩
  | plain f name cond rest ih =>
    rw [Ty.Clean, Ty.Clean, ih fun a ha => heq a ?_]
    rw [Ty.names]
    split_ifs
    · exact List.mem_cons_of_mem _ ha
    · exact ha

/-! ## The lines of a struct -/

/-- The three functions on the lines of `t`, where their locals are those of `h`. -/
structure LinesAgree (v : Int) (h : Here) (t : Ty) (x y : Val) (b : List UInt8) : Prop where
  getSize : ∀ L s, h.At L s → t.getSize v x L s = some (s + b.length)
  write : ∀ L pos, h.At L pos → t.serialize v x L pos = some b
  read : ∀ tail, (t.opens v → tail = []) → ∀ L rpos, h.At L rpos →
    ∃ y', t.deserialize v y ⟨rpos, b ++ tail⟩ L = some (y', ⟨rpos + b.length, tail⟩) ∧
      (t.Same v x y' ↔ t.Clean v x y)
  empty : t.opens v = false → b ≠ [] → t.occupies v h.counts
  occupies : t.opens v = false → t.occupies v h.counts → b ≠ [] ∨ h.Moved
  silent : ∀ L pos, h.At L pos → t.silent v → b = []

theorem linesAgree_done (h : Here) (x y : Val) : LinesAgree v h .done x y [] where
  getSize _ _ _ := rfl
  write _ _ _ := rfl
  read _ _ _ _ _ := ⟨y, rfl, Iff.rfl⟩
  empty _ hb := absurd rfl hb
  occupies _ hocc := nomatch hocc
  silent _ _ _ _ := rfl

/-- The line that reads to the end has nothing after it. -/
theorem nil_of_opens {opens silent restOpens : Bool} {b tail : List UInt8} (hopens : opens → silent)
    (hsilent : silent → b = []) (htail : opens || restOpens → tail = []) :
    (opens → b ++ tail = []) ∧ (restOpens → tail = []) := by
  constructor
  · intro ho
    rw [hsilent (hopens ho), htail (by rw [ho, Bool.true_or]), List.append_nil]
  · intro hr
    exact htail (by rw [hr, Bool.or_true])

theorem LinesAgree.typed {h : Here} {f : TypedField} {type rest : Ty} {name : Nat} {cond : Int → Bool} {ms : List Nat}
    {x y : Val} {b b' : List UInt8} (hwf : (Ty.typed f type name cond rest).WF v ms)
    (hfresh : (Ty.typed f type name cond rest).Fresh v y)
    (hline : f.Agrees v type name (cond v) x (h.counts name) b)
    (hrest : ∀ y, rest.Fresh v y → LinesAgree v (h.move b.length) rest x y b') :
    LinesAgree v h (.typed f type name cond rest) x y (b ++ b') := by
  obtain ⟨-, hname, hopens, hlines, hwf⟩ := hwf
  obtain ⟨hfield, hfresh⟩ := hfresh
  have hl : ∀ L pos, h.At L pos → _ := fun L pos hat => hline L y (congrFun hat.counts name) hfield
  have hagrees := hline { size := h.counts } y rfl hfield
  constructor
  · intro L s hat
    rw [Ty.getSize, (hl L s hat).getSize, Option.bind_some,
      (hrest y hfresh).getSize L (s + b.length) (hat.move b.length), List.length_append, Nat.add_assoc]
  · intro L pos hat
    rw [Ty.serialize, (hl L pos hat).write, Option.bind_some,
      (hrest y hfresh).write L (pos + b.length) (hat.move b.length)]
    rfl
  · intro tail htail L rpos hat
    have hsilent := (hrest y hfresh).silent L (rpos + b.length) (hat.move b.length)
    obtain ⟨htail₁, htail₂⟩ := nil_of_opens
      (fun ho => hopens (Bool.and_eq_true_iff.mp ho).1 (Bool.and_eq_true_iff.mp ho).2) hsilent htail
    obtain ⟨y₁, hread, hsame⟩ := (hl L rpos hat).read (b' ++ tail) htail₁ rpos
    simp only at hread hsame
    have hframe : ∀ a ∈ rest.names v, y₁.get a = y.get a := by
      intro a ha
      apply TypedField.deserialize_frame hread
      rintro hs rfl
      exact hname hs ha
    obtain ⟨y₂, hread₂, hsame₂⟩ := (hrest y₁ (hfresh.congr hframe)).read tail htail₂ L (rpos + b.length)
      (hat.move b.length)
    refine ⟨y₂, ?_, ?_⟩
    · simp only [Ty.deserialize, List.append_assoc]
      rw [hread, Option.bind_some, hread₂, List.length_append, Nat.add_assoc]
    · rw [Ty.Same, Ty.Clean, hsame₂, Ty.clean_congr hframe, ← hsame]
      by_cases hs : f.sets (cond v)
      · rw [Ty.deserialize_frame hlines hwf hread₂ (hname hs)]
      · exact and_congr_left' ⟨fun _ => TypedField.same_of_not_sets hs _ _, fun _ => TypedField.same_of_not_sets hs _ _⟩
  · intro ho hb
    rw [Ty.opens, Bool.or_eq_false_iff] at ho
    rw [Ty.occupies, Bool.or_eq_true]
    by_cases hb₁ : b = []
    · right
      apply (hrest y hfresh).empty ho.2
      rintro rfl
      exact hb (by rw [hb₁, List.append_nil])
    · exact .inl ((hagrees.occupies ho.1).mp hb₁)
  · intro ho hocc
    rw [Ty.opens, Bool.or_eq_false_iff] at ho
    rw [Ty.occupies, Bool.or_eq_true] at hocc
    rcases hocc with hocc | hocc
    · exact .inl (List.append_ne_nil_of_left_ne_nil ((hagrees.occupies ho.1).mpr hocc) b')
    · rcases (hrest y hfresh).occupies ho.2 hocc with hb | hmoved
      · exact .inl (List.append_ne_nil_of_right_ne_nil b hb)
      · exact hmoved.of_move.imp_left fun hb => List.append_ne_nil_of_left_ne_nil hb b'
  · intro L pos hat hs
    rw [Ty.silent, Bool.and_eq_true, Bool.not_eq_true'] at hs
    rw [(hrest y hfresh).silent L (pos + b.length) (hat.move b.length) hs.2, List.append_nil]
    have hwrite := (hl L pos hat).write pos
    rw [hs.1] at hwrite
    exact (Option.some.inj hwrite).symm

/-- Where the counts do not come from the type alone, there are bytes already. -/
theorem PlainField.counts_eq_or (f : PlainField) (name : Nat) (cond : Bool) (x : Val) (n : Nat → Nat) (k : Nat) :
    f.counts name cond x n = f.defaultCounts name n ∨ cond && f.occupies k := by
  cases cond with
  | false => exact .inl (by cases f <;> rfl)
  | true => cases f <;> first | exact .inl rfl | exact .inr rfl

theorem PlainField.serialize_absent {f : PlainField} {name : Nat} {x : Val} {L L' : Locals} {pos : Nat}
    {b : List UInt8} (h : f.serialize name false x L pos = some (b, L')) : b = [] := by
  cases f with
  | count type null d | string n d | dynstring null d | padmarker | endstring null d =>
    cases h
    rfl
  | pad n =>
    simp only [PlainField.serialize, Bool.false_eq_true, false_and, if_false] at h
    cases h
    rfl

theorem Ty.silent_plain {f : PlainField} {rest : Ty} {name : Nat} {cond : Int → Bool}
    (h : (plain f name cond rest).silent v) : (f = .padmarker ∨ cond v = false) ∧ rest.silent v := by
  cases f with
  | padmarker => exact ⟨.inl rfl, h⟩
  | count type null d | string n d | dynstring null d | pad n | endstring null d =>
    simp only [Ty.silent, Bool.and_eq_true, Bool.not_eq_true'] at h
    exact ⟨.inr h.1, h.2⟩

theorem LinesAgree.plain {h : Here} {f : PlainField} {rest : Ty} {name : Nat} {cond : Int → Bool} {ms : List Nat}
    {x y : Val} {b b' : List UInt8} (hwf : (Ty.plain f name cond rest).WF v ms) (hfresh : rest.Fresh v y)
    (hline : f.Agrees name (cond v) x h b)
    (hrest : ∀ y, rest.Fresh v y → LinesAgree v (f.after name (cond v) (x.get name) b.length h) rest x y b') :
    LinesAgree v h (.plain f name cond rest) x y (b ++ b') := by
  obtain ⟨-, hname, hopens, hlines, hwf⟩ := hwf
  have hagree := hrest y hfresh
  have hsilent : ∀ L pos, h.At L pos → rest.silent v → b' = [] := by
    intro L pos hat
    obtain ⟨-, hat'⟩ := hline.getSize L pos hat
    exact hagree.silent _ _ hat'
  constructor
  · intro L s hat
    obtain ⟨hsize, hat'⟩ := hline.getSize L s hat
    rw [Ty.getSize, hsize, hagree.getSize _ _ hat', List.length_append, Nat.add_assoc]
  · intro L pos hat
    obtain ⟨L', hwrite, hat'⟩ := hline.write L pos hat
    simp only [Ty.serialize]
    rw [hwrite, Option.bind_some, hagree.write L' _ hat']
    rfl
  · intro tail htail L rpos hat
    obtain ⟨htail₁, htail₂⟩ := nil_of_opens
      (fun ho => hopens (Bool.and_eq_true_iff.mp ho).1 (Bool.and_eq_true_iff.mp ho).2) (hsilent L rpos hat) htail
    obtain ⟨y₁, L₁, hread, hat', hsame⟩ := hline.read y (b' ++ tail) htail₁ L rpos hat
    have hframe : ∀ a ∈ rest.names v, y₁.get a = y.get a := by
      intro a ha
      apply PlainField.deserialize_frame hread
      rintro hs rfl
      exact hname hs ha
    obtain ⟨y₂, hread₂, hsame₂⟩ := (hrest y₁ (hfresh.congr hframe)).read tail htail₂ L₁ (rpos + b.length) hat'
    refine ⟨y₂, ?_, ?_⟩
    · simp only [Ty.deserialize, List.append_assoc]
      rw [hread, Option.bind_some, hread₂, List.length_append, Nat.add_assoc]
    · rw [Ty.Same, Ty.Clean, hsame₂, Ty.clean_congr hframe, ← hsame]
      by_cases hs : f.sets (cond v)
      · rw [Ty.deserialize_frame hlines hwf hread₂ (hname hs)]
      · exact and_congr_left' ⟨fun _ => PlainField.same_of_not_sets hs _ _, fun _ => PlainField.same_of_not_sets hs _ _⟩
  · intro ho hb
    rw [Ty.opens, Bool.or_eq_false_iff] at ho
    rw [Ty.occupies, Bool.or_eq_true]
    by_cases hb₁ : b = []
    · have hb' : b' ≠ [] := by
        rintro rfl
        exact hb (by rw [hb₁, List.append_nil])
      have hocc := hagree.empty ho.2 hb'
      rcases f.counts_eq_or name (cond v) (x.get name) h.counts (h.counts name) with hcounts | hline
      · exact .inr (hcounts ▸ hocc)
      · exact .inl hline
    · exact .inl (hline.empty ho.1 hb₁)
  · intro ho hocc
    rw [Ty.opens, Bool.or_eq_false_iff] at ho
    rw [Ty.occupies, Bool.or_eq_true] at hocc
    have hcases : (cond v && f.occupies (h.counts name)) ∨ rest.occupies v (f.counts name (cond v) (x.get name) h.counts) := by
      rcases f.counts_eq_or name (cond v) (x.get name) h.counts (h.counts name) with hcounts | hline
      · exact hcounts ▸ hocc
      · exact .inl hline
    rcases hcases with hocc | hocc
    · exact (hline.occupies hocc).imp_left fun hb => List.append_ne_nil_of_left_ne_nil hb b'
    · rcases hagree.occupies ho.2 hocc with hb | hmoved
      · exact .inl (List.append_ne_nil_of_right_ne_nil b hb)
      · exact (hline.moved hmoved).imp_left fun hb => List.append_ne_nil_of_left_ne_nil hb b'
  · intro L pos hat hs
    obtain ⟨hf, hs⟩ := Ty.silent_plain hs
    rw [hsilent L pos hat hs, List.append_nil]
    obtain ⟨L', hwrite, -⟩ := hline.write L pos hat
    rcases hf with rfl | hc
    · cases hwrite
      rfl
    · rw [hc] at hwrite
      exact PlainField.serialize_absent hwrite

/-- The lines of a struct alone, which is what an element of an array or a field is. -/
theorem LinesAgree.agrees {t : Ty} {x y : Val} {b : List UInt8} (h : LinesAgree v ⟨[], fun _ => 0, fun _ => 0⟩ t x y b) :
    t.Agrees v x y b := by
  have hat : ∀ pos, Here.At ⟨[], fun _ => 0, fun _ => 0⟩ {} pos := fun pos => ⟨rfl, nofun⟩
  refine ⟨?_, fun pos => h.write {} pos (hat pos), fun tail htail rpos => h.read tail htail {} rpos (hat rpos), ?_⟩
  · rw [h.getSize {} 0 (hat 0), Nat.zero_add]
  · intro ho
    refine ⟨h.empty ho, fun hocc => (h.occupies ho hocc).resolve_right ?_⟩
    rintro ⟨m, hm, -⟩
    cases hm

/-- The induction on a declaration: a line after another, and the types of the lines. -/
theorem Ty.exists_linesAgree (t : Ty) (hlines : t.isLines) (h : Here) (x : Val) (hwf : t.WF v h.markers)
    (hfits : t.Fits v x h.counts) : ∃ b, ∀ y, t.Fresh v y → LinesAgree v h t x y b := by
  induction t generalizing h x with
  | prim p => cases hlines
  | done => exact ⟨[], fun y _ => linesAgree_done h x y⟩
  | typed f type name cond rest ihtype ihrest =>
    have htype : cond v → ∀ e, (type.Fits v e fun _ => 0) → ∃ b, ∀ o, type.Fresh v o → type.Agrees v e o b := by
      intro hc e he
      cases hprim : type.isLines with
      | false =>
        cases type with
        | prim p => exact ⟨p.write e.toInt, fun o _ => p.agrees v e o⟩
        | done | typed | plain => cases hprim
      | true =>
        obtain ⟨b, hb⟩ := ihtype hprim ⟨[], fun _ => 0, fun _ => 0⟩ e (hwf.1.2 hc) he
        exact ⟨b, fun o ho => (hb o ho).agrees⟩
    obtain ⟨b, hline⟩ := f.exists_agrees hwf.1.1 hfits.1 htype
    obtain ⟨b', hrest⟩ := ihrest hwf.2.2.2.1 (h.move b.length) x hwf.2.2.2.2 hfits.2
    exact ⟨b ++ b', fun y hfresh => .typed hwf hfresh hline hrest⟩
  | plain f name cond rest ih =>
    obtain ⟨b, hline⟩ := f.exists_agrees hwf.1 hfits.1
    obtain ⟨b', hrest⟩ := ih hwf.2.2.2.1 (f.after name (cond v) (x.get name) b.length h) x hwf.2.2.2.2 hfits.2
    exact ⟨b ++ b', fun y hfresh => .plain hwf hfresh hline hrest⟩

/-! ## Structs and packets -/

/-- `serialize` writes as many bytes as `getSize` says, and `deserialize` into `old` gives the value back. -/
def Declaration.RoundTrip (d : Declaration) (v : Int) (x old : Val) : Prop :=
  ∃ bytes y, d.serialize v x = some bytes ∧ d.getSize v x = some bytes.length ∧
    d.deserialize v old bytes = some y ∧ d.lines.Same v x y

theorem Declaration.length_header (d : Declaration) (v : Int) : (d.header v).length = d.sizeBase := by
  unfold header sizeBase
  cases d.getId with
  | none => rfl
  | some id => simp

/-- A value that fits makes the round trip exactly when it is clean. -/
theorem roundTrip_iff_clean (d : Declaration) (v : Int) (x old : Val) (hlines : d.lines.isLines)
    (hwf : d.lines.WF v []) (hfits : d.lines.Fits v x fun _ => 0) (hfresh : d.lines.Fresh v old) :
    d.RoundTrip v x old ↔ d.lines.Clean v x old := by
  obtain ⟨b, hb⟩ := d.lines.exists_linesAgree hlines ⟨[], fun _ => 0, fun _ => 0⟩ x hwf hfits
  have hagree := hb old hfresh
  have hat : ∀ pos, Here.At ⟨[], fun _ => 0, fun _ => 0⟩ {} pos := fun pos => ⟨rfl, nofun⟩
  have hwrite : d.serialize v x = some (d.header v ++ b) := by
    rw [Declaration.serialize, hagree.write {} _ (hat _)]
    rfl
  have hsize : d.getSize v x = some (d.header v ++ b).length := by
    rw [Declaration.getSize, hagree.getSize {} _ (hat _), List.length_append, d.length_header]
  obtain ⟨y, hread, hsame⟩ := hagree.read [] (fun _ => rfl) {} 0 (hat 0)
  have hdeserialize : d.deserialize v old (d.header v ++ b) = some y := by
    rw [Declaration.deserialize, ← d.length_header v, List.drop_left]
    rw [List.append_nil] at hread
    rw [hread]
    rfl
  rw [← hsame]
  constructor
  · rintro ⟨bytes, y', hwrite', -, hread', hsame'⟩
    obtain rfl := Option.some.inj (hwrite.symm.trans hwrite')
    obtain rfl := Option.some.inj (hdeserialize.symm.trans hread')
    exact hsame'
  · intro hs
    exact ⟨_, y, hwrite, hsize, hdeserialize, hs⟩

/-- A request, with the number of its type and its command. -/
def TS_CS_REQUEST : Declaration where
  getId := some fun _ => 60
  lines := .typed (.simple none) (.prim ⟨1, false⟩) 0 (fun _ => true) <|
    .plain (.endstring true none) 1 (fun _ => true) .done

def request (t : Int) (command : List UInt8) : Val := .obj fun a => if a = 0 then .int t else .str command

/-- Without a command. -/
theorem roundTrip_request_iff :
    TS_CS_REQUEST.RoundTrip 0 (request 1 []) TS_CS_REQUEST.lines.new ↔
      TS_CS_REQUEST.lines.Clean 0 (request 1 []) TS_CS_REQUEST.lines.new :=
  roundTrip_iff_clean TS_CS_REQUEST 0 (request 1 []) TS_CS_REQUEST.lines.new rfl
    ⟨⟨trivial, fun _ => trivial⟩, fun _ => by decide, nofun, rfl, trivial, fun _ => by decide, fun _ _ => rfl, rfl, trivial⟩
    ⟨fun _ => trivial, fun _ => trivial, trivial⟩ ⟨fun _ => trivial, trivial⟩

/-- The command `t` is lost: its only byte is taken for the terminator. -/
theorem not_roundTrip_request :
    ¬∀ (d : Declaration) (v : Int) (x old : Val), d.lines.isLines → d.lines.WF v [] →
      (d.lines.Fits v x fun _ => 0) → d.lines.Fresh v old → d.RoundTrip v x old := by
  intro h
  obtain ⟨bytes, y, hwrite, -, hread, -, hcommand, -⟩ := h TS_CS_REQUEST 0 (request 1 [116]) TS_CS_REQUEST.lines.new rfl
    ⟨⟨trivial, fun _ => trivial⟩, fun _ => by decide, nofun, rfl, trivial, fun _ => by decide, fun _ _ => rfl, rfl, trivial⟩
    ⟨fun _ => trivial, fun _ => trivial, trivial⟩ ⟨fun _ => trivial, trivial⟩
  cases hwrite
  cases hread
  cases hcommand

end RZEmulator.Shared.Packet
