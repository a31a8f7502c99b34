import RZEmulator.Chihiro.PartyCommand
import RZEmulator.Lib.Keyed

/-!
# The flags of a character as text

`Save` writes the flags of a character as lines `key:value`, and `ReadCharacter` reads them back with two
tokenizers. Nothing is escaped: `lookup_readFlags` says what is read back of flags without separators, and
`plain_readFlags` that nothing else is ever read.
-/

namespace RZEmulator.Chihiro

open Lib GroupManager

/-- A string; its elements are the characters of the column. -/
abbrev Text := List Char

/-- `m_lFlagList`, an `unordered_map`; the order of the entries is that of an iteration. -/
abbrev FlagList := AList fun _ : Text => Text

namespace FlagList

/-- `"{}:{}\n"`. -/
def line (flag : Sigma fun _ : Text => Text) : Text := flag.1 ++ ':' :: flag.2

/-- The text that `Save` makes of the flags. -/
def write (flags : FlagList) : Text := flags.entries.flatMap fun flag => line flag ++ ['\n']

/-- What `ReadCharacter` does with one line. -/
def readLine (flags : FlagList) (text : Text) : FlagList :=
  match tokenizer text ':' with
  | [key, value] => flags.insert key value
  | _ => flags

/-- The flags that `ReadCharacter` makes of a text. -/
def read (text : Text) : FlagList := (tokenizer text '\n').foldl readLine ∅

/-! ## Tokens -/

/-- A text without separators. -/
def Plain (s : Text) : Prop := ∀ c ∈ s, c ≠ ':' ∧ c ≠ '\n' ∧ c ≠ '\x00'

instance (s : Text) : Decidable (Plain s) :=
  inferInstanceAs (Decidable (∀ c ∈ s, c ≠ ':' ∧ c ≠ '\n' ∧ c ≠ '\x00'))

/-- A token has the characters of the text it is cut out of, without the separator and the end. -/
theorem mem_tokensFrom {sep : Char} {s token tok : Text} (htok : tok ∈ tokensFrom sep token s) :
    ∀ c ∈ tok, c ∈ token ∨ (c ∈ s ∧ c ≠ sep ∧ c ≠ '\x00') := by
  induction s generalizing token with
  | nil =>
    intro c hc
    unfold tokensFrom at htok
    split_ifs at htok with hnil
    · cases htok
    · rw [List.mem_singleton.mp htok] at hc
      exact .inl hc
  | cons d s ih =>
    intro c hc
    rw [tokensFrom] at htok
    split_ifs at htok with hsep hnul hnil
    · rcases List.mem_cons.mp htok with rfl | htok
      · exact .inl hc
      · rcases ih htok c hc with h | ⟨hs, h⟩
        · cases h
        · exact .inr ⟨List.mem_cons_of_mem d hs, h⟩
    · cases htok
    · rw [List.mem_singleton.mp htok] at hc
      exact .inl hc
    · rcases ih htok c hc with h | ⟨hs, h⟩
      · rcases List.mem_append.mp h with h | h
        · exact .inl h
        · obtain rfl := List.mem_singleton.mp h
          exact .inr ⟨List.mem_cons_self, hsep, hnul⟩
      · exact .inr ⟨List.mem_cons_of_mem d hs, h⟩

theorem mem_tokenizer {sep : Char} {s tok : Text} (htok : tok ∈ tokenizer s sep) :
    ∀ c ∈ tok, c ∈ s ∧ c ≠ sep ∧ c ≠ '\x00' := fun c hc =>
  (mem_tokensFrom htok c hc).resolve_left fun h => by cases h

/-- Whatever the text, the flags that are read from it have no separators. -/
theorem plain_read {text key value : Text} (hflag : (read text).lookup key = some value) :
    Plain key ∧ Plain value := by
  suffices hall : ∀ (lines : List Text) (flags : FlagList),
      (∀ l ∈ lines, ∀ c ∈ l, c ≠ '\n' ∧ c ≠ '\x00') →
      (∀ k v, flags.lookup k = some v → Plain k ∧ Plain v) →
      ∀ k v, (lines.foldl readLine flags).lookup k = some v → Plain k ∧ Plain v by
    refine hall (tokenizer text '\n') ∅ (fun l hl c hc => ?_) (fun k v h => ?_) key value hflag
    · exact (mem_tokenizer hl c hc).2
    · cases h
  intro lines
  induction lines with
  | nil => exact fun flags _ hflags => hflags
  | cons l lines ih =>
    intro flags hlines hflags
    refine ih (readLine flags l) (fun l' hl' => hlines l' (List.mem_cons_of_mem l hl')) fun k v hkv => ?_
    unfold readLine at hkv
    split at hkv
    · rename_i a b htokens
      have hplain : ∀ tok ∈ tokenizer l ':', Plain tok := fun tok htok c hc => by
        obtain ⟨hl, hsep, -⟩ := mem_tokenizer htok c hc
        exact ⟨hsep, hlines l List.mem_cons_self c hl⟩
      rw [htokens] at hplain
      by_cases hka : k = a
      · subst hka
        rw [AList.lookup_insert] at hkv
        obtain rfl := Option.some.inj hkv
        exact ⟨hplain k (by simp), hplain b (by simp)⟩
      · rw [AList.lookup_insert_ne hka] at hkv
        exact hflags k v hkv
    · exact hflags k v hkv

/-! ## Round trips -/

/-- The line of a flag without separators is read back, unless the value is empty. -/
theorem readLine_line {key value : Text} (hkey : Plain key) (hvalue : Plain value) (flags : FlagList) :
    readLine flags (line ⟨key, value⟩) = if value = [] then flags else flags.insert key value := by
  have htokens : tokenizer (line ⟨key, value⟩) ':' = key :: if value = [] then [] else [value] := by
    have hlast : tokensFrom ':' [] value = if value = [] then [] else [value] := by
      have happend : tokensFrom ':' [] (value ++ []) = tokensFrom ':' ([] ++ value) [] :=
        tokensFrom_append fun c hc => ⟨(hvalue c hc).1, (hvalue c hc).2.2⟩
      rw [List.append_nil] at happend
      rw [happend, List.nil_append, tokensFrom]
    rw [tokenizer, line, tokensFrom_append fun c hc => ⟨(hkey c hc).1, (hkey c hc).2.2⟩, List.nil_append,
      tokensFrom, if_pos rfl, hlast]
  unfold readLine
  rw [htokens]
  split_ifs <;> rfl

/-- Lines without line breaks are cut apart again. -/
theorem tokenizer_lines {flags : List (Sigma fun _ : Text => Text)}
    (hflags : ∀ f ∈ flags, ∀ c ∈ line f, c ≠ '\n' ∧ c ≠ '\x00') :
    tokenizer (flags.flatMap fun f => line f ++ ['\n']) '\n' = flags.map line := by
  unfold tokenizer
  induction flags with
  | nil => rfl
  | cons f flags ih =>
    rw [List.flatMap_cons, List.append_assoc, tokensFrom_append (hflags f List.mem_cons_self), List.nil_append,
      List.singleton_append, tokensFrom, if_pos rfl, ih fun g hg => hflags g (List.mem_cons_of_mem f hg)]
    rfl

/-- Every key and every value is plain. -/
def AllPlain (flags : FlagList) : Prop :=
  ∀ key value, flags.lookup key = some value → Plain key ∧ Plain value

/-- **What is read back** of flags without separators: those with a value. -/
theorem lookup_read_write {flags : FlagList} (hplain : flags.AllPlain) (key : Text) :
    (read flags.write).lookup key = (flags.lookup key).filter (· ≠ []) := by
  have hentries : ∀ f ∈ flags.entries, Plain f.1 ∧ Plain f.2 := fun f hf =>
    hplain f.1 f.2 (AList.mem_lookup_iff.mpr hf)
  have hlines : tokenizer flags.write '\n' = flags.entries.map line := tokenizer_lines fun f hf c hc => by
    obtain ⟨hkey, hvalue⟩ := hentries f hf
    unfold line at hc
    rcases List.mem_append.mp hc with hc | hc
    · exact (hkey c hc).2
    · rcases List.mem_cons.mp hc with rfl | hc
      · decide
      · exact (hvalue c hc).2
  suffices hall : ∀ (entries : List (Sigma fun _ : Text => Text)) (m : FlagList),
      (∀ f ∈ entries, Plain f.1 ∧ Plain f.2) → entries.NodupKeys →
      ((entries.map line).foldl readLine m).lookup key =
        (((entries.dlookup key).filter (· ≠ [])).or (m.lookup key)) by
    rw [read, hlines, hall flags.entries ∅ hentries flags.nodupKeys, AList.lookup_empty, Option.or_none]
    rfl
  intro entries
  induction entries with
  | nil => exact fun m _ _ => by simp
  | cons f entries ih =>
    intro m hf hnodup
    obtain ⟨a, b⟩ := f
    obtain ⟨ha, hnodup⟩ := List.nodupKeys_cons.mp hnodup
    obtain ⟨hkey, hvalue⟩ := hf ⟨a, b⟩ List.mem_cons_self
    rw [List.map_cons, List.foldl_cons, ih _ (fun g hg => hf g (List.mem_cons_of_mem _ hg)) hnodup,
      readLine_line hkey hvalue]
    by_cases hk : key = a
    · subst hk
      rw [List.dlookup_eq_none.mpr ha, List.dlookup_cons_eq, Option.filter_some, Option.filter_none,
        Option.none_or]
      split_ifs with hb hne hne
      · exact absurd hb (of_decide_eq_true hne)
      · exact (Option.none_or ..).symm
      · rw [AList.lookup_insert, Option.some_or]
      · exact absurd (decide_eq_true hb) hne
    · rw [List.dlookup_cons_ne _ _ hk]
      split_ifs
      · rfl
      · rw [AList.lookup_insert_ne hk]

/-- **When flags survive**: no key and no value has a separator in it, and no value is empty. -/
theorem read_write_iff (flags : FlagList) : (∀ key, (read flags.write).lookup key = flags.lookup key) ↔
    ∀ key value, flags.lookup key = some value → Plain key ∧ Plain value ∧ value ≠ [] := by
  constructor
  · intro hsame
    have hplain : flags.AllPlain := fun key value hflag => plain_read ((hsame key).trans hflag)
    intro key value hflag
    obtain ⟨hkey, hvalue⟩ := hplain key value hflag
    refine ⟨hkey, hvalue, fun hnil => ?_⟩
    have hread := lookup_read_write hplain key
    rw [hsame, hflag, hnil, Option.filter_some, if_neg (by decide)] at hread
    cases hread
  · intro hgood key
    rw [lookup_read_write fun k v h => ⟨(hgood k v h).1, (hgood k v h).2.1⟩]
    cases hflag : flags.lookup key with
    | none => rfl
    | some value =>
      rw [Option.filter_some, if_pos (by simpa using (hgood key value hflag).2.2)]

/-- Lists of the same flags make texts of one length, whatever their order. -/
theorem length_write_congr {flags flags' : FlagList} (hsame : ∀ key, flags.lookup key = flags'.lookup key) :
    flags.write.length = flags'.write.length := by
  have hperm : flags.entries.Perm flags'.entries :=
    List.lookup_ext flags.nodupKeys flags'.nodupKeys fun key value => by
      rw [show flags.entries.dlookup key = flags'.entries.dlookup key from hsame key]
  exact (hperm.flatMap_right _).length_eq

end FlagList

end RZEmulator.Chihiro
