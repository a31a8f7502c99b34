import Mathlib.Data.List.Induction
import RZEmulator.Shared.Tokenizer

/-!
# The triggers of a dialog

The dialog of a player, the menu that `AddDialogMenu` builds, and `IsValidTrigger` and `onDialog`, which look a trigger up in it
before it is run as a script. The labels of the menu stand beside its triggers and are taken for triggers too.
-/

namespace RZEmulator.Chihiro

open Shared

abbrev ByteText := List UInt8

/-- `'\t'` -/
def TAB : UInt8 := 9

/-- An entry of the menu: the label that is shown, and the trigger. -/
structure MenuEntry where
  szKey : ByteText
  szValue : ByteText
  deriving DecidableEq

structure Dialog where
  m_nDialogType : Int := 0
  m_bNonNPCDialog : Bool := false
  m_szDialogTitle : ByteText := []
  m_szDialogText : ByteText := []
  m_szDialogMenu : ByteText := []
  m_szSpecialDialogMenu : ByteText := []
  deriving DecidableEq

namespace Dialog

def setDialogTitle (d : Dialog) (szTitle : ByteText) (type : Int) : Dialog :=
  if szTitle = [] then d
  else { d with
    m_nDialogType := type
    m_bNonNPCDialog := d.m_bNonNPCDialog || type ≠ 0
    m_szDialogTitle := szTitle
    m_szDialogMenu := []
    m_szSpecialDialogMenu := [] }

def setDialogText (d : Dialog) (szText : ByteText) : Dialog :=
  if szText = [] then d else { d with m_szDialogText := szText, m_szDialogMenu := [], m_szSpecialDialogMenu := [] }

/-- `AddDialogMenu` takes no empty label, and no tabulators. -/
def takes (e : MenuEntry) : Bool := decide (e.szKey ≠ [] ∧ TAB ∉ e.szKey ∧ TAB ∉ e.szValue)

/-- What stands in the menu for an entry. -/
def entryText (e : MenuEntry) : ByteText := TAB :: e.szKey ++ TAB :: e.szValue ++ [TAB]

def addDialogMenu (d : Dialog) (e : MenuEntry) : Dialog :=
  if takes e = true then { d with m_szDialogMenu := d.m_szDialogMenu ++ entryText e } else d

def clearDialogMenu (d : Dialog) : Dialog := { d with m_szDialogMenu := [] }

def showDialog (d : Dialog) : Dialog :=
  if d.m_szDialogTitle ≠ [] ∨ d.m_szDialogText ≠ [] then
    { d with m_nDialogType := 0, m_szDialogTitle := [], m_szDialogText := [] }
  else d

/-- `IsValidTrigger`: a token is compared as a C string with all bytes of the trigger. -/
def isValidTrigger (d : Dialog) (szTrigger : ByteText) : Bool := (tokenizer d.m_szDialogMenu TAB).any fun s => s = szTrigger

def isFixedDialogTrigger (_ : Dialog) (_ : ByteText) : Bool := false

/-- The script that `RunString` gives to the interpreter: none for the text `"0"`. -/
def runString (szLua : ByteText) : Option ByteText := if szLua = [48] then none else some szLua

/-- The script that `onDialog` runs for a trigger of the client. -/
def onDialog (d : Dialog) (npc : Bool) (trigger : ByteText) : Option ByteText :=
  if trigger = [] then none
  else if d.isValidTrigger trigger = false ∧ d.isFixedDialogTrigger trigger = false then none
  else if npc = false then none
  else runString trigger

inductive DialogEvent
  | setDialogTitle (szTitle : ByteText) (type : Int)
  | setDialogText (szText : ByteText)
  | addDialogMenu (e : MenuEntry)
  | clearDialogMenu
  | showDialog

def handle (d : Dialog) : DialogEvent → Dialog
  | .setDialogTitle szTitle type => d.setDialogTitle szTitle type
  | .setDialogText szText => d.setDialogText szText
  | .addDialogMenu e => d.addDialogMenu e
  | .clearDialogMenu => d.clearDialogMenu
  | .showDialog => d.showDialog

/-- The dialog after the events. -/
def after (events : List DialogEvent) : Dialog := events.foldl handle {}

/-! ## What is claimed -/

/-- The entries that have been added since the menu was cleared. -/
def offer (l : List MenuEntry) : DialogEvent → List MenuEntry
  | .setDialogTitle szTitle _ => if szTitle = [] then l else []
  | .setDialogText szText => if szText = [] then l else []
  | .addDialogMenu e => if takes e = true then l ++ [e] else l
  | .clearDialogMenu => []
  | .showDialog => l

def offered (events : List DialogEvent) : List MenuEntry := events.foldl offer []

/-- A trigger is valid exactly if it is one of those offered, and only an offered one reaches the interpreter. -/
structure TriggerRight (d : Dialog) (l : List MenuEntry) (npc : Bool) (t : ByteText) : Prop where
  valid : d.isValidTrigger t = true ↔ t ∈ l.map MenuEntry.szValue
  scripts : ∀ script, d.onDialog npc t = some script → script ∈ l.map MenuEntry.szValue

/-- The triggers of the entries before the first zero byte. -/
def reached : List MenuEntry → List ByteText
  | [] => []
  | e :: l => if 0 ∈ e.szKey ∨ 0 ∈ e.szValue then [] else e.szValue :: reached l

/-- The other texts that are read: the empty one before each entry, its label, and what stands before the first zero byte. -/
def labels : List MenuEntry → List ByteText
  | [] => []
  | e :: l =>
    [] :: if 0 ∈ e.szKey then lastToken (cString e.szKey)
      else e.szKey :: if 0 ∈ e.szValue then lastToken (cString e.szValue) else labels l

/-- The trigger is no label of the menu, unless an entry has it as its trigger too; and one that is offered is read before the
first zero byte. -/
structure TriggerClear (l : List MenuEntry) (t : ByteText) : Prop where
  label : t ∈ labels l → t ∈ l.map MenuEntry.szValue
  visible : t ∈ l.map MenuEntry.szValue → t ∈ reached l ∨ t ∈ labels l

/-! ## The menu -/

/-- The menu is the text of the entries. -/
theorem menu_after (events : List DialogEvent) :
    (after events).m_szDialogMenu = (offered events).flatMap entryText ∧ ∀ e ∈ offered events, takes e = true := by
  induction events using List.reverseRecOn with
  | nil => exact ⟨rfl, nofun⟩
  | append_singleton events e ih =>
    obtain ⟨hmenu, htakes⟩ := ih
    have hafter : after (events ++ [e]) = (after events).handle e := List.foldl_append ..
    have hoffered : offered (events ++ [e]) = offer (offered events) e := List.foldl_append ..
    rw [hafter, hoffered]
    cases e with
    | setDialogTitle szTitle type =>
      unfold handle offer setDialogTitle
      dsimp only
      split_ifs
      · exact ⟨hmenu, htakes⟩
      · exact ⟨rfl, nofun⟩
    | setDialogText szText =>
      unfold handle offer setDialogText
      dsimp only
      split_ifs
      · exact ⟨hmenu, htakes⟩
      · exact ⟨rfl, nofun⟩
    | addDialogMenu e =>
      unfold handle offer addDialogMenu
      dsimp only
      split_ifs with he
      · refine ⟨?_, fun e' he' => ?_⟩
        · rw [List.flatMap_append, List.flatMap_singleton, ← hmenu]
        · rcases List.mem_append.mp he' with he' | he'
          · exact htakes e' he'
          · exact List.mem_singleton.mp he' ▸ he
      · exact ⟨hmenu, htakes⟩
    | clearDialogMenu => exact ⟨rfl, nofun⟩
    | showDialog =>
      unfold handle offer showDialog
      dsimp only
      split_ifs <;> exact ⟨hmenu, htakes⟩

/-- The tokens of a menu are the triggers that are reached, and the labels. -/
theorem mem_tokenizer {l : List MenuEntry} (hl : ∀ e ∈ l, takes e = true) (t : ByteText) :
    t ∈ tokenizer (l.flatMap entryText) TAB ↔ t ∈ reached l ∨ t ∈ labels l := by
  induction l with
  | nil => exact iff_of_false List.not_mem_nil fun h => h.elim List.not_mem_nil List.not_mem_nil
  | cons e l ih =>
    rw [List.forall_mem_cons] at hl
    obtain ⟨-, hkey, hvalue⟩ := of_decide_eq_true hl.1
    have htext : (e :: l).flatMap entryText =
        TAB :: (e.szKey ++ TAB :: (e.szValue ++ TAB :: l.flatMap entryText)) := by
      rw [List.flatMap_cons, entryText]
      simp
    have hfirst : tokenizer ((e :: l).flatMap entryText) TAB =
        [] :: tokenLoop TAB [] (e.szKey ++ TAB :: (e.szValue ++ TAB :: l.flatMap entryText)) := by
      rw [htext, tokenizer, tokenLoop, if_pos rfl]
    rw [hfirst, reached, labels]
    by_cases hkz : 0 ∈ e.szKey
    · rw [tokenLoop_of_zero hkey hkz, if_pos (Or.inl hkz), if_pos hkz]
      simp
    · rw [tokenLoop_append hkey hkz, if_neg hkz]
      by_cases hvz : 0 ∈ e.szValue
      · rw [tokenLoop_of_zero hvalue hvz, if_pos (Or.inr hvz), if_pos hvz]
        simp
      · rw [tokenLoop_append hvalue hvz, if_neg (not_or.mpr ⟨hkz, hvz⟩), if_neg hvz]
        have hrest := ih hl.2
        rw [tokenizer] at hrest
        simp only [List.nil_append, List.mem_cons, hrest]
        tauto

/-- **The triggers of a dialog.** After every sequence of calls, a text of the client is answered as it should be exactly if it
is no label of the menu that no entry has as its trigger, and a trigger that is offered stands before the first zero byte. -/
theorem triggerRight_iff (events : List DialogEvent) (npc : Bool) (t : ByteText) :
    TriggerRight (after events) (offered events) npc t ↔ TriggerClear (offered events) t := by
  obtain ⟨hmenu, htakes⟩ := menu_after events
  have hvalid : (after events).isValidTrigger t = true ↔ t ∈ reached (offered events) ∨ t ∈ labels (offered events) := by
    rw [← mem_tokenizer htakes, ← hmenu, isValidTrigger, List.any_eq_true]
    simp
  have hreached : ∀ l : List MenuEntry, t ∈ reached l → t ∈ l.map MenuEntry.szValue := by
    intro l
    induction l with
    | nil => exact fun h => h
    | cons e l ih =>
      rw [reached]
      split_ifs with hz
      · exact nofun
      · intro h
        exact (List.mem_cons.mp h).elim (fun h => h ▸ List.mem_cons_self) fun h => List.mem_cons_of_mem _ (ih h)
  constructor
  · rintro ⟨hright, -⟩
    exact ⟨fun h => hright.mp (hvalid.mpr (.inr h)), fun h => hvalid.mp (hright.mpr h)⟩
  · rintro ⟨hlabel, hvisible⟩
    have hright : (after events).isValidTrigger t = true ↔ t ∈ (offered events).map MenuEntry.szValue := by
      rw [hvalid]
      exact ⟨fun h => h.elim (hreached _) hlabel, hvisible⟩
    refine ⟨hright, fun script hscript => ?_⟩
    unfold onDialog runString at hscript
    split_ifs at hscript with hempty hno hnpc hzero
    obtain rfl := Option.some.inj hscript
    exact hright.mp ((Bool.eq_false_or_eq_true _).resolve_right fun h => hno ⟨h, rfl⟩)

/-- The label `"K"` of the one entry of a menu is valid as a trigger, and is run. -/
theorem not_triggerRight_label :
    ¬∀ events npc t, TriggerRight (after events) (offered events) npc t := by
  intro h
  have hright := (h [.addDialogMenu ⟨[75], [86]⟩] true [75]).scripts [75] (by decide)
  exact absurd hright (by decide)

end Dialog

end RZEmulator.Chihiro
