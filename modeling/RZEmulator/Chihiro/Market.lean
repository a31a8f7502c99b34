import Mathlib.Data.List.Induction
import RZEmulator.Chihiro.Shop

/-!
# The markets of the NPCs

`LoadMarketResource` reads the rows in the order of their names and closes a market when the name changes.
`getMarketInfo_eq` says that every market then has its own rows, whatever order the database sorts by, as long as
no market is without a name.

The price of a row is taken as the loader has computed it.
-/

namespace RZEmulator.Chihiro

/-- The loader between two rows. -/
structure MarketLoader where
  _marketResourceStore : String → Option (List MarketInfo)
  lastMarket : String
  vContainer : List MarketInfo

namespace MarketLoader

/-- `_marketResourceStore[lastMarket] = vContainer` -/
def stored (l : MarketLoader) : String → Option (List MarketInfo) :=
  Function.update l._marketResourceStore l.lastMarket (some l.vContainer)

/-- The market of the row. The first row of all finds none that is open, and neither does a row after a market without a
name. -/
def entered (l : MarketLoader) (name : String) : MarketLoader :=
  if l.lastMarket = "" then { l with lastMarket := name } else l

/-- The body of the loop, once a market is open. -/
def changed (l : MarketLoader) (name : String) : MarketLoader :=
  if l.lastMarket ≠ name then ⟨l.stored, name, []⟩ else l

/-- The body of the loop. -/
def row (l : MarketLoader) (info : MarketInfo) : MarketLoader :=
  let l := (l.entered info.name).changed info.name
  { l with vContainer := l.vContainer ++ [info] }

end MarketLoader

/-- `LoadMarketResource`: the store that the rows make. -/
def loadMarketResource (rows : List MarketInfo) : String → Option (List MarketInfo) :=
  if rows.isEmpty then fun _ => none else (rows.foldl MarketLoader.row ⟨fun _ => none, "", []⟩).stored

/-- `GetMarketInfo` -/
def getMarketInfo (rows : List MarketInfo) (szKey : String) : Option (List MarketInfo) := loadMarketResource rows szKey

/-! ## What is loaded -/

/-- The rows of a market. -/
def rowsNamed (rows : List MarketInfo) (name : String) : List MarketInfo := rows.filter (·.name = name)

/-- The rows come sorted by name, and no name is empty. -/
structure SortedRows (le : String → String → Prop) (rows : List MarketInfo) : Prop where
  antisymm : ∀ a b, le a b → le b a → a = b
  sorted : rows.Pairwise fun a b => le a.name b.name
  named : ∀ info ∈ rows, info.name ≠ ""

variable {le : String → String → Prop} {rows : List MarketInfo} {info : MarketInfo} {l : MarketLoader} {name : String}

theorem rowsNamed_append_of_eq (rows : List MarketInfo) (h : info.name = name) :
    rowsNamed (rows ++ [info]) name = rowsNamed rows name ++ [info] := by
  rw [rowsNamed, List.filter_append, List.filter_singleton, decide_eq_true h]
  rfl

theorem rowsNamed_append_of_ne (rows : List MarketInfo) (h : info.name ≠ name) :
    rowsNamed (rows ++ [info]) name = rowsNamed rows name := by
  rw [rowsNamed, List.filter_append, List.filter_singleton, decide_eq_false h, cond_false, List.append_nil]
  rfl

theorem SortedRows.init (h : SortedRows le (rows ++ [info])) : SortedRows le rows :=
  ⟨h.antisymm, (List.pairwise_append.mp h.sorted).1, fun a ha => h.named a (List.mem_append_left _ ha)⟩

/-- A market that is not the last one has got all its rows. -/
theorem SortedRows.rowsNamed_eq_nil {last : MarketInfo} (h : SortedRows le (rows ++ [last] ++ [info]))
    (hne : last.name ≠ info.name) : rowsNamed (rows ++ [last]) info.name = [] := by
  refine List.filter_eq_nil_iff.mpr fun a ha heq => hne ?_
  have heq : a.name = info.name := of_decide_eq_true heq
  obtain ⟨hbefore, -, hlast⟩ := List.pairwise_append.mp h.sorted
  have hafter : le last.name info.name := hlast last (List.mem_append_right _ (List.mem_singleton_self _)) info
    (List.mem_singleton_self _)
  rcases List.mem_append.mp ha with ha | ha
  · have hfirst := (List.pairwise_append.mp hbefore).2.2 a ha last (List.mem_singleton_self _)
    rw [heq] at hfirst
    exact h.antisymm _ _ hafter hfirst
  · rw [← heq, List.mem_singleton.mp ha]

/-- After the rows: the market of the last row is open and has its rows, and storing it completes the store. -/
structure MarketLoader.Loaded (l : MarketLoader) (rows : List MarketInfo) (last : MarketInfo) : Prop where
  lastMarket : l.lastMarket = last.name
  vContainer : l.vContainer = rowsNamed rows last.name
  stored : ∀ name, l.stored name = if rowsNamed rows name = [] then none else some (rowsNamed rows name)

namespace MarketLoader

theorem row_of_eq (hopen : l.lastMarket ≠ "") (h : l.lastMarket = info.name) :
    l.row info = ⟨l._marketResourceStore, l.lastMarket, l.vContainer ++ [info]⟩ := by
  rw [row, entered, if_neg hopen, changed, if_neg (not_not.mpr h)]

theorem row_of_ne (hopen : l.lastMarket ≠ "") (h : l.lastMarket ≠ info.name) :
    l.row info = ⟨l.stored, info.name, [info]⟩ := by
  rw [row, entered, if_neg hopen, changed, if_pos h]
  rfl

/-- The first row opens its market. -/
theorem loaded_first (info : MarketInfo) : (row ⟨fun _ => none, "", []⟩ info).Loaded [info] info := by
  have hrow : row ⟨fun _ => none, "", []⟩ info = ⟨fun _ => none, info.name, [info]⟩ := by
    rw [row, entered, if_pos rfl, changed, if_neg (not_not.mpr rfl)]
    rfl
  have hself : rowsNamed [info] info.name = [info] := rowsNamed_append_of_eq [] rfl
  rw [hrow]
  refine ⟨rfl, hself.symm, fun name => ?_⟩
  by_cases hname : info.name = name
  · subst hname
    rw [hself, if_neg (List.cons_ne_nil _ _), stored, Function.update_self]
  · have hother : rowsNamed [info] name = [] := rowsNamed_append_of_ne [] hname
    rw [hother, if_pos rfl, stored, Function.update_of_ne (Ne.symm hname)]

/-- The step lemma: one more row. -/
theorem Loaded.row {last : MarketInfo} (hsorted : SortedRows le (rows ++ [last] ++ [info]))
    (h : l.Loaded (rows ++ [last]) last) :
    (l.row info).Loaded (rows ++ [last] ++ [info]) info := by
  have hopen : l.lastMarket ≠ "" := by
    rw [h.lastMarket]
    exact hsorted.named last (List.mem_append_left _ (List.mem_append_right _ (List.mem_singleton_self _)))
  by_cases hname : last.name = info.name
  · rw [row_of_eq hopen (h.lastMarket.trans hname)]
    refine ⟨h.lastMarket.trans hname, ?_, fun name => ?_⟩
    · rw [rowsNamed_append_of_eq _ rfl, h.vContainer, hname]
    · by_cases hk : info.name = name
      · subst hk
        rw [rowsNamed_append_of_eq _ rfl, if_neg (List.append_ne_nil_of_right_ne_nil _ (List.cons_ne_nil _ _)),
          MarketLoader.stored, h.lastMarket, hname, Function.update_self, h.vContainer, hname]
      · have hother := h.stored name
        have hlast : name ≠ l.lastMarket := fun heq => hk (by rw [heq, h.lastMarket, hname])
        rw [MarketLoader.stored, Function.update_of_ne hlast] at hother
        rw [rowsNamed_append_of_ne _ hk, MarketLoader.stored, Function.update_of_ne hlast, hother]
  · have hnone := hsorted.rowsNamed_eq_nil hname
    rw [row_of_ne hopen (by rw [h.lastMarket]; exact hname)]
    refine ⟨rfl, ?_, fun name => ?_⟩
    · rw [rowsNamed_append_of_eq _ rfl, hnone, List.nil_append]
    · by_cases hk : info.name = name
      · subst hk
        rw [rowsNamed_append_of_eq _ rfl, hnone, List.nil_append, if_neg (List.cons_ne_nil _ _), MarketLoader.stored,
          Function.update_self]
      · rw [rowsNamed_append_of_ne _ hk, MarketLoader.stored, Function.update_of_ne (Ne.symm hk)]
        exact h.stored name

/-- The loop over all rows. -/
theorem loaded_foldl (rows : List MarketInfo) :
    ∀ last, SortedRows le (rows ++ [last]) →
      ((rows ++ [last]).foldl MarketLoader.row ⟨fun _ => none, "", []⟩).Loaded (rows ++ [last]) last := by
  induction rows using List.reverseRecOn with
  | nil => exact fun last _ => loaded_first last
  | append_singleton rows prev ih =>
    intro last hsorted
    rw [List.foldl_append]
    exact (ih prev hsorted.init).row hsorted

end MarketLoader

/-- **Every market has its rows**, in their order. -/
theorem getMarketInfo_eq (hsorted : SortedRows le rows) (szKey : String) :
    getMarketInfo rows szKey = if rowsNamed rows szKey = [] then none else some (rowsNamed rows szKey) := by
  unfold getMarketInfo loadMarketResource
  rcases List.eq_nil_or_concat rows with rfl | ⟨init, last, rfl⟩
  · rfl
  · rw [List.concat_eq_append] at hsorted ⊢
    rw [if_neg (by simp)]
    exact (MarketLoader.loaded_foldl init last hsorted).stored szKey

/-- The market that a player was shown is found again by the name that its first row has. -/
theorem getMarketInfo_name (hsorted : SortedRows le rows) {szKey : String} {first : MarketInfo} {rest : List MarketInfo}
    (hfound : getMarketInfo rows szKey = some (first :: rest)) : first.name = szKey := by
  rw [getMarketInfo_eq hsorted] at hfound
  split_ifs at hfound
  have hmem : first ∈ rowsNamed rows szKey := by
    rw [Option.some.inj hfound]
    exact List.mem_cons_self
  exact of_decide_eq_true (List.mem_filter.mp hmem).2

end RZEmulator.Chihiro
