import Mathlib.Algebra.BigOperators.Group.List.Basic
import RZEmulator.Chihiro.Monster

/-!
# The damage ledger

`sweep` is what the loop of `getDamageTag` does to the list, without the indices: an expired tag is removed,
and the tag that follows it is kept, whatever it is (`getDamageTagLoop_eq`). `NoSkip` says that this hits
neither an expired tag nor the one that is looked for; then, and only then, the expired tags before the
attacker's tag are what is removed (`sweep_of_noSkip`, `exists_kept_of_not_noSkip`).
-/

namespace RZEmulator.Chihiro

open Lib

/-! ## The loop on the list -/

/-- What is kept of the list before the tag that is found, what is removed, and the list from that tag on. -/
structure Sweep where
  kept : List DamageTag
  removed : List DamageTag
  rest : List DamageTag

def Sweep.keep (dt : DamageTag) (s : Sweep) : Sweep := { s with kept := dt :: s.kept }

def Sweep.remove (dt : DamageTag) (s : Sweep) : Sweep := { s with removed := dt :: s.removed }

@[simp] theorem Sweep.keep_kept (dt : DamageTag) (s : Sweep) : (s.keep dt).kept = dt :: s.kept := rfl
@[simp] theorem Sweep.keep_removed (dt : DamageTag) (s : Sweep) : (s.keep dt).removed = s.removed := rfl
@[simp] theorem Sweep.keep_rest (dt : DamageTag) (s : Sweep) : (s.keep dt).rest = s.rest := rfl
@[simp] theorem Sweep.remove_kept (dt : DamageTag) (s : Sweep) : (s.remove dt).kept = s.kept := rfl
@[simp] theorem Sweep.remove_removed (dt : DamageTag) (s : Sweep) : (s.remove dt).removed = dt :: s.removed := rfl
@[simp] theorem Sweep.remove_rest (dt : DamageTag) (s : Sweep) : (s.remove dt).rest = s.rest := rfl

def sweep (handle : Handle) (t : Nat) : List DamageTag → Sweep
  | [] => ⟨[], [], []⟩
  | [dt] =>
    if dt.uid = handle then ⟨[], [], [dt]⟩
    else if dt.expired t then ⟨[], [dt], []⟩ else ⟨[dt], [], []⟩
  | dt :: next :: l =>
    if dt.uid = handle then ⟨[], [], dt :: next :: l⟩
    else if dt.expired t then ((sweep handle t l).keep next).remove dt
    else (sweep handle t (next :: l)).keep dt

/-- The tags that `getDamageTag` is to look at before it finds the one it looks for. -/
def scanned (handle : Handle) (l : List DamageTag) : List DamageTag := l.takeWhile fun dt => dt.uid ≠ handle

/-- No expired tag before the attacker's is followed by an expired one or by the attacker's. -/
def NoSkip (handle : Handle) (t : Nat) : List DamageTag → Prop
  | dt :: next :: l => dt.uid = handle ∨
      (dt.expired t = true → next.uid ≠ handle ∧ next.expired t = false) ∧ NoSkip handle t (next :: l)
  | _ => True

instance NoSkip.decidable (handle : Handle) (t : Nat) : (l : List DamageTag) → Decidable (NoSkip handle t l)
  | [] | [_] => .isTrue trivial
  | dt :: next :: l =>
    have := NoSkip.decidable handle t (next :: l)
    inferInstanceAs (Decidable (dt.uid = handle ∨
      (dt.expired t = true → next.uid ≠ handle ∧ next.expired t = false) ∧ NoSkip handle t (next :: l)))

variable {handle : Handle} {t : Nat} {l : List DamageTag}

theorem sweep_perm (handle : Handle) (t : Nat) (l : List DamageTag) :
    l.Perm ((sweep handle t l).removed ++ ((sweep handle t l).kept ++ (sweep handle t l).rest)) := by
  induction l using sweep.induct handle t with
  | case1 => exact .refl _
  | case2 dt h => simp [sweep, h]
  | case3 dt h hexp => simp [sweep, h, hexp]
  | case4 dt h hexp => simp [sweep, h, hexp]
  | case5 dt next l h => simp [sweep, h]
  | case6 dt next l h hexp ih =>
    simp only [sweep, if_neg h, if_pos hexp, Sweep.remove_kept, Sweep.remove_removed, Sweep.remove_rest,
      Sweep.keep_kept, Sweep.keep_removed, Sweep.keep_rest, List.cons_append]
    refine List.Perm.cons dt ?_
    exact (ih.cons next).trans List.perm_middle.symm
  | case7 dt next l h hexp ih =>
    simp only [sweep, if_neg h, if_neg hexp, Sweep.keep_kept, Sweep.keep_removed, Sweep.keep_rest, List.cons_append]
    exact (ih.cons dt).trans List.perm_middle.symm

theorem sweep_rest_head : ∀ {tag : DamageTag} {tl : List DamageTag}, (sweep handle t l).rest = tag :: tl →
    tag.uid = handle := by
  induction l using sweep.induct handle t with
  | case1 => simp [sweep]
  | case2 dt h => simp [sweep, h]
  | case3 dt h hexp => simp [sweep, h, hexp]
  | case4 dt h hexp => simp [sweep, h, hexp]
  | case5 dt next l h => simp [sweep, h]
  | case6 dt next l h hexp ih =>
    simp only [sweep, if_neg h, if_pos hexp, Sweep.remove_rest, Sweep.keep_rest]
    exact ih
  | case7 dt next l h hexp ih =>
    simp only [sweep, if_neg h, if_neg hexp, Sweep.keep_rest]
    exact ih

theorem sweep_removed (dt : DamageTag) : dt ∈ (sweep handle t l).removed → dt.expired t = true := by
  induction l using sweep.induct handle t with
  | case1 => simp [sweep]
  | case2 dt h => simp [sweep, h]
  | case3 dt h hexp =>
    simp only [sweep, if_neg h, if_pos hexp, List.mem_singleton]
    rintro rfl
    exact hexp
  | case4 dt h hexp => simp [sweep, h, hexp]
  | case5 dt next l h => simp [sweep, h]
  | case6 dt next l h hexp ih =>
    simp only [sweep, if_neg h, if_pos hexp, Sweep.remove_removed, Sweep.keep_removed, List.mem_cons]
    rintro (rfl | hmem)
    · exact hexp
    · exact ih hmem
  | case7 dt next l h hexp ih =>
    simp only [sweep, if_neg h, if_neg hexp, Sweep.keep_removed]
    exact ih

/-- Without a skip exactly the expired ones of the scanned tags go, and the attacker's tag is found. -/
theorem sweep_of_noSkip (hskip : NoSkip handle t l) :
    sweep handle t l = ⟨(scanned handle l).filter fun dt => !dt.expired t,
      (scanned handle l).filter fun dt => dt.expired t, l.dropWhile fun dt => dt.uid ≠ handle⟩ := by
  induction l using sweep.induct handle t with
  | case1 => rfl
  | case2 dt h => simp [sweep, scanned, h]
  | case3 dt h hexp => simp [sweep, scanned, h, hexp]
  | case4 dt h hexp => simp [sweep, scanned, h, hexp]
  | case5 dt next l h => simp [sweep, scanned, h]
  | case6 dt next l h hexp ih =>
    obtain ⟨hnext, hrest⟩ := hskip.resolve_left h
    obtain ⟨hne, hfresh⟩ := hnext hexp
    have hl : NoSkip handle t l := by
      cases l with
      | nil => trivial
      | cons x l => exact (hrest.resolve_left hne).2
    simp [sweep, scanned, h, hexp, hne, hfresh, ih hl, Sweep.keep, Sweep.remove]
  | case7 dt next l h hexp ih =>
    obtain ⟨-, hrest⟩ := hskip.resolve_left h
    simp only [sweep, if_neg h, if_neg hexp, ih hrest, scanned]
    simp [h, hexp, Sweep.keep]

/-- A skip keeps a tag that is expired or the attacker's. -/
theorem exists_kept_of_not_noSkip (hskip : ¬NoSkip handle t l) :
    ∃ dt ∈ (sweep handle t l).kept, dt.uid = handle ∨ dt.expired t = true := by
  induction l using sweep.induct handle t with
  | case1 | case2 | case3 | case4 => exact absurd trivial hskip
  | case5 dt next l h => exact absurd (.inl h) hskip
  | case6 dt next l h hexp ih =>
    simp only [sweep, if_neg h, if_pos hexp, Sweep.remove_kept, Sweep.keep_kept]
    by_cases hnext : next.uid = handle ∨ next.expired t = true
    · exact ⟨next, List.mem_cons_self, hnext⟩
    · obtain ⟨hne, hfresh⟩ := not_or.mp hnext
      rw [Bool.not_eq_true] at hfresh
      have hl : ¬NoSkip handle t l := fun hl => by
        refine hskip (.inr ⟨fun _ => ⟨hne, hfresh⟩, ?_⟩)
        cases l with
        | nil => trivial
        | cons x l => exact .inr ⟨fun hexp => absurd (hfresh.symm.trans hexp) Bool.false_ne_true, hl⟩
      obtain ⟨dt', hmem, hdt'⟩ := ih hl
      exact ⟨dt', List.mem_cons_of_mem next hmem, hdt'⟩
  | case7 dt next l h hexp ih =>
    simp only [sweep, if_neg h, if_neg hexp, Sweep.keep_kept]
    have hl : ¬NoSkip handle t (next :: l) := fun hl => hskip (.inr ⟨fun hdt => absurd hdt hexp, hl⟩)
    obtain ⟨dt', hmem, hdt'⟩ := ih hl
    exact ⟨dt', List.mem_cons_of_mem dt hmem, hdt'⟩

/-- Until the attacker's tag is kept, only scanned ones are. -/
theorem kept_scanned (hkept : ∀ dt ∈ (sweep handle t l).kept, dt.uid ≠ handle) :
    ∀ dt ∈ (sweep handle t l).kept, dt ∈ scanned handle l := by
  induction l using sweep.induct handle t with
  | case1 => simp [sweep]
  | case2 dt h => simp [sweep, h]
  | case3 dt h hexp => simp [sweep, h, hexp]
  | case4 dt h hexp => simp [sweep, scanned, h, hexp]
  | case5 dt next l h => simp [sweep, h]
  | case6 dt next l h hexp ih =>
    simp only [sweep, if_neg h, if_pos hexp, Sweep.remove_kept, Sweep.keep_kept, List.forall_mem_cons] at hkept ⊢
    obtain ⟨hne, hkept⟩ := hkept
    have hscanned : scanned handle (dt :: next :: l) = dt :: next :: scanned handle l := by simp [scanned, h, hne]
    rw [hscanned]
    exact ⟨List.mem_cons_of_mem dt List.mem_cons_self,
      fun x hx => List.mem_cons_of_mem dt (List.mem_cons_of_mem next (ih hkept x hx))⟩
  | case7 dt next l h hexp ih =>
    simp only [sweep, if_neg h, if_neg hexp, Sweep.keep_kept, List.forall_mem_cons] at hkept ⊢
    have hscanned : scanned handle (dt :: next :: l) = dt :: scanned handle (next :: l) := by
      simp only [scanned, ne_eq, List.takeWhile_cons, decide_not, h, decide_false, Bool.not_false, if_true]
    rw [hscanned]
    exact ⟨List.mem_cons_self, fun x hx => List.mem_cons_of_mem dt (ih hkept.2 x hx)⟩

/-! ## The loop on the monster -/

namespace Monster

/-- `m` with the list `l`, after damages of the sum `gone` have been taken out of the total. -/
def swept (m : Monster) (gone : Int) (l : List DamageTag) : Monster :=
  { m with m_nTotalDamage := wrap32 (m.m_nTotalDamage - gone), m_vDamageList := l }

/-- The time of the tag that is found is set, unless the time is 0. -/
def touch (t : Nat) (dt : DamageTag) : DamageTag := if t ≠ 0 then { dt with nTime := t } else dt

def damageSum (l : List DamageTag) : Int := (l.map DamageTag.nDamage).sum

/-- What the loop gives for the result of the sweep: the index of the attacker's tag, and the monster. -/
def found (m : Monster) (t : Nat) (front : List DamageTag) (s : Sweep) : Option Nat × Monster :=
  match s.rest with
  | [] => (none, m.swept (damageSum s.removed) (front ++ s.kept))
  | dt :: l => (some (front ++ s.kept).length,
      m.swept (damageSum s.removed) (front ++ s.kept ++ touch t dt :: l))

variable {m m' : Monster} {front : List DamageTag} {n : Nat}

theorem swept_zero (hm : 0 ≤ m.m_nTotalDamage ∧ m.m_nTotalDamage < 2 ^ 32) :
    m.swept 0 m.m_vDamageList = m := by
  unfold swept
  rw [Int.sub_zero, wrap32_eq_self hm.1 hm.2]

theorem swept_swept (m : Monster) (a b : Int) (l l' : List DamageTag) :
    (m.swept a l).swept b l' = m.swept (a + b) l' := by
  unfold swept
  have hwrap : wrap32 (wrap32 (m.m_nTotalDamage - a) - b) = wrap32 (m.m_nTotalDamage - (a + b)) := by
    rw [Int.sub_eq_add_neg, wrap32_add]
    congr 1
    omega
  rw [hwrap]

/-- Removing a tag and keeping the next one, on both sides. -/
theorem found_remove (m : Monster) (front : List DamageTag) (dt next : DamageTag) (s : Sweep) (l : List DamageTag) :
    (m.swept dt.nDamage l).found t (front ++ [next]) s = m.found t front ((s.keep next).remove dt) := by
  unfold found
  cases hrest : s.rest with
  | nil =>
    rw [Sweep.remove_rest, Sweep.keep_rest, hrest]
    simp [swept_swept, damageSum]
  | cons tag tl =>
    rw [Sweep.remove_rest, Sweep.keep_rest, hrest]
    simp [swept_swept, damageSum]

theorem found_keep (m : Monster) (front : List DamageTag) (dt : DamageTag) (s : Sweep) :
    m.found t (front ++ [dt]) s = m.found t front (s.keep dt) := by
  unfold found
  cases hrest : s.rest with
  | nil =>
    rw [Sweep.keep_rest, hrest]
    simp
  | cons tag tl =>
    rw [Sweep.keep_rest, hrest]
    simp

theorem getDamageTagLoop_past {i : Nat} (hi : m.m_vDamageList.length ≤ i) :
    getDamageTagLoop handle t n i m = (none, m) := by
  cases n with
  | zero => rfl
  | succ n => rw [getDamageTagLoop, List.getElem?_eq_none_iff.mpr hi]

theorem getElem?_front {dt : DamageTag} (hlist : m.m_vDamageList = front ++ dt :: l) :
    m.m_vDamageList[front.length]? = some dt := by
  rw [hlist, List.getElem?_append_right (Nat.le_refl _), Nat.sub_self]
  rfl

/-- The attacker's tag is the next one. -/
theorem getDamageTagLoop_here {dt : DamageTag} (hlist : m.m_vDamageList = front ++ dt :: l) (h : dt.uid = handle)
    (hm : 0 ≤ m.m_nTotalDamage ∧ m.m_nTotalDamage < 2 ^ 32) :
    getDamageTagLoop handle t (n + 1) front.length m =
      (some front.length, m.swept 0 (front ++ touch t dt :: l)) := by
  have hself : m.swept 0 (front ++ touch t dt :: l) = { m with m_vDamageList := front ++ touch t dt :: l } := by
    unfold swept
    rw [Int.sub_zero, wrap32_eq_self hm.1 hm.2]
  simp only [getDamageTagLoop, getElem?_front hlist, if_pos h]
  rw [hself]
  congr 1
  unfold touch
  split_ifs with ht
  · rw [hlist, List.set_append_right _ _ (Nat.le_refl _), Nat.sub_self, List.set_cons_zero]
  · rw [← hlist]

theorem getDamageTagLoop_expired {dt : DamageTag} (hlist : m.m_vDamageList = front ++ dt :: l)
    (h : dt.uid ≠ handle) (hexp : dt.expired t = true) :
    getDamageTagLoop handle t (n + 1) front.length m =
      getDamageTagLoop handle t n (front.length + 1) (m.swept dt.nDamage (front ++ l)) := by
  have herase : m.m_vDamageList.eraseIdx front.length = front ++ l := by
    rw [hlist, List.eraseIdx_append_of_length_le (Nat.le_refl _), Nat.sub_self, List.eraseIdx_cons_zero]
  simp only [getDamageTagLoop, getElem?_front hlist, if_neg h, if_pos hexp, herase]
  rfl

theorem getDamageTagLoop_fresh {dt : DamageTag} (hlist : m.m_vDamageList = front ++ dt :: l)
    (h : dt.uid ≠ handle) (hexp : ¬dt.expired t = true) :
    getDamageTagLoop handle t (n + 1) front.length m = getDamageTagLoop handle t n (front.length + 1) m := by
  simp only [getDamageTagLoop, getElem?_front hlist, if_neg h, if_neg hexp]

theorem getDamageTagLoop_eq (hlist : m.m_vDamageList = front ++ l) (hn : l.length ≤ n)
    (hm : 0 ≤ m.m_nTotalDamage ∧ m.m_nTotalDamage < 2 ^ 32) :
    getDamageTagLoop handle t n front.length m = m.found t front (sweep handle t l) := by
  induction l using sweep.induct handle t generalizing n front m with
  | case1 =>
    rw [List.append_nil] at hlist
    rw [getDamageTagLoop_past (Nat.le_of_eq (congrArg List.length hlist))]
    simp [sweep, found, damageSum, ← hlist, swept_zero hm]
  | case2 dt h =>
    obtain ⟨n, rfl⟩ := Nat.exists_eq_succ_of_ne_zero (show n ≠ 0 by rintro rfl; simp at hn)
    rw [getDamageTagLoop_here hlist h hm]
    simp [sweep, h, found, damageSum]
  | case3 dt h hexp =>
    obtain ⟨n, rfl⟩ := Nat.exists_eq_succ_of_ne_zero (show n ≠ 0 by rintro rfl; simp at hn)
    rw [getDamageTagLoop_expired hlist h hexp, List.append_nil,
      getDamageTagLoop_past (Nat.le_succ front.length)]
    simp [sweep, h, hexp, found, damageSum]
  | case4 dt h hexp =>
    obtain ⟨n, rfl⟩ := Nat.exists_eq_succ_of_ne_zero (show n ≠ 0 by rintro rfl; simp at hn)
    have hlength : m.m_vDamageList.length = front.length + 1 := by rw [hlist, List.length_append]; rfl
    rw [getDamageTagLoop_fresh hlist h hexp, getDamageTagLoop_past (Nat.le_of_eq hlength)]
    simp [sweep, h, hexp, found, damageSum, ← hlist, swept_zero hm]
  | case5 dt next l h =>
    obtain ⟨n, rfl⟩ := Nat.exists_eq_succ_of_ne_zero (show n ≠ 0 by rintro rfl; simp at hn)
    rw [getDamageTagLoop_here hlist h hm]
    simp [sweep, h, found, damageSum]
  | case6 dt next l h hexp ih =>
    obtain ⟨n, rfl⟩ := Nat.exists_eq_succ_of_ne_zero (show n ≠ 0 by rintro rfl; simp at hn)
    have hlength : front.length + 1 = (front ++ [next]).length := by rw [List.length_append]; rfl
    have hlist' : (m.swept dt.nDamage (front ++ next :: l)).m_vDamageList = front ++ [next] ++ l := by
      rw [List.append_assoc]
      rfl
    simp only [List.length_cons] at hn
    rw [getDamageTagLoop_expired hlist h hexp, hlength, ih hlist' (by omega) (wrap32_range _), found_remove]
    rw [sweep, if_neg h, if_pos hexp]
  | case7 dt next l h hexp ih =>
    obtain ⟨n, rfl⟩ := Nat.exists_eq_succ_of_ne_zero (show n ≠ 0 by rintro rfl; simp at hn)
    have hlength : front.length + 1 = (front ++ [dt]).length := by rw [List.length_append]; rfl
    have hlist' : m.m_vDamageList = front ++ [dt] ++ next :: l := by rw [hlist, List.append_assoc]; rfl
    rw [getDamageTagLoop_fresh hlist h hexp, hlength, ih hlist' (by simpa using hn) hm, found_keep]
    rw [sweep, if_neg h, if_neg hexp]

theorem getDamageTag_eq (hm : 0 ≤ m.m_nTotalDamage ∧ m.m_nTotalDamage < 2 ^ 32) :
    m.getDamageTag handle t = m.found t [] (sweep handle t m.m_vDamageList) := by
  unfold getDamageTag
  split_ifs with hnil
  · have hself : m.swept 0 [] = m := by rw [← hnil, swept_zero hm]
    rw [hnil]
    simp [sweep, found, damageSum, hself]
  · have hlist : m.m_vDamageList = [] ++ m.m_vDamageList := rfl
    exact getDamageTagLoop_eq hlist (Nat.le_refl _) hm

/-! ## The damage of a hit -/

theorem addToTag_eq_some {d : Int} {dt : DamageTag} (hlist : m.m_vDamageList = front ++ dt :: l) :
    m.addToTag front.length d = some m' ↔
      IsInt32 (dt.nDamage + d) ∧
        m' = { m with m_vDamageList := front ++ { dt with nDamage := dt.nDamage + d } :: l } := by
  have hset : ∀ dt', m.m_vDamageList.set front.length dt' = front ++ dt' :: l := fun dt' => by
    rw [hlist, List.set_append_right _ _ (Nat.le_refl _), Nat.sub_self, List.set_cons_zero]
  simp only [addToTag, getElem?_front hlist, Option.map_eq_some_iff, add32_eq_some, hset]
  constructor
  · rintro ⟨sum, ⟨hrange, rfl⟩, rfl⟩
    exact ⟨hrange, rfl⟩
  · rintro ⟨hrange, rfl⟩
    exact ⟨_, ⟨hrange, rfl⟩, rfl⟩

/-- Without a tag of the attacker the damage is counted twice in the new tag and once in the total. -/
theorem addDamage_new {d : Int} {ct : Nat} (hm : 0 ≤ m.m_nTotalDamage ∧ m.m_nTotalDamage < 2 ^ 32)
    (hrest : (sweep handle ct m.m_vDamageList).rest = []) (hadd : m.addDamage handle d ct = some m') :
    m'.m_vDamageList = (sweep handle ct m.m_vDamageList).kept ++ [⟨handle, ct, d + d⟩] ∧
      m'.m_nTotalDamage =
        wrap32 (m.m_nTotalDamage - damageSum (sweep handle ct m.m_vDamageList).removed + d) := by
  have hget : m.getDamageTag handle ct = (none, m.swept (damageSum (sweep handle ct m.m_vDamageList).removed)
      (sweep handle ct m.m_vDamageList).kept) := by
    rw [getDamageTag_eq hm]
    simp [found, hrest]
  simp only [addDamage, hget] at hadd
  obtain ⟨-, rfl⟩ := (addToTag_eq_some rfl).mp hadd
  exact ⟨rfl, wrap32_add _ _⟩

/-- The tag of the attacker is found. -/
theorem addDamage_found {d : Int} {ct : Nat} {dt : DamageTag} {tl : List DamageTag}
    (hm : 0 ≤ m.m_nTotalDamage ∧ m.m_nTotalDamage < 2 ^ 32)
    (hrest : (sweep handle ct m.m_vDamageList).rest = dt :: tl) (hadd : m.addDamage handle d ct = some m') :
    m'.m_vDamageList = (sweep handle ct m.m_vDamageList).kept ++
        { touch ct dt with nDamage := (touch ct dt).nDamage + d } :: tl ∧
      m'.m_nTotalDamage =
        wrap32 (m.m_nTotalDamage - damageSum (sweep handle ct m.m_vDamageList).removed + d) := by
  have hget : m.getDamageTag handle ct = (some (sweep handle ct m.m_vDamageList).kept.length,
      m.swept (damageSum (sweep handle ct m.m_vDamageList).removed)
        ((sweep handle ct m.m_vDamageList).kept ++ touch ct dt :: tl)) := by
    rw [getDamageTag_eq hm]
    simp [found, hrest]
  simp only [addDamage, hget] at hadd
  obtain ⟨-, rfl⟩ := (addToTag_eq_some rfl).mp hadd
  exact ⟨rfl, wrap32_add _ _⟩

/-! ## What a hit leaves alone -/

variable {a a' : Monster} {pFrom : Attacker}

theorem getDamageTagLoop_same (handle : Handle) (t n i : Nat) (a : Monster) :
    (getDamageTagLoop handle t n i a).2.m_hTamer = a.m_hTamer ∧
      (getDamageTagLoop handle t n i a).2.nHealth = a.nHealth := by
  induction n generalizing i a with
  | zero => exact ⟨rfl, rfl⟩
  | succ n ih =>
    unfold getDamageTagLoop
    cases a.m_vDamageList[i]? with
    | none => exact ⟨rfl, rfl⟩
    | some dt =>
      dsimp only
      split_ifs
      · exact ⟨rfl, rfl⟩
      · exact ⟨rfl, rfl⟩
      · exact ih _ _
      · exact ih _ _

theorem getDamageTag_same (a : Monster) (handle : Handle) (t : Nat) :
    (a.getDamageTag handle t).2.m_hTamer = a.m_hTamer ∧ (a.getDamageTag handle t).2.nHealth = a.nHealth := by
  unfold getDamageTag
  split_ifs
  · exact ⟨rfl, rfl⟩
  · exact getDamageTagLoop_same _ _ _ _ _

theorem addToTag_same {i : Nat} {n : Int} (h : a.addToTag i n = some a') :
    a'.m_hTamer = a.m_hTamer ∧ a'.nHealth = a.nHealth := by
  unfold addToTag at h
  cases htag : a.m_vDamageList[i]? with
  | none =>
    rw [htag] at h
    cases h
  | some tag =>
    rw [htag] at h
    obtain ⟨sum, -, rfl⟩ := Option.map_eq_some_iff.mp h
    exact ⟨rfl, rfl⟩

theorem addDamage_same {n : Int} {handle : Handle} {ct : Nat} (h : a.addDamage handle n ct = some a') :
    a'.m_hTamer = a.m_hTamer ∧ a'.nHealth = a.nHealth := by
  have hsame := getDamageTag_same a handle ct
  unfold addDamage at h
  cases htag : a.getDamageTag handle ct with
  | mk o b =>
    rw [htag] at h hsame
    cases o with
    | none => exact ⟨(addToTag_same h).1.trans hsame.1, (addToTag_same h).2.trans hsame.2⟩
    | some i => exact ⟨(addToTag_same h).1.trans hsame.1, (addToTag_same h).2.trans hsame.2⟩

theorem setFirstAttacker_same (a : Monster) (pFrom : Attacker) (ct : Nat) :
    (a.setFirstAttacker pFrom ct).m_hTamer = a.m_hTamer ∧ (a.setFirstAttacker pFrom ct).nHealth = a.nHealth := by
  unfold setFirstAttacker
  split_ifs <;> exact ⟨rfl, rfl⟩

theorem prolongTaming_same {ct : Nat} (h : a.prolongTaming pFrom ct = some a') :
    a'.m_hTamer = a.m_hTamer ∧ a'.nHealth = a.nHealth := by
  unfold prolongTaming at h
  split_ifs at h
  · obtain ⟨time, -, rfl⟩ := Option.map_eq_some_iff.mp h
    exact ⟨rfl, rfl⟩
  · cases h
    exact ⟨rfl, rfl⟩

theorem damage_same (a : Monster) (n : Int) : (a.damage n).m_hTamer = a.m_hTamer := by
  unfold damage
  split_ifs <;> rfl

theorem onDamage_same {n real : Int} {ct : Nat} (h : a.onDamage pFrom n ct = some (real, a')) :
    real = a.clipped n ∧ a'.m_hTamer = a.m_hTamer ∧ a'.nHealth = a.nHealth := by
  unfold onDamage at h
  dsimp only at h
  split_ifs at h with hzero
  · cases h
    exact ⟨rfl, rfl, rfl⟩
  · obtain ⟨a2, hadd, h⟩ := Option.bind_eq_some_iff.mp h
    obtain ⟨a3, hprolong, heq⟩ := Option.map_eq_some_iff.mp h
    cases heq
    have h1 := setFirstAttacker_same a pFrom ct
    have h2 := addDamage_same hadd
    have h3 := prolongTaming_same hprolong
    exact ⟨rfl, h3.1.trans (h2.1.trans h1.1), h3.2.trans (h2.2.trans h1.2)⟩

/-- A hit leaves the tamer, and kills if and only if it takes all the health. -/
theorem dealDamage_spec {n ct : Nat} (h : a.dealDamage pFrom n ct = some a') :
    a'.m_hTamer = a.m_hTamer ∧ (a'.nHealth = 0 ↔ a.nHealth ≤ n) := by
  obtain ⟨⟨real, b⟩, hon, rfl⟩ := Option.map_eq_some_iff.mp h
  obtain ⟨rfl, htamer, hhealth⟩ := onDamage_same hon
  refine ⟨(damage_same b _).trans htamer, ?_⟩
  simp only [damage, clipped]
  split_ifs <;> (try dsimp only) <;> omega

end Monster

end RZEmulator.Chihiro
