import Mathlib.Data.List.TakeWhile
import RZEmulator.Chihiro.DamageLedger
import RZEmulator.Lib.Keyed
import RZEmulator.Lib.Run

/-!
# Runs of hits

The total is to be the sum of the tags, each attacker is to have one tag, with the damage that he has dealt
since its creation, and a hit is to remove the expired tags that are scanned, no more and no less. `Claimed`
says so of the state at the end of a run, and `claimed_step_iff` says after which hits it still is so: those
of an attacker who has a tag already, as long as no expired tag is skipped and the total does not wrap.
-/

namespace RZEmulator.Chihiro

open Lib

namespace Monster

inductive DamageEvent
  | hit (pFrom : Attacker) (nDamage ct : Nat)
  | setHealth (hp : Nat)

def handleDamage (m : Monster) : DamageEvent → Option Monster
  | .hit pFrom nDamage ct => m.dealDamage pFrom nDamage ct
  | .setHealth hp => some { m with nHealth := hp }

def uids (m : Monster) : List Handle := m.m_vDamageList.map DamageTag.uid

/-- The damage in the tag of the unit. -/
def damageOf (m : Monster) (uid : Handle) : Int :=
  ((m.m_vDamageList.find? fun dt => dt.uid = uid).map DamageTag.nDamage).getD 0

/-- The damage that the unit deals. -/
def dealtBy (m : Monster) (uid : Handle) : DamageEvent → Int
  | .hit pFrom nDamage _ => if pFrom.handle = uid then m.clipped nDamage else 0
  | .setHealth _ => 0

/-- The damage that the unit has dealt since its tag was created: a tag that is not there before a transition is
created in it. What the tags of the first state say is taken to have been dealt before the run. -/
def dealt (start : Monster) (uid : Handle) : History Monster DamageEvent → Int
  | [] => start.damageOf uid
  | tr :: h => (if uid ∈ tr.before.uids then dealt start uid h else 0) + tr.before.dealtBy uid tr.event

/-- The expired tags that a hit scans. -/
def outdated (m : Monster) (pFrom : Attacker) (ct : Nat) : List DamageTag :=
  (scanned pFrom.handle m.m_vDamageList).filter fun dt => dt.expired ct

/-- A hit that does damage removes the tags that are outdated and no others, and their damage from the total. -/
def ExpiresExactly (tr : Transition Monster DamageEvent) : Prop :=
  match tr.event with
  | .hit pFrom nDamage ct => tr.before.clipped nDamage ≠ 0 →
      (∀ dt ∈ tr.before.m_vDamageList, dt.uid ∈ tr.after.uids ↔ dt ∉ tr.before.outdated pFrom ct) ∧
        tr.after.m_nTotalDamage = tr.before.m_nTotalDamage - damageSum (tr.before.outdated pFrom ct) +
          tr.before.clipped nDamage
  | .setHealth _ => True

structure Claimed (start : Monster) (h : History Monster DamageEvent) (m : Monster) : Prop where
  total : m.m_nTotalDamage = damageSum m.m_vDamageList
  unique : m.uids.Nodup
  dealt : ∀ dt ∈ m.m_vDamageList, dt.nDamage = dealt start dt.uid h
  expiry : ∀ tr ∈ h, ExpiresExactly tr

/-- The hit does no damage, or the attacker has a tag, no expired tag is skipped and the total does not wrap. -/
def Careful (m : Monster) : DamageEvent → Prop
  | .hit pFrom nDamage ct => m.clipped nDamage = 0 ∨
      pFrom.handle ∈ m.uids ∧ NoSkip pFrom.handle ct m.m_vDamageList ∧
        m.m_nTotalDamage - damageSum (m.outdated pFrom ct) + m.clipped nDamage < 2 ^ 32
  | .setHealth _ => True

instance (m : Monster) : (e : DamageEvent) → Decidable (Careful m e)
  | .hit pFrom nDamage ct => inferInstanceAs (Decidable (m.clipped nDamage = 0 ∨
      pFrom.handle ∈ m.uids ∧ NoSkip pFrom.handle ct m.m_vDamageList ∧
        m.m_nTotalDamage - damageSum (m.outdated pFrom ct) + m.clipped nDamage < 2 ^ 32))
  | .setHealth _ => .isTrue trivial

/-! ## What a hit does -/

/-- What every function keeps. -/
structure LedgerOk (m : Monster) : Prop where
  health : 0 ≤ m.nHealth
  range : 0 ≤ m.m_nTotalDamage ∧ m.m_nTotalDamage < 2 ^ 32
  nonneg : ∀ dt ∈ m.m_vDamageList, 0 ≤ dt.nDamage

/-- The damage list and the total are the same. -/
def SameLedger (m m' : Monster) : Prop :=
  m'.m_vDamageList = m.m_vDamageList ∧ m'.m_nTotalDamage = m.m_nTotalDamage

variable {m m' start : Monster} {pFrom : Attacker} {e : DamageEvent} {h : History Monster DamageEvent} {d ct : Nat}

theorem clipped_nonneg (hm : 0 ≤ m.nHealth) (d : Nat) : 0 ≤ m.clipped d := by
  unfold clipped
  split_ifs with hlow
  · exact hm
  · exact Int.natCast_nonneg d

theorem sameLedger_setFirstAttacker (m : Monster) (pFrom : Attacker) (ct : Nat) :
    SameLedger m (m.setFirstAttacker pFrom ct) := by
  unfold setFirstAttacker
  split_ifs
  · exact ⟨rfl, rfl⟩
  · exact ⟨rfl, rfl⟩

theorem sameLedger_prolongTaming (hm : m.prolongTaming pFrom ct = some m') : SameLedger m m' := by
  unfold prolongTaming at hm
  split_ifs at hm with htamer
  · obtain ⟨time, -, rfl⟩ := Option.map_eq_some_iff.mp hm
    exact ⟨rfl, rfl⟩
  · cases hm
    exact ⟨rfl, rfl⟩

theorem damage_spec (m : Monster) (n : Int) (hm : 0 ≤ m.nHealth) :
    SameLedger m (m.damage n) ∧ 0 ≤ (m.damage n).nHealth := by
  unfold damage
  split_ifs with hdead hmore
  · exact ⟨⟨rfl, rfl⟩, hm⟩
  · refine ⟨⟨rfl, rfl⟩, ?_⟩
    show 0 ≤ m.nHealth - n
    omega
  · exact ⟨⟨rfl, rfl⟩, le_refl _⟩

theorem LedgerOk.of_sameLedger (hm : LedgerOk m) (h : SameLedger m m') (hhealth : 0 ≤ m'.nHealth) : LedgerOk m' where
  health := hhealth
  range := by
    rw [h.2]
    exact hm.range
  nonneg := by
    rw [h.1]
    exact hm.nonneg

/-- What a hit does to the ledger is what `addDamage` does. -/
theorem dealDamage_cases (hm : LedgerOk m) (h : m.dealDamage pFrom d ct = some m') :
    0 ≤ m'.nHealth ∧ (m.clipped d = 0 ∧ SameLedger m m' ∨ m.clipped d ≠ 0 ∧
      ∃ m1 m2, LedgerOk m1 ∧ SameLedger m m1 ∧ m1.addDamage pFrom.handle (m.clipped d) ct = some m2 ∧
        SameLedger m2 m') := by
  obtain ⟨⟨real, m3⟩, hon, rfl⟩ := Option.map_eq_some_iff.mp h
  unfold onDamage at hon
  dsimp only at hon
  split_ifs at hon with hzero
  · cases hon
    obtain ⟨hsame, hhealth⟩ := damage_spec m (m.clipped d) hm.health
    exact ⟨hhealth, .inl ⟨hzero, hsame⟩⟩
  · obtain ⟨m2, hadd, hon⟩ := Option.bind_eq_some_iff.mp hon
    obtain ⟨m3', hprolong, heq⟩ := Option.map_eq_some_iff.mp hon
    cases heq
    have hfirst := sameLedger_setFirstAttacker m pFrom ct
    have hok : LedgerOk (m.setFirstAttacker pFrom ct) := by
      refine hm.of_sameLedger hfirst ?_
      rw [(setFirstAttacker_same m pFrom ct).2]
      exact hm.health
    have hhealth3 : 0 ≤ m3.nHealth := by
      rw [(prolongTaming_same hprolong).2, (addDamage_same hadd).2]
      exact hok.health
    obtain ⟨hsame, hhealth⟩ := damage_spec m3 (m.clipped d) hhealth3
    have hprolonged := sameLedger_prolongTaming hprolong
    exact ⟨hhealth, .inr ⟨hzero, _, m2, hok, hfirst, hadd, hsame.1.trans hprolonged.1, hsame.2.trans hprolonged.2⟩⟩

/-- A hit that does damage: what becomes of the total, and of the list when the attacker's tag is not found and
when it is. -/
theorem dealDamage_ledger (hm : LedgerOk m) (h : m.dealDamage pFrom d ct = some m') (hd : m.clipped d ≠ 0) :
    m'.m_nTotalDamage = wrap32 (m.m_nTotalDamage -
        damageSum (sweep pFrom.handle ct m.m_vDamageList).removed + m.clipped d) ∧
      ((sweep pFrom.handle ct m.m_vDamageList).rest = [] ∧ m'.m_vDamageList =
          (sweep pFrom.handle ct m.m_vDamageList).kept ++ [⟨pFrom.handle, ct, m.clipped d + m.clipped d⟩] ∨
        ∃ dt tl, (sweep pFrom.handle ct m.m_vDamageList).rest = dt :: tl ∧ m'.m_vDamageList =
          (sweep pFrom.handle ct m.m_vDamageList).kept ++
            { touch ct dt with nDamage := (touch ct dt).nDamage + m.clipped d } :: tl) := by
  obtain ⟨-, hcase⟩ := dealDamage_cases hm h
  obtain ⟨hzero, -⟩ | ⟨-, m1, m2, hok, hbefore, hadd, hafter⟩ := hcase
  · exact absurd hzero hd
  · rw [hafter.1, hafter.2, ← hbefore.1, ← hbefore.2]
    cases hrest : (sweep pFrom.handle ct m1.m_vDamageList).rest with
    | nil =>
      obtain ⟨hlist, htotal⟩ := addDamage_new hok.range hrest hadd
      exact ⟨htotal, .inl ⟨rfl, hlist⟩⟩
    | cons dt tl =>
      obtain ⟨hlist, htotal⟩ := addDamage_found hok.range hrest hadd
      exact ⟨htotal, .inr ⟨dt, tl, rfl, hlist⟩⟩

@[simp] theorem touch_uid (t : Nat) (dt : DamageTag) : (touch t dt).uid = dt.uid := by
  unfold touch
  split_ifs <;> rfl

@[simp] theorem touch_nDamage (t : Nat) (dt : DamageTag) : (touch t dt).nDamage = dt.nDamage := by
  unfold touch
  split_ifs <;> rfl

theorem LedgerOk.handleDamage (hm : LedgerOk m) (hs : m.handleDamage e = some m') : LedgerOk m' := by
  cases e with
  | setHealth hp =>
    cases hs
    exact hm.of_sameLedger ⟨rfl, rfl⟩ (Int.natCast_nonneg hp)
  | hit pFrom d ct =>
    obtain ⟨hhealth, hcase⟩ := dealDamage_cases hm hs
    obtain ⟨-, hsame⟩ | ⟨hd, -⟩ := hcase
    · exact hm.of_sameLedger hsame hhealth
    · have hpos := clipped_nonneg hm.health d
      have hold : ∀ dt ∈ (sweep pFrom.handle ct m.m_vDamageList).kept ++ (sweep pFrom.handle ct m.m_vDamageList).rest,
          0 ≤ dt.nDamage := fun dt hdt =>
        hm.nonneg dt ((sweep_perm _ ct _).mem_iff.mpr (List.mem_append_right _ hdt))
      obtain ⟨htotal, hlist⟩ := dealDamage_ledger hm hs hd
      refine ⟨hhealth, htotal ▸ wrap32_range _, fun dt hdt => ?_⟩
      obtain ⟨-, hlist⟩ | ⟨tag, tl, hrest, hlist⟩ := hlist
      · rw [hlist] at hdt
        rcases List.mem_append.mp hdt with hdt | hdt
        · exact hold dt (List.mem_append_left _ hdt)
        · rw [List.mem_singleton.mp hdt]
          show 0 ≤ m.clipped d + m.clipped d
          omega
      · rw [hlist] at hdt
        rw [hrest] at hold
        rcases List.mem_append.mp hdt with hdt | hdt
        · exact hold dt (List.mem_append_left _ hdt)
        · rcases List.mem_cons.mp hdt with rfl | hdt
          · have htag := hold tag (List.mem_append_right _ List.mem_cons_self)
            show 0 ≤ (touch ct tag).nDamage + m.clipped d
            rw [touch_nDamage]
            omega
          · exact hold dt (List.mem_append_right _ (List.mem_cons_of_mem tag hdt))

/-! ## Sums and attackers -/

theorem damageSum_append (l l' : List DamageTag) : damageSum (l ++ l') = damageSum l + damageSum l' := by
  unfold damageSum
  rw [List.map_append, List.sum_append]

theorem damageSum_cons (dt : DamageTag) (l : List DamageTag) : damageSum (dt :: l) = dt.nDamage + damageSum l := by
  unfold damageSum
  rw [List.map_cons, List.sum_cons]

theorem damageSum_nonneg {l : List DamageTag} (hl : ∀ dt ∈ l, 0 ≤ dt.nDamage) : 0 ≤ damageSum l := by
  induction l with
  | nil => exact le_refl _
  | cons dt l ih =>
    have hdt := hl dt List.mem_cons_self
    have hrest := ih fun x hx => hl x (List.mem_cons_of_mem dt hx)
    rw [damageSum_cons]
    omega

theorem damageSum_sweep (handle : Handle) (t : Nat) (l : List DamageTag) :
    damageSum l = damageSum (sweep handle t l).removed +
      (damageSum (sweep handle t l).kept + damageSum (sweep handle t l).rest) := by
  rw [← damageSum_append, ← damageSum_append]
  exact ((sweep_perm handle t l).map DamageTag.nDamage).sum_eq

/-- The attackers whose tags are removed differ from the others, and these from each other. -/
theorem nodup_sweep (hm : m.uids.Nodup) (handle : Handle) (t : Nat) :
    (((sweep handle t m.m_vDamageList).kept ++ (sweep handle t m.m_vDamageList).rest).map DamageTag.uid).Nodup ∧
      ∀ dt ∈ (sweep handle t m.m_vDamageList).removed,
        dt.uid ∉ ((sweep handle t m.m_vDamageList).kept ++ (sweep handle t m.m_vDamageList).rest).map DamageTag.uid := by
  have hperm := ((sweep_perm handle t m.m_vDamageList).map DamageTag.uid).nodup_iff.mp hm
  rw [List.map_append] at hperm
  obtain ⟨-, hright, hdisjoint⟩ := List.nodup_append.mp hperm
  exact ⟨hright, fun dt hdt hmem => hdisjoint _ (List.mem_map_of_mem hdt) _ hmem rfl⟩

/-- When the attacker's tag is found, the attackers stay the same, but for those whose tags are removed. -/
theorem map_uid_found (kept tl : List DamageTag) (dt : DamageTag) (t : Nat) (n : Int) :
    (kept ++ { touch t dt with nDamage := n } :: tl).map DamageTag.uid = (kept ++ dt :: tl).map DamageTag.uid := by
  rw [List.map_append, List.map_append, List.map_cons, List.map_cons]
  show _ ++ (touch t dt).uid :: _ = _
  rw [touch_uid]

theorem wrap32_le {n : Int} (hn : 0 ≤ n) : wrap32 n ≤ n := by
  unfold wrap32
  omega

theorem mem_uids_iff_rest (hskip : NoSkip pFrom.handle ct m.m_vDamageList) (hmem : pFrom.handle ∈ m.uids) :
    (sweep pFrom.handle ct m.m_vDamageList).rest ≠ [] := by
  obtain ⟨dt, hdt, huid⟩ := List.mem_map.mp hmem
  rw [sweep_of_noSkip hskip]
  intro hnil
  have hall := List.dropWhile_eq_nil_iff.mp hnil dt hdt
  exact absurd huid (of_decide_eq_true hall)

/-! ## One step -/

/-- A hit that does no damage leaves the ledger. -/
theorem Claimed.of_sameLedger (hc : Claimed start h m) (hsame : SameLedger m m')
    (hdealt : ∀ uid, m.dealtBy uid e = 0) (hexpiry : ExpiresExactly ⟨m, e, m'⟩) :
    Claimed start (⟨m, e, m'⟩ :: h) m' where
  total := by
    rw [hsame.2, hsame.1]
    exact hc.total
  unique := by
    unfold uids
    rw [hsame.1]
    exact hc.unique
  dealt dt hdt := by
    rw [hsame.1] at hdt
    have hmem : dt.uid ∈ m.uids := List.mem_map_of_mem hdt
    simp only [Monster.dealt, if_pos hmem, hdealt, add_zero]
    exact hc.dealt dt hdt
  expiry := List.forall_mem_cons.mpr ⟨hexpiry, hc.expiry⟩

/-- A tag of somebody else says what it said before. -/
theorem Claimed.dealt_other (hc : Claimed start h m) {dt : DamageTag} (hdt : dt ∈ m.m_vDamageList)
    (hne : pFrom.handle ≠ dt.uid) : dt.nDamage = Monster.dealt start dt.uid (⟨m, .hit pFrom d ct, m'⟩ :: h) := by
  have hmem : dt.uid ∈ m.uids := List.mem_map_of_mem hdt
  simp only [Monster.dealt, if_pos hmem, dealtBy, if_neg hne, add_zero]
  exact hc.dealt dt hdt

/-- The attacker's tag has grown by the damage of the hit. -/
theorem Claimed.dealt_self (hc : Claimed start h m) {dt : DamageTag} (hdt : dt ∈ m.m_vDamageList)
    (heq : dt.uid = pFrom.handle) :
    dt.nDamage + m.clipped d = Monster.dealt start dt.uid (⟨m, .hit pFrom d ct, m'⟩ :: h) := by
  have hmem : dt.uid ∈ m.uids := List.mem_map_of_mem hdt
  simp only [Monster.dealt, if_pos hmem, dealtBy, if_pos heq.symm]
  rw [← hc.dealt dt hdt]

/-- A careful hit that does damage keeps the ledger in order. -/
theorem Claimed.careful_hit (hm : LedgerOk m) (hc : Claimed start h m) (hs : m.dealDamage pFrom d ct = some m')
    (hd : m.clipped d ≠ 0) (hmem : pFrom.handle ∈ m.uids) (hskip : NoSkip pFrom.handle ct m.m_vDamageList)
    (hrange : m.m_nTotalDamage - damageSum (m.outdated pFrom ct) + m.clipped d < 2 ^ 32) :
    Claimed start (⟨m, .hit pFrom d ct, m'⟩ :: h) m' := by
  have hremoved : (sweep pFrom.handle ct m.m_vDamageList).removed = m.outdated pFrom ct := by
    rw [sweep_of_noSkip hskip]
    rfl
  have hsum := damageSum_sweep pFrom.handle ct m.m_vDamageList
  obtain ⟨hnodup, hdisjoint⟩ := nodup_sweep hc.unique pFrom.handle ct
  have hperm := sweep_perm pFrom.handle ct m.m_vDamageList
  obtain ⟨htotal, hlist⟩ := dealDamage_ledger hm hs hd
  obtain ⟨hrest, -⟩ | ⟨dt, tl, hrest, hlist⟩ := hlist
  · exact absurd hrest (mem_uids_iff_rest hskip hmem)
  have huid : dt.uid = pFrom.handle := sweep_rest_head hrest
  rw [hremoved] at htotal hsum hperm hdisjoint
  rw [hrest] at hsum hnodup hperm hdisjoint
  have hpos := clipped_nonneg hm.health d
  have hkept : 0 ≤ damageSum (sweep pFrom.handle ct m.m_vDamageList).kept + damageSum (dt :: tl) := by
    rw [← damageSum_append]
    exact damageSum_nonneg fun x hx => hm.nonneg x (hperm.mem_iff.mpr (List.mem_append_right _ hx))
  have hexact : m'.m_nTotalDamage = m.m_nTotalDamage - damageSum (m.outdated pFrom ct) + m.clipped d := by
    rw [htotal, wrap32_eq_self _ hrange]
    have := hc.total
    omega
  have huids : m'.uids = ((sweep pFrom.handle ct m.m_vDamageList).kept ++ dt :: tl).map DamageTag.uid := by
    unfold uids
    rw [hlist, map_uid_found]
  refine ⟨?_, huids ▸ hnodup, fun x hx => ?_, List.forall_mem_cons.mpr ⟨fun _ => ⟨fun x hx => ?_, hexact⟩, hc.expiry⟩⟩
  · rw [hexact, hlist, damageSum_append, damageSum_cons, touch_nDamage, hc.total, hsum, damageSum_cons]
    show _ = _ + (dt.nDamage + m.clipped d + _)
    omega
  · have hold : ∀ y ∈ (sweep pFrom.handle ct m.m_vDamageList).kept ++ dt :: tl, y ∈ m.m_vDamageList := fun y hy =>
      hperm.mem_iff.mpr (List.mem_append_right _ hy)
    rw [List.map_append, List.map_cons, huid, List.nodup_append, List.nodup_cons] at hnodup
    obtain ⟨-, ⟨htl, -⟩, hbefore⟩ := hnodup
    rw [hlist] at hx
    rcases List.mem_append.mp hx with hx | hx
    · refine hc.dealt_other (hold x (List.mem_append_left _ hx)) fun heq => ?_
      exact hbefore x.uid (List.mem_map_of_mem hx) pFrom.handle List.mem_cons_self heq.symm
    · rcases List.mem_cons.mp hx with rfl | hx
      · have hself : dt.nDamage + m.clipped d = Monster.dealt start dt.uid (⟨m, .hit pFrom d ct, m'⟩ :: h) :=
          hc.dealt_self (hold dt (List.mem_append_right _ List.mem_cons_self)) huid
        simpa using hself
      · refine hc.dealt_other (hold x (List.mem_append_right _ (List.mem_cons_of_mem dt hx))) fun heq => ?_
        exact htl (heq ▸ List.mem_map_of_mem hx)
  · rw [huids]
    constructor
    · exact fun hmem' hout => hdisjoint x hout hmem'
    · intro hout
      rcases List.mem_append.mp (hperm.mem_iff.mp hx) with hx | hx
      · exact absurd hx hout
      · exact List.mem_map_of_mem hx

/-- A hit that does damage and keeps the ledger in order is careful. -/
theorem Claimed.careful (hm : LedgerOk m) (hc : Claimed start h m) (hs : m.dealDamage pFrom d ct = some m')
    (hd : m.clipped d ≠ 0) (hc' : Claimed start (⟨m, .hit pFrom d ct, m'⟩ :: h) m') :
    pFrom.handle ∈ m.uids ∧ NoSkip pFrom.handle ct m.m_vDamageList ∧
      m.m_nTotalDamage - damageSum (m.outdated pFrom ct) + m.clipped d < 2 ^ 32 := by
  have hsum := damageSum_sweep pFrom.handle ct m.m_vDamageList
  obtain ⟨hnodup, -⟩ := nodup_sweep hc.unique pFrom.handle ct
  have hperm := sweep_perm pFrom.handle ct m.m_vDamageList
  obtain ⟨hexpiry, htotal⟩ := hc'.expiry _ List.mem_cons_self hd
  have hrange := (hm.handleDamage (e := .hit pFrom d ct) hs).range
  obtain ⟨hwrapped, hlist⟩ := dealDamage_ledger hm hs hd
  obtain ⟨hrest, hlist⟩ | ⟨dt, tl, hrest, hlist⟩ := hlist
  · -- the new tag holds the damage twice
    exfalso
    have hpos := clipped_nonneg hm.health d
    have hkept : 0 ≤ damageSum (sweep pFrom.handle ct m.m_vDamageList).kept :=
      damageSum_nonneg fun x hx => hm.nonneg x
        (hperm.mem_iff.mpr (List.mem_append_right _ (List.mem_append_left _ hx)))
    have htwice := hc'.total
    rw [hlist, damageSum_append, damageSum_cons] at htwice
    rw [hrest] at hsum
    have hnil : damageSum [] = 0 := rfl
    have hbefore := hc.total
    rw [hnil] at htwice hsum
    have hle := wrap32_le (n := m.m_nTotalDamage - damageSum (sweep pFrom.handle ct m.m_vDamageList).removed +
      m.clipped d) (by omega)
    dsimp only at htwice
    omega
  · have huid : dt.uid = pFrom.handle := sweep_rest_head hrest
    rw [hrest] at hnodup hperm
    have hdt : dt ∈ m.m_vDamageList :=
      hperm.mem_iff.mpr (List.mem_append_right _ (List.mem_append_right _ List.mem_cons_self))
    refine ⟨huid ▸ List.mem_map_of_mem hdt, ?_, htotal ▸ hrange.2⟩
    by_contra hskip
    have hother : ∀ x ∈ (sweep pFrom.handle ct m.m_vDamageList).kept, x.uid ≠ pFrom.handle := fun x hx heq => by
      rw [List.map_append, List.nodup_append] at hnodup
      exact hnodup.2.2 x.uid (List.mem_map_of_mem hx) dt.uid List.mem_cons_self (heq.trans huid.symm)
    obtain ⟨x, hx, hbad⟩ := exists_kept_of_not_noSkip hskip
    have hout : x ∈ m.outdated pFrom ct :=
      List.mem_filter.mpr ⟨kept_scanned hother x hx, hbad.resolve_left (hother x hx)⟩
    have hstays : x.uid ∈ m'.uids := by
      unfold uids
      rw [hlist, map_uid_found]
      exact List.mem_map_of_mem (List.mem_append_left _ hx)
    have hold : x ∈ m.m_vDamageList :=
      hperm.mem_iff.mpr (List.mem_append_right _ (List.mem_append_left _ hx))
    exact (hexpiry x hold).mp hstays hout

theorem claimed_step_iff (hm : LedgerOk m) (hc : Claimed start h m) (hs : m.handleDamage e = some m') :
    Claimed start (⟨m, e, m'⟩ :: h) m' ↔ Careful m e := by
  cases e with
  | setHealth hp =>
    cases hs
    exact ⟨fun _ => trivial, fun _ => hc.of_sameLedger ⟨rfl, rfl⟩ (fun _ => rfl) trivial⟩
  | hit pFrom d ct =>
    by_cases hd : m.clipped d = 0
    · obtain ⟨-, ⟨-, hsame⟩ | ⟨hne, -⟩⟩ := dealDamage_cases hm hs
      · refine ⟨fun _ => .inl hd, fun _ => hc.of_sameLedger hsame (fun uid => ?_) fun hne => absurd hd hne⟩
        simp only [dealtBy, hd, ite_self]
      · exact absurd hd hne
    · constructor
      · exact fun hc' => .inr (hc.careful hm hs hd hc')
      · rintro (hzero | ⟨hmem, hskip, hrange⟩)
        · exact absurd hzero hd
        · exact hc.careful_hit hm hs hd hmem hskip hrange

/-! ## Runs -/

/-- What is asked of the first state; the monster that has just been made is one. -/
structure InOrder (m : Monster) : Prop extends LedgerOk m where
  total : m.m_nTotalDamage = damageSum m.m_vDamageList
  unique : m.uids.Nodup

/-- The runs that begin with the given state. -/
def damageSystem (start : Monster) : System Monster DamageEvent := System.ofFun (· = start) handleDamage

theorem damageOf_of_mem (hm : m.uids.Nodup) {dt : DamageTag} (hdt : dt ∈ m.m_vDamageList) :
    m.damageOf dt.uid = dt.nDamage := by
  unfold damageOf
  rw [(find?_key_eq_some_iff hm).mpr ⟨hdt, rfl⟩]
  rfl

theorem InOrder.claimed (hm : InOrder m) : Claimed m [] m where
  total := hm.total
  unique := hm.unique
  dealt _ hdt := (damageOf_of_mem hm.unique hdt).symm
  expiry := fun _ h => absurd h List.not_mem_nil

theorem ledger_of_run (hstart : InOrder start) (hrun : (damageSystem start).RunWhere (fun _ m e => Careful m e) h m) :
    LedgerOk m ∧ Claimed start h m := by
  refine hrun.invariant (I := fun h m => LedgerOk m ∧ Claimed start h m) ?_ ?_
  · rintro m rfl
    exact ⟨hstart.toLedgerOk, hstart.claimed⟩
  · rintro h m e m' - ⟨hm, hc⟩ he hs
    exact ⟨hm.handleDamage hs, (claimed_step_iff hm hc hs).mpr he⟩

/-- In every run of careful steps the ledger is in order, and the next step keeps it so if and only if it is
careful. -/
theorem damageLedger_of_run (hstart : InOrder start)
    (hrun : (damageSystem start).RunWhere (fun _ m e => Careful m e) h m) :
    Claimed start h m ∧ ∀ e m', m.handleDamage e = some m' →
      (Claimed start (⟨m, e, m'⟩ :: h) m' ↔ Careful m e) := by
  obtain ⟨hm, hc⟩ := ledger_of_run hstart hrun
  exact ⟨hc, fun e m' hs => claimed_step_iff hm hc hs⟩

/-- From a monster without tags no careful step leads to one: the first damage is never counted right. -/
theorem damageList_nil_of_run (hstart : InOrder start) (hnil : start.m_vDamageList = [])
    (hrun : (damageSystem start).RunWhere (fun _ m e => Careful m e) h m) : m.m_vDamageList = [] := by
  refine (hrun.invariant (I := fun _ m => LedgerOk m ∧ m.m_vDamageList = []) ?_ ?_).2
  · rintro m rfl
    exact ⟨hstart.toLedgerOk, hnil⟩
  · rintro h m e m' - ⟨hm, hlist⟩ he hs
    refine ⟨hm.handleDamage hs, ?_⟩
    cases e with
    | setHealth hp =>
      cases hs
      exact hlist
    | hit pFrom d ct =>
      have hd : m.clipped d = 0 := he.resolve_right fun ⟨hmem, _⟩ => by
        rw [uids, hlist] at hmem
        exact absurd hmem List.not_mem_nil
      obtain ⟨-, ⟨-, hsame⟩ | ⟨hne, -⟩⟩ := dealDamage_cases hm hs
      · rw [hsame.1, hlist]
      · exact absurd hd hne

/-- Two attackers have a tag each; the tag between them is old. -/
def wounded : Monster where
  nHealth := 50
  m_vDamageList := [⟨1, 40000, 10⟩, ⟨2, 0, 20⟩, ⟨3, 40000, 5⟩, ⟨4, 40000, 0⟩]
  m_nTotalDamage := 35

/-- The last attacker hits and removes the old tag, then the first one hits the monster to death. -/
theorem damageLedger_of_run_wounded : ∃ h m, (damageSystem wounded).RunWhere (fun _ m e => Careful m e) h m ∧
    (Claimed wounded h m ∧ ∀ e m', m.handleDamage e = some m' →
      (Claimed wounded (⟨m, e, m'⟩ :: h) m' ↔ Careful m e)) ∧
    m.m_vDamageList = [⟨1, 50001, 52⟩, ⟨3, 40000, 5⟩, ⟨4, 50000, 8⟩] ∧ m.m_nTotalDamage = 65 := by
  have hex : (System.exec (fun _ m e => Careful m e) handleDamage
      [.hit ⟨4, some 4⟩ 8 50000, .hit ⟨1, some 1⟩ 90 50001] [] wounded).map
        (fun x => (x.2.m_vDamageList, x.2.m_nTotalDamage)) =
      some ([⟨1, 50001, 52⟩, ⟨3, 40000, 5⟩, ⟨4, 50000, 8⟩], 65) := by decide +kernel
  obtain ⟨h, m, hrun, hend⟩ := System.exists_run_exec
    (fun m : Monster => (m.m_vDamageList, m.m_nTotalDamage)) _
    (System.RunWhere.init (S := damageSystem wounded) rfl) hex
  obtain ⟨hlist, htotal⟩ := Prod.mk.inj hend
  exact ⟨h, m, hrun, damageLedger_of_run ⟨⟨by decide, by decide, by decide⟩, by decide, by decide⟩ hrun,
    hlist, htotal⟩

/-- The first hit on a new monster is counted twice in its tag. -/
theorem not_claimed_damage : ¬ ∀ (hp : Nat) (h : History Monster DamageEvent) (m : Monster),
    (damageSystem { nHealth := hp }).Run h m → Claimed { nHealth := hp } h m := by
  intro hall
  have hex : (System.exec (fun _ _ _ => True) handleDamage [.hit ⟨1, some 1⟩ 10 100] [] { nHealth := 50 }).map
      (fun x => (x.2.m_vDamageList, x.2.m_nTotalDamage)) = some ([⟨1, 100, 20⟩], 10) := by decide +kernel
  obtain ⟨h, m, hrun, hend⟩ := System.exists_run_exec
    (fun m : Monster => (m.m_vDamageList, m.m_nTotalDamage)) _
    (System.RunWhere.init (S := damageSystem { nHealth := 50 }) rfl) hex
  obtain ⟨hlist, htotal⟩ := Prod.mk.inj hend
  have hclaim := (hall 50 h m hrun).total
  rw [hlist, htotal] at hclaim
  exact absurd hclaim (by decide)

end Monster

end RZEmulator.Chihiro
