import RZEmulator.Chihiro.TamingStep
import RZEmulator.Lib.Run

/-!
# Runs of tamings

The monster, the player and the card are to agree at every moment on which taming is going on, and to be cleared
together when it ends (`Claimed`). Only two of the ways out do so: the success, and the failure that takes the
card, unless it is one of a stack. After every other way the card keeps its flag, the player his target, or the
monster its tamer: `careful_of_claimed`.
-/

namespace RZEmulator.Chihiro

open Lib

namespace TamingWorld

/-- The monster that is tamed in a step. -/
def tames (s : TamingWorld) : TamingEvent → Option Handle
  | .hit m pFrom nDamage dist rnd ct =>
    if (s.hit m pFrom nDamage dist rnd ct).map Prod.fst = some true then some m else none
  | _ => none

/-- The three places agree, an attempt that has ended is cleared, and no monster is tamed twice. -/
structure Claimed (hist : History TamingWorld TamingEvent) (s : TamingWorld) : Prop where
  tamer : ∀ p t m k, s.players p = some t → s.monsters m = some k → (k.m_hTamer = p ↔ t.m_hTamingTarget = m)
  cards : ∀ p t, s.players p = some t → (tamingCards t = 1 ↔ t.m_hTamingTarget ≠ 0)
  cleared : ∀ tr ∈ hist, ∀ p m, tr.before.Attempt p m → ¬tr.after.Attempt p m → tr.after.Cleared p m
  once : ∀ m, hist.countP (fun tr => tr.before.tames tr.event = some m) ≤ 1

/-- A dead monster gets health again. -/
def Revives (s : TamingWorld) : TamingEvent → Prop
  | .addHealth m _ => ∃ k ∈ s.monsters m, k.nHealth = 0
  | _ => False

/-- No player leaves while he tames, no taming times out or is called off, a monster that is being tamed dies in the
one way or the other that clears everything, and no card with the flag changes hands. -/
def Careful (s : TamingWorld) : TamingEvent → Prop
  | .logout p => ∀ t ∈ s.players p, t.m_hTamingTarget = 0
  | .hit m _ nDamage dist rnd _ => ∀ k ∈ s.monsters m, k.m_hTamer ≠ 0 → k.nHealth ≤ nDamage →
      ∀ t ∈ s.players k.m_hTamer, EndsWell k t dist rnd
  | .update m idle ct => ∀ k ∈ s.monsters m, k.m_hTamer ≠ 0 → k.m_bNearClient = true →
      idle.cancels = false ∧ narrow32 ct ≤ k.m_nTamedTime + 30000
  | .addHealth m hp => ∀ k ∈ s.monsters m, k.nHealth ≠ 0 ∧ (k.m_hTamer ≠ 0 → 0 < k.nHealth + hp)
  | .push p c => c.isTaming = true → ∀ t ∈ s.players p, joinTarget t.m_vList c ≠ none
  | .pop p i cnt => ∀ t ∈ s.players p, ∀ c ∈ t.m_vList[i]?, c.isTaming = true → c.nCount ≠ cnt
  | .erase p i cnt => ∀ t ∈ s.players p, ∀ c ∈ t.m_vList[i]?, c.isTaming = true → cnt < c.nCount
  | .login _ | .spawn _ | .despawn _ | .tame _ _ _ _ | .enter _ | .setPlayerHealth _ _ | .learn _ _ => True

instance (s : TamingWorld) : (e : TamingEvent) → Decidable (Careful s e)
  | .logout p => inferInstanceAs (Decidable (∀ t ∈ s.players p, t.m_hTamingTarget = 0))
  | .hit m _ nDamage dist rnd _ => inferInstanceAs (Decidable (∀ k ∈ s.monsters m, k.m_hTamer ≠ 0 →
      k.nHealth ≤ nDamage → ∀ t ∈ s.players k.m_hTamer, EndsWell k t dist rnd))
  | .update m idle ct => inferInstanceAs (Decidable (∀ k ∈ s.monsters m, k.m_hTamer ≠ 0 → k.m_bNearClient = true →
      idle.cancels = false ∧ narrow32 ct ≤ k.m_nTamedTime + 30000))
  | .addHealth m hp => inferInstanceAs (Decidable (∀ k ∈ s.monsters m, k.nHealth ≠ 0 ∧
      (k.m_hTamer ≠ 0 → 0 < k.nHealth + hp)))
  | .push p c => inferInstanceAs (Decidable (c.isTaming = true → ∀ t ∈ s.players p, joinTarget t.m_vList c ≠ none))
  | .pop p i cnt => inferInstanceAs (Decidable (∀ t ∈ s.players p, ∀ c ∈ t.m_vList[i]?, c.isTaming = true →
      c.nCount ≠ cnt))
  | .erase p i cnt => inferInstanceAs (Decidable (∀ t ∈ s.players p, ∀ c ∈ t.m_vList[i]?, c.isTaming = true →
      cnt < c.nCount))
  | .login _ | .spawn _ | .despawn _ | .tame _ _ _ _ | .enter _ | .setPlayerHealth _ _ | .learn _ _ => .isTrue trivial

variable {s s' : TamingWorld} {p m h : Handle} {t t' : Tamer} {k k' : TameMonster} {e : TamingEvent}
  {hist : History TamingWorld TamingEvent}

/-! ## Careful steps -/

theorem login_players (s : TamingWorld) (t : Tamer) (h : Handle) :
    (s.login t).players h = if h = s.nextHandle then some t.entered else s.players h := rfl

theorem spawn_monsters (s : TamingWorld) (k : TameMonster) (h : Handle) :
    (s.spawn k).monsters h = if h = s.nextHandle then some k.newborn else s.monsters h := rfl

theorem marks_entered (t : Tamer) : marks t.entered.m_vList = [] := by
  refine List.filterMap_eq_nil_iff.mpr fun c hc => ?_
  obtain ⟨c, -, rfl⟩ := List.mem_map.mp hc
  exact Card.mark_eq_none (Card.not_isTaming_clearTaming c)

theorem TamingOk.next_fresh (hs : TamingOk s) : s.players s.nextHandle = none ∧ s.monsters s.nextHandle = none :=
  hs.fresh _ (.inr (Nat.le_refl _))

theorem TamingOk.login (hs : TamingOk s) (t : Tamer) : Follows s (s.login t) := by
  have hold : ∀ q t2, s.players q = some t2 → (s.login t).players q = some t2 := by
    intro q t2 ht2
    rw [login_players, if_neg, ht2]
    rintro rfl
    rw [hs.next_fresh.1] at ht2
    cases ht2
  have hnew : ∀ q t2, (s.login t).players q = some t2 → t2 = t.entered ∨ s.players q = some t2 := by
    intro q t2 ht2
    rw [login_players] at ht2
    split_ifs at ht2 with hq
    · exact .inl (Option.some.inj ht2).symm
    · exact .inr ht2
  refine ⟨⟨fun m k hk hne => ?_, fun q t2 ht2 hne => ?_, fun q t2 ht2 hzero => ?_, hs.dead, hs.maxHealth,
    fun h hh => ?_, Nat.succ_ne_zero _⟩, fun q n hatt => ?_, fun n k hk hne => ?_, Nat.le_succ _⟩
  · obtain ⟨hhealth, hcode, t2, ht2, hrest⟩ := hs.tamer m k hk hne
    exact ⟨hhealth, hcode, t2, hold _ _ ht2, hrest⟩
  · obtain rfl | ht2 := hnew q t2 ht2
    · exact absurd rfl hne
    · exact hs.target q t2 ht2 hne
  · obtain rfl | ht2 := hnew q t2 ht2
    · exact marks_entered t
    · exact hs.free q t2 ht2 hzero
  · have hh' : h = 0 ∨ s.nextHandle ≤ h := hh.imp_right Nat.le_of_succ_le
    refine ⟨?_, (hs.fresh h hh').2⟩
    rw [login_players, if_neg, (hs.fresh h hh').1]
    rintro rfl
    exact hh.elim hs.next (Nat.not_succ_le_self _)
  · obtain ⟨t2, ht2⟩ := Option.isSome_iff_exists.mp hatt.1
    exact .inl ⟨(hold q t2 ht2).symm ▸ rfl, hatt.2⟩
  · exact .inr ⟨k, hk, hne⟩

theorem TamingOk.spawn (hs : TamingOk s) (hmax : 0 < k.nMaxHealth) : Follows s (s.spawn k) := by
  have hold : ∀ n k2, s.monsters n = some k2 → (s.spawn k).monsters n = some k2 := by
    intro n k2 hk2
    rw [spawn_monsters, if_neg, hk2]
    rintro rfl
    rw [hs.next_fresh.2] at hk2
    cases hk2
  have hnew : ∀ n k2, (s.spawn k).monsters n = some k2 → k2 = k.newborn ∧ n = s.nextHandle ∨ s.monsters n = some k2 := by
    intro n k2 hk2
    rw [spawn_monsters] at hk2
    split_ifs at hk2 with hn
    · exact .inl ⟨(Option.some.inj hk2).symm, hn⟩
    · exact .inr hk2
  refine ⟨⟨fun n k2 hk2 hne => ?_, fun q t2 ht2 hne => ?_, hs.free, fun n k2 hk2 hdead => ?_, fun n k2 hk2 => ?_,
    fun h hh => ?_, Nat.succ_ne_zero _⟩, fun q n hatt => ?_, fun n k2 hk2 hne => ?_, Nat.le_succ _⟩
  · obtain ⟨rfl, -⟩ | hk2 := hnew n k2 hk2
    · exact absurd rfl hne
    · exact hs.tamer n k2 hk2 hne
  · obtain ⟨k2, hk2, htamer⟩ := hs.target q t2 ht2 hne
    exact ⟨k2, hold _ _ hk2, htamer⟩
  · obtain ⟨rfl, -⟩ | hk2 := hnew n k2 hk2
    · cases hdead
    · exact hs.dead n k2 hk2 hdead
  · obtain ⟨rfl, -⟩ | hk2 := hnew n k2 hk2
    · exact hmax
    · exact hs.maxHealth n k2 hk2
  · have hh' : h = 0 ∨ s.nextHandle ≤ h := hh.imp_right Nat.le_of_succ_le
    refine ⟨(hs.fresh h hh').1, ?_⟩
    rw [spawn_monsters, if_neg, (hs.fresh h hh').2]
    rintro rfl
    exact hh.elim hs.next (Nat.not_succ_le_self _)
  · obtain ⟨hq, k2, hk2, hrest⟩ := hatt
    exact .inl ⟨hq, k2, hold _ _ hk2, hrest⟩
  · obtain ⟨-, rfl⟩ | hk2 := hnew n k2 hk2
    · exact .inl (Nat.le_refl _)
    · exact .inr ⟨k2, hk2, hne⟩

theorem removePlayer_players (s : TamingWorld) (p h : Handle) :
    (s.removePlayer p).players h = if h = p then none else s.players h := rfl

theorem removeMonster_monsters (s : TamingWorld) (m h : Handle) :
    (s.removeMonster m).monsters h = if h = m then none else s.monsters h := rfl

theorem TamingOk.removePlayer (hs : TamingOk s) (hfree : ∀ t ∈ s.players p, t.m_hTamingTarget = 0) :
    Follows s (s.removePlayer p) := by
  have hold : ∀ q t, s.players q = some t → t.m_hTamingTarget ≠ 0 → (s.removePlayer p).players q = some t := by
    intro q t ht hne
    rw [removePlayer_players, if_neg, ht]
    rintro rfl
    exact hne (hfree t ht)
  have hnew : ∀ q t, (s.removePlayer p).players q = some t → s.players q = some t := by
    intro q t ht
    rw [removePlayer_players] at ht
    split_ifs at ht
    exact ht
  refine ⟨⟨fun m k hk hne => ?_, fun q t ht hne => hs.target q t (hnew q t ht) hne,
    fun q t ht hzero => hs.free q t (hnew q t ht) hzero, hs.dead, hs.maxHealth, fun h hh => ?_, hs.next⟩,
    fun q n hatt => ?_, fun n k hk hne => .inr ⟨k, hk, hne⟩, Nat.le_refl _⟩
  · obtain ⟨hhealth, hcode, t, ht, htarget, hmarks⟩ := hs.tamer m k hk hne
    exact ⟨hhealth, hcode, t, hold _ t ht (htarget ▸ hs.monster_ne_zero hk), htarget, hmarks⟩
  · refine ⟨?_, (hs.fresh h hh).2⟩
    rw [removePlayer_players, (hs.fresh h hh).1, ite_self]
  · obtain ⟨hq, k, hk, htamer, hhealth⟩ := hatt
    obtain ⟨t, ht⟩ := Option.isSome_iff_exists.mp hq
    have htarget := (hs.pair_iff ht hk).mp htamer
    exact .inl ⟨hold q t ht (htarget ▸ hs.monster_ne_zero hk) ▸ rfl, k, hk, htamer, hhealth⟩

theorem TamingOk.removeMonster (hs : TamingOk s) (hk : s.monsters m = some k) (hdead : k.isStatusDead = true) :
    Follows s (s.removeMonster m) := by
  have hold : ∀ n k2, s.monsters n = some k2 → k2.nHealth ≠ 0 → (s.removeMonster m).monsters n = some k2 := by
    intro n k2 hk2 hne
    rw [removeMonster_monsters, if_neg, hk2]
    rintro rfl
    cases hk.symm.trans hk2
    exact hne (hs.dead n k hk hdead)
  have hnew : ∀ n k2, (s.removeMonster m).monsters n = some k2 → s.monsters n = some k2 := by
    intro n k2 hk2
    rw [removeMonster_monsters] at hk2
    split_ifs at hk2
    exact hk2
  refine ⟨⟨fun n k2 hk2 hne => hs.tamer n k2 (hnew n k2 hk2) hne, fun q t ht hne => ?_, hs.free,
    fun n k2 hk2 => hs.dead n k2 (hnew n k2 hk2), fun n k2 hk2 => hs.maxHealth n k2 (hnew n k2 hk2), fun h hh => ?_,
    hs.next⟩, fun q n hatt => ?_, fun n k2 hk2 hne => .inr ⟨k2, hnew n k2 hk2, hne⟩, Nat.le_refl _⟩
  · obtain ⟨k2, hk2, htamer⟩ := hs.target q t ht hne
    exact ⟨k2, hold _ k2 hk2 (hs.tamer _ k2 hk2 (htamer ▸ hs.player_ne_zero ht)).1, htamer⟩
  · refine ⟨(hs.fresh h hh).1, ?_⟩
    rw [removeMonster_monsters, (hs.fresh h hh).2, ite_self]
  · obtain ⟨hq, k2, hk2, htamer, hhealth⟩ := hatt
    exact .inl ⟨hq, k2, hold n k2 hk2 hhealth, htamer, hhealth⟩

/-! ## Updates -/

theorem clearTamer_wild (hk : s.monsters m = some k) (hzero : k.m_hTamer = 0) (ct : Nat) :
    s.clearTamer m ct = s.updMonster m (·.setTamer 0 0 ct) := by
  rw [clearTamer, hk]
  dsimp only
  rw [if_neg (not_not.mpr hzero)]

theorem timedOut_eq_some {ct : Nat} {late : Bool} (h : timedOut k ct = some late) :
    late = decide (k.m_nTamedTime + 30000 < narrow32 ct) := by
  obtain ⟨time, htime, rfl⟩ := Option.map_eq_some_iff.mp h
  obtain ⟨-, rfl⟩ := add32_eq_some.mp htime
  rfl

theorem expireTamer_cases {ct : Nat} (hk : s.monsters m = some k) (hs : s.expireTamer m ct = some s') :
    k.m_nTamedTime + 30000 < narrow32 ct ∧ s' = s.updMonster m (·.dropTamer) ∨
      narrow32 ct ≤ k.m_nTamedTime + 30000 ∧ s' = s := by
  rw [expireTamer, hk] at hs
  obtain ⟨late, hlate, rfl⟩ := Option.map_eq_some_iff.mp hs
  have hdef := timedOut_eq_some hlate
  cases late with
  | true => exact .inl ⟨of_decide_eq_true hdef.symm, rfl⟩
  | false => exact .inr ⟨not_lt.mp (of_decide_eq_false hdef.symm), rfl⟩

/-- An update that gets as far as `processMove`. -/
theorem update_cases {idle : Idle} {ct : Nat} (hs : s.update m idle ct = some s') :
    ∃ k, s.monsters m = some k ∧ ((k.m_bNearClient = false ∨ k.isStatusDead = true) ∧ s' = s ∨
      k.nHealth = 0 ∧ s' = s.updMonster m (·.setNearClient idle.nearClient) ∨
      k.m_bNearClient = true ∧ ((s.updMonster m (·.setNearClient idle.nearClient)).processMove m idle ct).expireTamer m ct = some s') := by
  obtain ⟨k, hk, hs⟩ := Option.bind_eq_some_iff.mp hs
  refine ⟨k, hk, ?_⟩
  split_ifs at hs with hnear hzero
  · cases hs
    exact .inl ⟨hnear.imp_left (Bool.eq_false_iff.mpr ·), rfl⟩
  · cases hs
    exact .inr (.inl ⟨hzero, rfl⟩)
  · exact .inr (.inr ⟨not_not.mp (not_or.mp hnear).1, hs⟩)

/-- For a monster without a tamer an update changes only what no taming depends on. -/
theorem update_wild {idle : Idle} {ct : Nat} (hk : s.monsters m = some k) (hzero : k.m_hTamer = 0)
    (hs : s.update m idle ct = some s') :
    s' = s ∨ ∃ g : TameMonster → TameMonster, s' = s.updMonster m g ∧ (g k).m_hTamer = 0 ∧
      (g k).tameItemCode = k.tameItemCode ∧ (g k).nMaxHealth = k.nMaxHealth ∧ (g k).isStatusDead = k.isStatusDead ∧
      (g k).nHealth = k.nHealth := by
  obtain ⟨k2, hk2, ⟨-, rfl⟩ | ⟨-, rfl⟩ | ⟨-, hexp⟩⟩ := update_cases hs
  · exact .inl rfl
  · exact .inr ⟨_, rfl, hzero, rfl, rfl, rfl, rfl⟩
  · right
    have hk1 := updMonster_self (·.setNearClient idle.nearClient) hk
    unfold processMove at hexp
    split_ifs at hexp with hcancel
    · rw [clearTamer_wild hk1 hzero, updMonster_updMonster] at hexp
      obtain ⟨-, rfl⟩ | ⟨-, rfl⟩ := expireTamer_cases (updMonster_self _ hk) hexp
      · rw [updMonster_updMonster]
        exact ⟨_, rfl, rfl, rfl, rfl, rfl, rfl⟩
      · exact ⟨_, rfl, rfl, rfl, rfl, rfl, rfl⟩
    · obtain ⟨-, rfl⟩ | ⟨-, rfl⟩ := expireTamer_cases hk1 hexp
      · rw [updMonster_updMonster]
        exact ⟨_, rfl, rfl, rfl, rfl, rfl, rfl⟩
      · exact ⟨_, rfl, hzero, rfl, rfl, rfl, rfl⟩

theorem TamingOk.setNearClient (hs : TamingOk s) (m : Handle) (b : Bool) :
    Follows s (s.updMonster m (·.setNearClient b)) := by
  refine hs.updMonster fun k hk => ⟨rfl, rfl, rfl, fun hne => ?_, hs.dead m k hk, fun hzero => hzero⟩
  exact (hs.tamer m k hk hne).1

theorem TamingOk.update (hs : TamingOk s) {idle : Idle} {ct : Nat} (he : Careful s (.update m idle ct))
    (hstep : s.update m idle ct = some s') : Follows s s' := by
  obtain ⟨k, hk, hcases⟩ := update_cases hstep
  by_cases hne : k.m_hTamer = 0
  · obtain rfl | ⟨g, rfl, htamer, hcode, hmax, hstatus, hhealth⟩ := update_wild hk hne hstep
    · exact hs.follows
    · refine hs.updMonster fun k2 hk2 => ?_
      cases hk.symm.trans hk2
      refine ⟨htamer.trans hne.symm, hcode, hmax, fun hne' => absurd hne hne', fun hdead => ?_, hhealth.trans⟩
      exact hhealth.trans (hs.dead m k hk (hstatus.symm.trans hdead))
  · obtain ⟨-, rfl⟩ | ⟨-, rfl⟩ | ⟨hnear, hexp⟩ := hcases
    · exact hs.follows
    · exact hs.setNearClient m _
    · obtain ⟨hcancel, hlate⟩ := he k hk hne hnear
      rw [processMove, hcancel] at hexp
      obtain ⟨hlate', -⟩ | ⟨-, rfl⟩ := expireTamer_cases (updMonster_self _ hk) hexp
      · exact absurd hlate (not_le.mpr hlate')
      · exact hs.setNearClient m _

/-! ## The other steps -/

theorem setHealth_nHealth (k : TameMonster) (hp : Int) :
    (k.setHealth hp).nHealth = if hp > k.nMaxHealth then k.nMaxHealth else if hp < 0 then 0 else hp := rfl

theorem TamingOk.addHealth (hs : TamingOk s) {hp : Int} (he : Careful s (.addHealth m hp)) :
    Follows s (s.updMonster m fun k => k.setHealth (k.nHealth + hp)) := by
  refine hs.updMonster fun k hk => ?_
  obtain ⟨hlive, hup⟩ := he k hk
  refine ⟨rfl, rfl, rfl, fun hne => ?_, fun hdead => absurd (hs.dead m k hk hdead) hlive, fun hzero => absurd hzero hlive⟩
  have hpos := hup hne
  have hmax := hs.maxHealth m k hk
  rw [setHealth_nHealth]
  split_ifs <;> omega

theorem TamingOk.updList (hs : TamingOk s) {f : List Card → List Card}
    (hf : ∀ t, s.players p = some t → (marks (f t.m_vList)).Perm (marks t.m_vList)) :
    Follows s (s.updList p f) :=
  hs.updPlayer fun t ht => ⟨rfl, hf t ht⟩

theorem TamingOk.push (hs : TamingOk s) {c : Card} (he : Careful s (.push p c)) :
    Follows s (s.updList p (pushCard · c)) := by
  refine hs.updList fun t ht => ?_
  obtain hperm | ⟨hjoin, hperm⟩ := marks_pushCard t.m_vList c
  · exact hperm
  · cases hc : c.isTaming with
    | true => exact absurd hjoin (he hc t ht)
    | false =>
      rw [Card.mark_eq_none hc] at hperm
      exact hperm

theorem TamingOk.pop (hs : TamingOk s) {i : Nat} {cnt : Int} (he : Careful s (.pop p i cnt)) :
    Follows s (s.updList p (popCard · i cnt)) := by
  refine hs.updList fun t ht => ?_
  obtain hperm | ⟨⟨c, hc, htaming, hall⟩, -⟩ := marks_popCard t.m_vList i cnt
  · exact hperm
  · exact absurd hall (he t ht c hc htaming)

theorem TamingOk.erase (hs : TamingOk s) {i : Nat} {cnt : Int} (he : Careful s (.erase p i cnt)) :
    Follows s (s.updList p (eraseCard · i cnt)) := by
  refine hs.updList fun t ht => ?_
  obtain hperm | ⟨⟨c, hc, htaming, hall⟩, -⟩ := marks_eraseCard t.m_vList i cnt
  · exact hperm
  · exact absurd (he t ht c hc htaming) (not_lt.mpr hall)

theorem careful_step (hs : TamingOk s) (he : Careful s e) (hstep : s.handleTaming e = some s') : Follows s s' := by
  cases e with
  | login t =>
    cases hstep
    exact hs.login t
  | logout p =>
    cases hstep
    exact hs.removePlayer he
  | spawn k =>
    simp only [handleTaming] at hstep
    split_ifs at hstep with hmax
    cases hstep
    exact hs.spawn hmax
  | despawn m =>
    obtain ⟨k, hk, hif⟩ := Option.bind_eq_some_iff.mp hstep
    split_ifs at hif with hdead
    cases hif
    exact hs.removeMonster hk hdead
  | tame m p nSkillLevel ct =>
    cases hstep
    exact hs.setTamer m p nSkillLevel ct
  | hit m pFrom nDamage dist rnd ct =>
    obtain ⟨⟨b, s2⟩, hhit, rfl⟩ := Option.map_eq_some_iff.mp hstep
    exact hs.hit he hhit
  | update m idle ct => exact hs.update he hstep
  | enter m =>
    cases hstep
    exact hs.setNearClient m true
  | addHealth m hp =>
    cases hstep
    exact hs.addHealth he
  | setPlayerHealth p hp =>
    cases hstep
    exact hs.updPlayer fun t ht => ⟨rfl, .refl _⟩
  | learn p skill =>
    cases hstep
    exact hs.updPlayer fun t ht => ⟨rfl, .refl _⟩
  | push p c =>
    cases hstep
    exact hs.push he
  | pop p i cnt =>
    cases hstep
    exact hs.pop he
  | erase p i cnt =>
    cases hstep
    exact hs.erase he

/-! ## Successes -/

theorem clearTamer_monster (hk : s.monsters m = some k) (ct : Nat) :
    (s.clearTamer m ct).monsters m = some (k.setTamer 0 0 ct) := by
  by_cases hne : k.m_hTamer = 0
  · rw [clearTamer_wild hk hne]
    exact updMonster_self _ hk
  · rw [clearTamer_eq hk hne]
    exact updMonster_self _ hk

theorem procTame_health (hk : s.monsters m = some k) (t : Tamer) (dist : ℚ) (rnd : Int) (ct : Nat) :
    ∃ k', (s.procTame m k t dist rnd ct).2.monsters m = some k' ∧ k'.nHealth = k.nHealth := by
  have hlist : ∀ f : List Card → List Card, (s.updList k.m_hTamer f).monsters m = some k := fun _ => hk
  unfold procTame
  cases tameEnd k t dist rnd with
  | tamerDead => exact ⟨k, hk, rfl⟩
  | tooFar | cardLost | noSkill => exact ⟨_, clearTamer_monster hk ct, rfl⟩
  | failed i => exact ⟨_, clearTamer_monster (hlist _) ct, rfl⟩
  | tamed i => exact ⟨_, clearTamer_monster (hlist _) ct, rfl⟩

theorem onDead_health (hk : s.monsters m = some k) (dist : ℚ) (rnd : Int) (ct : Nat) :
    ∃ k', (s.onDead m k dist rnd ct).2.monsters m = some k' ∧ k'.nHealth = k.nHealth := by
  by_cases hne : k.m_hTamer = 0
  · rw [onDead_wild hne]
    exact ⟨_, updMonster_self _ hk, rfl⟩
  · cases ht : s.players k.m_hTamer with
    | none =>
      rw [onDead, if_neg hne, ht]
      exact ⟨_, updMonster_self _ hk, rfl⟩
    | some t =>
      rw [onDead_tamer hne ht]
      obtain ⟨k', hk', hhealth⟩ := procTame_health hk t dist rnd ct
      exact ⟨_, updMonster_self _ hk', hhealth⟩

/-- What is tamed was alive and is dead. -/
theorem tames_eq_some (ht : s.tames e = some m) (hstep : s.handleTaming e = some s') :
    (∃ k, s.monsters m = some k ∧ k.nHealth ≠ 0) ∧ ∀ k', s'.monsters m = some k' → k'.nHealth = 0 := by
  cases e with
  | hit n pFrom nDamage dist rnd ct =>
    simp only [tames] at ht
    split_ifs at ht with hsuccess
    cases ht
    obtain ⟨⟨b, s2⟩, hhit, rfl⟩ := Option.map_eq_some_iff.mp hstep
    rw [hhit] at hsuccess
    cases hsuccess
    obtain ⟨k, body, hk, hbody, ⟨-, hb, -⟩ | ⟨hlive, hdead, hd⟩⟩ := hit_cases hhit
    · cases hb
    · refine ⟨⟨k, hk, hlive⟩, fun k' hk' => ?_⟩
      have hkd : (s.updMonster m fun _ => (k.setBody body).die).monsters m = some (k.setBody body).die :=
        updMonster_self _ hk
      obtain ⟨k2, hk2, hhealth⟩ := onDead_health hkd dist rnd ct
      rw [hd] at hk2
      cases hk'.symm.trans hk2
      exact hhealth.trans hdead
  | _ => cases ht

/-- No monster has been tamed twice, and one that has been tamed is dead. -/
def TamedOnce (hist : History TamingWorld TamingEvent) (s : TamingWorld) : Prop :=
  ∀ m, hist.countP (fun tr => tr.before.tames tr.event = some m) = 0 ∨
    hist.countP (fun tr => tr.before.tames tr.event = some m) = 1 ∧ m < s.nextHandle ∧
      ∀ k, s.monsters m = some k → k.nHealth = 0

theorem TamedOnce.step (hs : TamingOk s) (honce : TamedOnce hist s) (hfollows : Follows s s')
    (hstep : s.handleTaming e = some s') : TamedOnce (⟨s, e, s'⟩ :: hist) s' := by
  intro m
  rw [List.countP_cons]
  dsimp only
  by_cases htames : s.tames e = some m
  · obtain ⟨⟨k, hk, hlive⟩, hdead⟩ := tames_eq_some htames hstep
    have hzero := (honce m).resolve_right fun h => hlive (h.2.2 k hk)
    right
    rw [hzero, if_pos (decide_eq_true htames)]
    exact ⟨rfl, Nat.lt_of_lt_of_le (hs.lt_next hk) hfollows.next, hdead⟩
  · rw [if_neg (by simpa using htames), Nat.add_zero]
    refine (honce m).imp_right fun ⟨hone, hlt, hdead⟩ => ⟨hone, Nat.lt_of_lt_of_le hlt hfollows.next, fun k hk => ?_⟩
    by_contra hlive
    obtain hle | ⟨k2, hk2, hlive2⟩ := hfollows.dead m k hk hlive
    · exact Nat.not_lt.mpr hle hlt
    · exact hlive2 (hdead k2 hk2)

/-! ## Steps that are not careful -/

theorem TamingOk.tamingCards_of_attempt (hs : TamingOk s) (hk : s.monsters m = some k) (hne : k.m_hTamer ≠ 0)
    (ht : s.players k.m_hTamer = some t) : tamingCards t = 1 := by
  obtain ⟨-, -, t2, ht2, -, hmarks⟩ := hs.tamer m k hk hne
  cases ht.symm.trans ht2
  rw [tamingCards, ← length_marks, hmarks]
  rfl

/-- An attempt that the step ends is cleared. -/
theorem Claimed.of_ended (hclaim : Claimed (⟨s, e, s'⟩ :: hist) s') (hs : TamingOk s) (hk : s.monsters m = some k)
    (hne : k.m_hTamer ≠ 0) (hend : ¬s'.Attempt k.m_hTamer m) : s'.Cleared k.m_hTamer m :=
  hclaim.cleared _ List.mem_cons_self _ _ (hs.attempt hk hne) hend

theorem not_attempt_of_dead (hk : s.monsters m = some k) (hdead : k.nHealth = 0) : ¬s.Attempt p m := by
  rintro ⟨-, k2, hk2, -, hlive⟩
  cases hk.symm.trans hk2
  exact hlive hdead

theorem tamingCards_setList (t : Tamer) (l : List Card) : tamingCards (t.setList l) = (marks l).length :=
  (length_marks l).symm

theorem updList_self (f : List Card → List Card) (ht : s.players p = some t) :
    (s.updList p f).players p = some (t.setList (f t.m_vList)) := updPlayer_self _ ht

/-- The flag of a player's card may not be carried away. -/
theorem Claimed.not_lost {f : List Card → List Card} (hclaim : Claimed hist (s.updList p f)) (hs : TamingOk s)
    (ht : s.players p = some t) (hlen : (marks (f t.m_vList)).length + 1 = (marks t.m_vList).length) : False := by
  have hnow := hclaim.cards p _ (updList_self f ht)
  have hbefore := hs.tamingCards_iff ht
  rw [tamingCards_setList] at hnow
  rw [tamingCards, ← length_marks] at hbefore
  by_cases hzero : t.m_hTamingTarget = 0
  · rw [hs.free p t ht hzero] at hlen
    cases hlen
  · have hone := hbefore.mpr hzero
    have hnone := hnow.mpr hzero
    omega

theorem careful_push {c : Card} (hs : TamingOk s) (hclaim : Claimed hist (s.updList p (pushCard · c))) :
    Careful s (.push p c) := by
  intro hc t ht hjoin
  have hnow := hclaim.cards p _ (updList_self _ ht)
  have hbefore := hs.tamingCards_iff ht
  have hperm : (marks (pushCard t.m_vList c)).Perm (c.mark.toList ++ marks t.m_vList) := by
    rw [pushCard, hjoin]
    exact marks_append _ c
  have hmore := hperm.length_eq
  rw [Card.mark_eq_some hc, Option.toList_some, List.singleton_append, List.length_cons] at hmore
  rw [tamingCards_setList] at hnow
  rw [tamingCards, ← length_marks] at hbefore
  by_cases hzero : t.m_hTamingTarget = 0
  · rw [hs.free p t ht hzero] at hmore
    exact hnow.mp hmore hzero
  · have hone := hbefore.mpr hzero
    have htwo := hnow.mpr hzero
    omega

theorem careful_pop {i : Nat} {cnt : Int} (hs : TamingOk s) (hclaim : Claimed hist (s.updList p (popCard · i cnt))) :
    Careful s (.pop p i cnt) := by
  intro t ht c hc htaming hall
  refine hclaim.not_lost hs ht ?_
  rw [popCard_of_eq hc hall]
  exact length_marks_swapRemove hc htaming

theorem careful_erase {i : Nat} {cnt : Int} (hs : TamingOk s)
    (hclaim : Claimed hist (s.updList p (eraseCard · i cnt))) : Careful s (.erase p i cnt) := by
  intro t ht c hc htaming
  by_contra hle
  refine hclaim.not_lost hs ht ?_
  rw [eraseCard_of_le hc (not_lt.mp hle)]
  exact length_marks_swapRemove hc htaming

theorem careful_logout (hs : TamingOk s) (hclaim : Claimed (⟨s, e, s.removePlayer p⟩ :: hist) (s.removePlayer p)) :
    Careful s (.logout p) := by
  intro t ht
  by_contra hne
  obtain ⟨k, hk, htamer⟩ := hs.target p t ht hne
  have hp := hs.player_ne_zero ht
  refine hp (htamer.symm.trans ?_)
  refine (hclaim.of_ended hs hk (htamer ▸ hp) ?_).tamer k hk
  rintro ⟨hsome, -⟩
  rw [removePlayer_players, if_pos htamer] at hsome
  cases hsome

theorem careful_addHealth {hp : Int} (hs : TamingOk s) (hrev : ¬Revives s (.addHealth m hp))
    (hclaim : Claimed (⟨s, e, s.updMonster m fun k => k.setHealth (k.nHealth + hp)⟩ :: hist)
      (s.updMonster m fun k => k.setHealth (k.nHealth + hp))) : Careful s (.addHealth m hp) := by
  intro k hk
  refine ⟨fun hzero => hrev ⟨k, hk, hzero⟩, fun hne => ?_⟩
  by_contra hle
  have hk' := updMonster_self (fun k => k.setHealth (k.nHealth + hp)) hk
  have hcleared (hdead : (k.setHealth (k.nHealth + hp)).nHealth = 0) :
      (k.setHealth (k.nHealth + hp)).m_hTamer = 0 :=
    (hclaim.of_ended hs hk hne (not_attempt_of_dead hk' hdead)).tamer _ hk'
  refine hne (hcleared ?_)
  have hmax := hs.maxHealth m k hk
  rw [setHealth_nHealth]
  split_ifs <;> omega

theorem careful_update {idle : Idle} {ct : Nat} (hs : TamingOk s) (hstep : s.update m idle ct = some s')
    (hclaim : Claimed hist s') : Careful s (.update m idle ct) := by
  intro k hk hne hnear
  obtain ⟨hlive, -, t, ht, htarget, hmarks⟩ := hs.tamer m k hk hne
  obtain ⟨k2, hk2, hcases⟩ := update_cases hstep
  cases (show s.monsters m = some k from hk).symm.trans hk2
  obtain ⟨hoff | hdead, -⟩ | ⟨hzero, -⟩ | ⟨-, hexp⟩ := hcases
  · rw [hnear] at hoff
    cases hoff
  · exact absurd (hs.dead m k hk hdead) hlive
  · exact absurd hzero hlive
  · have hk1 := updMonster_self (·.setNearClient idle.nearClient) hk
    unfold processMove at hexp
    split_ifs at hexp with hcancel
    · have hclear : ((s.updMonster m (·.setNearClient idle.nearClient)).clearTamer m ct).players k.m_hTamer =
          some (t.setTarget 0) := by
        rw [clearTamer_eq hk1 hne]
        exact updPlayer_self _ ht
      have hplayer : s'.players k.m_hTamer = some (t.setTarget 0) := by
        obtain ⟨-, rfl⟩ | ⟨-, rfl⟩ := expireTamer_cases (clearTamer_monster hk1 ct) hexp
        · exact hclear
        · exact hclear
      have hone := hs.tamingCards_of_attempt hk hne ht
      have hone' : tamingCards (t.setTarget 0) = 1 := hone
      exact absurd rfl ((hclaim.cards _ _ hplayer).mp hone')
    · refine ⟨Bool.eq_false_iff.mpr hcancel, ?_⟩
      obtain ⟨-, rfl⟩ | ⟨hlate, -⟩ := expireTamer_cases hk1 hexp
      · exact absurd ((hclaim.tamer _ t m _ ht (updMonster_self _ hk1)).mpr htarget).symm hne
      · exact hlate

theorem careful_hit {pFrom : Attacker} {nDamage ct : Nat} {dist : ℚ} {rnd : Int} {b : Bool} (hs : TamingOk s)
    (hstep : s.hit m pFrom nDamage dist rnd ct = some (b, s')) (hclaim : Claimed (⟨s, e, s'⟩ :: hist) s') :
    Careful s (.hit m pFrom nDamage dist rnd ct) := by
  intro k hk hne hle t ht
  obtain ⟨hlive, hcode, t2, ht2, -, hmarks⟩ := hs.tamer m k hk hne
  cases (show s.players k.m_hTamer = some t from ht).symm.trans ht2
  obtain ⟨k2, body, hk2, hbody, hcases⟩ := hit_cases hstep
  cases (show s.monsters m = some k from hk).symm.trans hk2
  obtain ⟨htamer, hkill⟩ := Monster.dealDamage_spec hbody
  have hdead : body.nHealth = 0 := hkill.mpr hle
  obtain ⟨hno, -⟩ | ⟨-, -, hd⟩ := hcases
  · exact absurd hno (not_or.mpr ⟨hlive, not_not.mpr hdead⟩)
  have hkd : (s.updMonster m fun _ => (k.setBody body).die).monsters m = some (k.setBody body).die := updMonster_self _ hk
  have htamer' : (k.setBody body).die.m_hTamer = k.m_hTamer := htamer
  have hned : (k.setBody body).die.m_hTamer ≠ 0 := htamer' ▸ hne
  have htd : (s.updMonster m fun _ => (k.setBody body).die).players (k.setBody body).die.m_hTamer = some t :=
    htamer' ▸ ht
  obtain ⟨k3, hk3, hhealth⟩ := onDead_health hkd dist rnd ct
  rw [hd] at hk3
  have hcleared := hclaim.of_ended hs hk hne (not_attempt_of_dead hk3 (hhealth.trans hdead))
  rw [onDead_tamer hned htd] at hd
  by_cases hplayer : t.nHealth = 0
  · rw [procTame, tameEnd, if_pos hplayer] at hd
    cases hd
    have hzero := hcleared.tamer _ (updMonster_self _ hkd)
    exact absurd hzero hned
  · obtain ⟨b', l', hb, hplayers, -, -, hend⟩ := procTame_spec hkd hned htd hplayer dist rnd ct
    cases hd
    have hnow : ((procTame (s.updMonster m fun _ => (k.setBody body).die) m (k.setBody body).die t dist rnd
        ct).2.updMonster m (·.setTamedSuccess b')).players k.m_hTamer = some ((t.setList l').setTarget 0) := by
      rw [updMonster_players, hplayers, if_pos htamer'.symm]
    rw [hb] at hcleared
    have hnil : (marks l').length = 0 := (length_marks l').trans (hcleared.cards _ hnow)
    obtain ⟨-, rfl, -⟩ | ⟨i, c, sk, hc, htaming, hsk, hnear, hend⟩ := hend
    · rw [hmarks] at hnil
      cases hnil
    refine ⟨hplayer, hnear, sk, hsk, fun hprob c2 hc2 htaming2 => ?_⟩
    obtain ⟨-, -, rfl⟩ | ⟨-, hfail, -⟩ := hend
    · by_contra hmany
      obtain rfl := eq_of_isTaming hmarks hc2 htaming2 (List.mem_of_getElem? hc) htaming
      have herase : eraseCard t.m_vList i 1 = t.m_vList.set i (c2.setCount (c2.nCount - 1)) := by
        rw [eraseCard, hc]
        exact if_pos (not_le.mp hmany)
      have hlen := (marks_set_of_mark_eq hc (Card.mark_setCount c2 (c2.nCount - 1))).length_eq
      rw [← herase, hnil, hmarks] at hlen
      cases hlen
    · exact absurd hprob hfail

/-- A step that keeps what is claimed is careful, unless it gives a dead monster health. -/
theorem careful_of_claimed (hs : TamingOk s) (hstep : s.handleTaming e = some s') (hrev : ¬Revives s e)
    (hclaim : Claimed (⟨s, e, s'⟩ :: hist) s') : Careful s e := by
  cases e with
  | logout p =>
    cases hstep
    exact careful_logout hs hclaim
  | hit m pFrom nDamage dist rnd ct =>
    obtain ⟨⟨b, s2⟩, hhit, rfl⟩ := Option.map_eq_some_iff.mp hstep
    exact careful_hit hs hhit hclaim
  | update m idle ct => exact careful_update hs hstep hclaim
  | addHealth m hp =>
    cases hstep
    exact careful_addHealth hs hrev hclaim
  | push p c =>
    cases hstep
    exact careful_push hs hclaim
  | pop p i cnt =>
    cases hstep
    exact careful_pop hs hclaim
  | erase p i cnt =>
    cases hstep
    exact careful_erase hs hclaim
  | login _ | spawn _ | despawn _ | tame _ _ _ _ | enter _ | setPlayerHealth _ _ | learn _ _ => trivial

/-! ## Runs -/

/-- The runs of the server, which starts without players and monsters. -/
def tamingSystem : System TamingWorld TamingEvent := System.ofFun (· = {}) handleTaming

theorem tamingOk_empty : TamingOk {} where
  tamer _ _ h := by cases h
  target _ _ h := by cases h
  free _ _ h := by cases h
  dead _ _ h := by cases h
  maxHealth _ _ h := by cases h
  fresh _ _ := ⟨rfl, rfl⟩
  next := by decide

/-- What holds at the end of every run of careful steps. -/
structure RunOk (hist : History TamingWorld TamingEvent) (s : TamingWorld) : Prop where
  ok : TamingOk s
  once : TamedOnce hist s
  cleared : ∀ tr ∈ hist, ∀ p m, tr.before.Attempt p m → ¬tr.after.Attempt p m → tr.after.Cleared p m

theorem RunOk.step (h : RunOk hist s) (he : Careful s e) (hstep : s.handleTaming e = some s') :
    RunOk (⟨s, e, s'⟩ :: hist) s' := by
  have hfollows := careful_step h.ok he hstep
  refine ⟨hfollows.ok, h.once.step h.ok hfollows hstep, List.forall_mem_cons.mpr ⟨fun p m hbefore hafter => ?_, h.cleared⟩⟩
  exact (hfollows.attempts p m hbefore).resolve_left hafter

theorem RunOk.claimed (h : RunOk hist s) : Claimed hist s where
  tamer _ _ _ _ ht hk := h.ok.pair_iff ht hk
  cards _ _ ht := h.ok.tamingCards_iff ht
  cleared := h.cleared
  once m := by
    obtain hzero | ⟨hone, -⟩ := h.once m
    · exact hzero.le.trans (Nat.zero_le 1)
    · exact hone.le

theorem runOk_of_run (hrun : tamingSystem.RunWhere (fun _ s e => Careful s e) hist s) : RunOk hist s := by
  refine hrun.invariant (I := RunOk) ?_ ?_
  · rintro s rfl
    exact ⟨tamingOk_empty, fun _ => .inl rfl, fun _ h => absurd h List.not_mem_nil⟩
  · exact fun _ _ _ _ _ h he hs => h.step he hs

/-- In every run of careful steps the three places agree, and the next step keeps them so if and only if it is
careful; to give a dead monster health is not careful, but does no harm until it is tamed again. -/
theorem taming_of_run (hrun : tamingSystem.RunWhere (fun _ s e => Careful s e) hist s) :
    Claimed hist s ∧ ∀ e s', s.handleTaming e = some s' →
      (Careful s e → Claimed (⟨s, e, s'⟩ :: hist) s') ∧
        (Claimed (⟨s, e, s'⟩ :: hist) s' → Careful s e ∨ Revives s e) := by
  have h := runOk_of_run hrun
  refine ⟨h.claimed, fun e s' hstep => ⟨fun he => (h.step he hstep).claimed, fun hclaim => ?_⟩⟩
  by_cases hrev : Revives s e
  · exact .inr hrev
  · exact .inl (careful_of_claimed h.ok hstep hrev hclaim)

/-- Two players want one monster, and the first tames it. -/
theorem taming_of_run_success : ∃ hist s, tamingSystem.RunWhere (fun _ s e => Careful s e) hist s ∧
    (Claimed hist s ∧ ∀ e s', s.handleTaming e = some s' →
      (Careful s e → Claimed (⟨s, e, s'⟩ :: hist) s') ∧
        (Claimed (⟨s, e, s'⟩ :: hist) s' → Careful s e ∨ Revives s e)) ∧
    (s.monsters 3).map TameMonster.m_bTamedSuccess = some true ∧
    (s.players 1).map (fun t => t.m_vList.map Card.Flag) = some [0x80000000] := by
  have hex : (System.exec (fun _ s e => Careful s e) handleTaming
      [.login { m_vList := [{ Code := 7 }], skill := some ⟨0, 0, 1⟩ }, .login { m_vList := [{ Code := 7 }] },
        .spawn { nHealth := 0, nMaxHealth := 10, tameItemCode := 7, tamePercentage := 1 },
        .tame 3 1 1 100, .tame 3 2 1 100, .hit 3 ⟨1, some 1⟩ 4 20 500000 200, .hit 3 ⟨1, some 1⟩ 6 20 500000 300]
        [] {}).map
      (fun x => ((x.2.monsters 3).map TameMonster.m_bTamedSuccess,
        (x.2.players 1).map fun t => t.m_vList.map Card.Flag)) =
      some (some true, some [0x80000000]) := by decide +kernel
  obtain ⟨hist, s, hrun, hend⟩ := System.exists_run_exec (fun s : TamingWorld =>
    ((s.monsters 3).map TameMonster.m_bTamedSuccess, (s.players 1).map fun t => t.m_vList.map Card.Flag)) _
    (System.RunWhere.init (S := tamingSystem) rfl) hex
  exact ⟨hist, s, hrun, taming_of_run hrun, Prod.mk.inj hend⟩

/-- The taming times out, and the player keeps his target. -/
theorem not_claimed_taming : ¬ ∀ (hist : History TamingWorld TamingEvent) (s : TamingWorld),
    tamingSystem.Run hist s → Claimed hist s := by
  intro hall
  have hex : (System.exec (fun _ _ _ => True) handleTaming
      [.login { m_vList := [{ Code := 7 }], skill := some ⟨0, 0, 1⟩ },
        .spawn { nHealth := 0, nMaxHealth := 10, tameItemCode := 7, tamePercentage := 1 },
        .enter 2, .tame 2 1 1 100, .update 2 {} 30101] [] {}).map
      (fun x => ((x.2.monsters 2).map fun k => k.m_hTamer, (x.2.players 1).map Tamer.m_hTamingTarget)) =
      some (some 0, some 2) := by decide +kernel
  obtain ⟨hist, s, hrun, hend⟩ := System.exists_run_exec (fun s : TamingWorld =>
    ((s.monsters 2).map fun k => k.m_hTamer, (s.players 1).map Tamer.m_hTamingTarget)) _
    (System.RunWhere.init (S := tamingSystem) rfl) hex
  obtain ⟨hmonster, hplayer⟩ := Prod.mk.inj hend
  obtain ⟨k, hk, htamer⟩ := Option.map_eq_some_iff.mp hmonster
  obtain ⟨t, ht, htarget⟩ := Option.map_eq_some_iff.mp hplayer
  have hlink := ((hall hist s hrun).tamer 1 t 2 k ht hk).mpr htarget
  exact absurd (htamer.symm.trans hlink) (by decide)

end TamingWorld

end RZEmulator.Chihiro
