import RZEmulator.Chihiro.DamageLedger
import RZEmulator.Chihiro.TamingCards

/-!
# The steps of a taming

`TamingOk` says that monsters with a tamer and players with a target come in pairs, and which cards have the flag.
A step that keeps it is described by `Follows`: every attempt goes on or is cleared. The beginning of a taming and
its end are one change of a pair (`TamingOk.exchange`).
-/

namespace RZEmulator.Chihiro

open Lib

namespace TamingWorld

/-- The number of cards that are flagged as being tamed. -/
def tamingCards (t : Tamer) : Nat := t.m_vList.countP Card.isTaming

/-- A taming of the monster by the player is going on. -/
def Attempt (s : TamingWorld) (p m : Handle) : Prop :=
  (s.players p).isSome = true ∧ ∃ k, s.monsters m = some k ∧ k.m_hTamer = p ∧ k.nHealth ≠ 0

/-- Nothing is left of a taming of the monster by the player. -/
structure Cleared (s : TamingWorld) (p m : Handle) : Prop where
  tamer : ∀ k, s.monsters m = some k → k.m_hTamer = 0
  target : ∀ t, s.players p = some t → t.m_hTamingTarget = 0
  cards : ∀ t, s.players p = some t → tamingCards t = 0

/-- The death of the monster `k` ends the taming by `t` as it should: `ProcTame` reaches the random number, and if
that is against him, the card is no stack. -/
def EndsWell (k : TameMonster) (t : Tamer) (dist : ℚ) (rnd : Int) : Prop :=
  t.nHealth ≠ 0 ∧ dist ≤ 500 ∧ ∃ sk ∈ t.skill, fTameProbability k sk < rnd →
    ∀ c ∈ t.m_vList, c.isTaming = true → c.nCount ≤ 1

instance (k : TameMonster) (t : Tamer) (dist : ℚ) (rnd : Int) : Decidable (EndsWell k t dist rnd) :=
  inferInstanceAs (Decidable (_ ∧ _ ∧ ∃ sk ∈ t.skill, _))

/-! ## The invariant -/

/-- The monsters with a tamer and the players with a target are in pairs, and in each the player has one card with
the flag, of the code that the monster asks for; no other player has any. -/
structure TamingOk (s : TamingWorld) : Prop where
  tamer : ∀ m k, s.monsters m = some k → k.m_hTamer ≠ 0 → k.nHealth ≠ 0 ∧ k.tameItemCode ≠ 0 ∧
    ∃ t, s.players k.m_hTamer = some t ∧ t.m_hTamingTarget = m ∧ marks t.m_vList = [k.tameItemCode]
  target : ∀ p t, s.players p = some t → t.m_hTamingTarget ≠ 0 →
    ∃ k, s.monsters t.m_hTamingTarget = some k ∧ k.m_hTamer = p
  free : ∀ p t, s.players p = some t → t.m_hTamingTarget = 0 → marks t.m_vList = []
  dead : ∀ m k, s.monsters m = some k → k.isStatusDead = true → k.nHealth = 0
  maxHealth : ∀ m k, s.monsters m = some k → 0 < k.nMaxHealth
  fresh : ∀ h, h = 0 ∨ s.nextHandle ≤ h → s.players h = none ∧ s.monsters h = none
  next : s.nextHandle ≠ 0

variable {s s' : TamingWorld} {p m h : Handle} {t t' : Tamer} {k k' : TameMonster}
  {l : List Card} {i : Nat} {c : Card}

theorem TamingOk.player_ne_zero (hs : TamingOk s) (ht : s.players p = some t) : p ≠ 0 := by
  rintro rfl
  rw [(hs.fresh 0 (.inl rfl)).1] at ht
  cases ht

theorem TamingOk.monster_ne_zero (hs : TamingOk s) (hk : s.monsters m = some k) : m ≠ 0 := by
  rintro rfl
  rw [(hs.fresh 0 (.inl rfl)).2] at hk
  cases hk

theorem TamingOk.lt_next (hs : TamingOk s) (hk : s.monsters m = some k) : m < s.nextHandle := by
  by_contra hle
  rw [(hs.fresh m (.inr (Nat.not_lt.mp hle))).2] at hk
  cases hk

/-- The two sides of a taming name each other. -/
theorem TamingOk.pair_iff (hs : TamingOk s) (ht : s.players p = some t) (hk : s.monsters m = some k) :
    k.m_hTamer = p ↔ t.m_hTamingTarget = m := by
  constructor
  · rintro rfl
    obtain ⟨-, -, t', ht', htarget, -⟩ := hs.tamer m k hk (hs.player_ne_zero ht)
    rw [ht] at ht'
    cases ht'
    exact htarget
  · rintro rfl
    obtain ⟨k', hk', htamer⟩ := hs.target p t ht (hs.monster_ne_zero hk)
    rw [hk] at hk'
    cases hk'
    exact htamer

theorem TamingOk.marks_of_target (hs : TamingOk s) (ht : s.players p = some t) (hne : t.m_hTamingTarget ≠ 0) :
    ∃ code, marks t.m_vList = [code] := by
  obtain ⟨k, hk, htamer⟩ := hs.target p t ht hne
  obtain ⟨-, -, t', ht', -, hmarks⟩ := hs.tamer _ k hk (htamer ▸ hs.player_ne_zero ht)
  rw [htamer, ht] at ht'
  cases ht'
  exact ⟨_, hmarks⟩

theorem TamingOk.tamingCards_iff (hs : TamingOk s) (ht : s.players p = some t) :
    tamingCards t = 1 ↔ t.m_hTamingTarget ≠ 0 := by
  rw [tamingCards, ← length_marks]
  constructor
  · intro hone hzero
    rw [hs.free p t ht hzero] at hone
    cases hone
  · intro hne
    obtain ⟨code, hmarks⟩ := hs.marks_of_target ht hne
    rw [hmarks]
    rfl

/-- Of an attempt everything is known. -/
theorem TamingOk.attempt (hs : TamingOk s) (hk : s.monsters m = some k) (hne : k.m_hTamer ≠ 0) :
    s.Attempt k.m_hTamer m := by
  obtain ⟨hhealth, -, t, ht, -, -⟩ := hs.tamer m k hk hne
  exact ⟨ht ▸ rfl, k, hk, rfl, hhealth⟩

/-! ## Changes -/

@[simp] theorem updPlayer_monsters (s : TamingWorld) (p : Handle) (f : Tamer → Tamer) :
    (s.updPlayer p f).monsters = s.monsters := rfl

@[simp] theorem updMonster_players (s : TamingWorld) (m : Handle) (f : TameMonster → TameMonster) :
    (s.updMonster m f).players = s.players := rfl

@[simp] theorem updPlayer_nextHandle (s : TamingWorld) (p : Handle) (f : Tamer → Tamer) :
    (s.updPlayer p f).nextHandle = s.nextHandle := rfl

@[simp] theorem updMonster_nextHandle (s : TamingWorld) (m : Handle) (f : TameMonster → TameMonster) :
    (s.updMonster m f).nextHandle = s.nextHandle := rfl

theorem updPlayer_players (s : TamingWorld) (p h : Handle) (f : Tamer → Tamer) :
    (s.updPlayer p f).players h = if h = p then (s.players h).map f else s.players h := rfl

theorem updMonster_monsters (s : TamingWorld) (m h : Handle) (f : TameMonster → TameMonster) :
    (s.updMonster m f).monsters h = if h = m then (s.monsters h).map f else s.monsters h := rfl

theorem updPlayer_self (f : Tamer → Tamer) (ht : s.players p = some t) :
    (s.updPlayer p f).players p = some (f t) := by
  rw [updPlayer_players, if_pos rfl, ht]
  rfl

theorem updMonster_self (f : TameMonster → TameMonster) (hk : s.monsters m = some k) :
    (s.updMonster m f).monsters m = some (f k) := by
  rw [updMonster_monsters, if_pos rfl, hk]
  rfl

/-- What a careful step keeps and does: an attempt goes on or is cleared, and what is dead stays dead. -/
structure Follows (s s' : TamingWorld) : Prop where
  ok : TamingOk s'
  attempts : ∀ p m, s.Attempt p m → s'.Attempt p m ∨ s'.Cleared p m
  dead : ∀ m k', s'.monsters m = some k' → k'.nHealth ≠ 0 → s.nextHandle ≤ m ∨
    ∃ k, s.monsters m = some k ∧ k.nHealth ≠ 0
  next : s.nextHandle ≤ s'.nextHandle

theorem TamingOk.follows (hs : TamingOk s) : Follows s s where
  ok := hs
  attempts _ _ := .inl
  dead _ k' hk' hne := .inr ⟨k', hk', hne⟩
  next := Nat.le_refl _

theorem updPlayer_eq_some {f : Tamer → Tamer} (h' : (s.updPlayer p f).players h = some t') :
    ∃ t, s.players h = some t ∧ t' = if h = p then f t else t := by
  rw [updPlayer_players] at h'
  split_ifs at h' with hp
  · obtain ⟨t, ht, rfl⟩ := Option.map_eq_some_iff.mp h'
    exact ⟨t, ht, (if_pos hp).symm⟩
  · exact ⟨t', h', (if_neg hp).symm⟩

theorem updMonster_eq_some {f : TameMonster → TameMonster} (h' : (s.updMonster m f).monsters h = some k') :
    ∃ k, s.monsters h = some k ∧ k' = if h = m then f k else k := by
  rw [updMonster_monsters] at h'
  split_ifs at h' with hm
  · obtain ⟨k, hk, rfl⟩ := Option.map_eq_some_iff.mp h'
    exact ⟨k, hk, (if_pos hm).symm⟩
  · exact ⟨k', h', (if_neg hm).symm⟩

theorem updPlayer_of_ne (f : Tamer → Tamer) (hne : h ≠ p) : (s.updPlayer p f).players h = s.players h := if_neg hne

theorem updMonster_of_ne (f : TameMonster → TameMonster) (hne : h ≠ m) :
    (s.updMonster m f).monsters h = s.monsters h := if_neg hne

theorem updPlayer_none (f : Tamer → Tamer) (hnone : s.players h = none) : (s.updPlayer p f).players h = none := by
  rw [updPlayer_players, hnone]
  split_ifs <;> rfl

theorem updMonster_none (f : TameMonster → TameMonster) (hnone : s.monsters h = none) :
    (s.updMonster m f).monsters h = none := by
  rw [updMonster_monsters, hnone]
  split_ifs <;> rfl

/-- A change of a player that is none of his target and of his flags. -/
theorem TamingOk.updPlayer (hs : TamingOk s) {f : Tamer → Tamer}
    (hf : ∀ t, s.players p = some t →
      (f t).m_hTamingTarget = t.m_hTamingTarget ∧ (marks (f t).m_vList).Perm (marks t.m_vList)) :
    Follows s (s.updPlayer p f) where
  ok := {
    tamer := fun m k hk hne => by
      obtain ⟨hhealth, hcode, t, ht, htarget, hmarks⟩ := hs.tamer m k hk hne
      refine ⟨hhealth, hcode, ?_⟩
      by_cases hp : k.m_hTamer = p
      · obtain ⟨hsame, hperm⟩ := hf t (hp ▸ ht)
        refine ⟨f t, ?_, hsame.trans htarget, ?_⟩
        · rw [updPlayer_players, if_pos hp, ht]
          rfl
        · rw [hmarks] at hperm
          exact List.perm_singleton.mp hperm
      · exact ⟨t, (updPlayer_of_ne f hp).trans ht, htarget, hmarks⟩
    target := fun q t' ht' hne => by
      obtain ⟨t, ht, rfl⟩ := updPlayer_eq_some ht'
      split_ifs at hne ⊢ with hq
      · subst hq
        rw [(hf t ht).1] at hne ⊢
        exact hs.target q t ht hne
      · exact hs.target q t ht hne
    free := fun q t' ht' hzero => by
      obtain ⟨t, ht, rfl⟩ := updPlayer_eq_some ht'
      split_ifs at hzero ⊢ with hq
      · subst hq
        obtain ⟨hsame, hperm⟩ := hf t ht
        rw [hs.free q t ht (hsame.symm.trans hzero)] at hperm
        exact hperm.eq_nil
      · exact hs.free q t ht hzero
    dead := hs.dead
    maxHealth := hs.maxHealth
    fresh := fun h hh => ⟨updPlayer_none f (hs.fresh h hh).1, (hs.fresh h hh).2⟩
    next := hs.next }
  attempts q m := fun ⟨hq, hk⟩ => by
    obtain ⟨t, ht⟩ := Option.isSome_iff_exists.mp hq
    left
    refine ⟨?_, hk⟩
    rw [updPlayer_players, ht]
    split_ifs <;> rfl
  dead _ k' hk' hne := .inr ⟨k', hk', hne⟩
  next := Nat.le_refl _

/-- A change of a monster that is none of its tamer, of its life and of its template. -/
theorem TamingOk.updMonster (hs : TamingOk s) {f : TameMonster → TameMonster}
    (hf : ∀ k, s.monsters m = some k → (f k).m_hTamer = k.m_hTamer ∧ (f k).tameItemCode = k.tameItemCode ∧
      (f k).nMaxHealth = k.nMaxHealth ∧ (k.m_hTamer ≠ 0 → (f k).nHealth ≠ 0) ∧
      ((f k).isStatusDead = true → (f k).nHealth = 0) ∧ (k.nHealth = 0 → (f k).nHealth = 0)) :
    Follows s (s.updMonster m f) where
  ok := {
    tamer := fun n k' hk' hne => by
      obtain ⟨k, hk, rfl⟩ := updMonster_eq_some hk'
      split_ifs at hne ⊢ with hn
      · subst hn
        obtain ⟨htamer, hcode, -, hhealth, -, -⟩ := hf k hk
        rw [htamer] at hne ⊢
        rw [hcode]
        exact ⟨hhealth hne, (hs.tamer n k hk hne).2⟩
      · exact hs.tamer n k hk hne
    target := fun p t ht hne => by
      obtain ⟨k, hk, htamer⟩ := hs.target p t ht hne
      by_cases hm : t.m_hTamingTarget = m
      · refine ⟨f k, ?_, (hf k (hm ▸ hk)).1.trans htamer⟩
        rw [updMonster_monsters, if_pos hm, hk]
        rfl
      · exact ⟨k, (updMonster_of_ne f hm).trans hk, htamer⟩
    free := hs.free
    dead := fun n k' hk' hdead => by
      obtain ⟨k, hk, rfl⟩ := updMonster_eq_some hk'
      split_ifs at hdead ⊢ with hn
      · subst hn
        exact (hf k hk).2.2.2.2.1 hdead
      · exact hs.dead n k hk hdead
    maxHealth := fun n k' hk' => by
      obtain ⟨k, hk, rfl⟩ := updMonster_eq_some hk'
      split_ifs with hn
      · subst hn
        rw [(hf k hk).2.2.1]
        exact hs.maxHealth n k hk
      · exact hs.maxHealth n k hk
    fresh := fun h hh => ⟨(hs.fresh h hh).1, updMonster_none f (hs.fresh h hh).2⟩
    next := hs.next }
  attempts p n := fun ⟨hp, k, hk, htamer, hhealth⟩ => by
    left
    by_cases hn : n = m
    · subst hn
      obtain ⟨hsame, -, -, hlive, -, -⟩ := hf k hk
      obtain ⟨t, ht⟩ := Option.isSome_iff_exists.mp hp
      exact ⟨hp, f k, updMonster_self f hk, hsame.trans htamer, hlive (htamer ▸ hs.player_ne_zero ht)⟩
    · exact ⟨hp, k, (updMonster_of_ne f hn).trans hk, htamer, hhealth⟩
  dead n k' hk' hne := by
    obtain ⟨k, hk, rfl⟩ := updMonster_eq_some hk'
    split_ifs at hne with hn
    · subst hn
      exact .inr ⟨k, hk, fun hzero => hne ((hf k hk).2.2.2.2.2 hzero)⟩
    · exact .inr ⟨k, hk, hne⟩
  next := Nat.le_refl _

/-- The player and the monster are nobody else's target and tamer; they become a pair, or both are cleared. -/
theorem TamingOk.exchange (hs : TamingOk s) (ht : s.players p = some t) (hk : s.monsters m = some k)
    (hown : t.m_hTamingTarget = 0 ∧ k.m_hTamer = 0 ∨ t.m_hTamingTarget = m ∧ k.m_hTamer = p)
    (hplayers : ∀ h, s'.players h = if h = p then some t' else s.players h)
    (hmonsters : ∀ h, s'.monsters h = if h = m then some k' else s.monsters h)
    (hnext : s'.nextHandle = s.nextHandle)
    (hpair : t'.m_hTamingTarget = m ∧ k'.m_hTamer = p ∧ k'.nHealth ≠ 0 ∧ k'.tameItemCode ≠ 0 ∧
        marks t'.m_vList = [k'.tameItemCode] ∨
      t'.m_hTamingTarget = 0 ∧ k'.m_hTamer = 0 ∧ marks t'.m_vList = [])
    (hdead : k'.isStatusDead = true → k'.nHealth = 0) (hmax : 0 < k'.nMaxHealth) : TamingOk s' where
  tamer n k2 hk2 hne := by
    rw [hmonsters] at hk2
    split_ifs at hk2 with hn
    · cases hk2
      subst hn
      obtain ⟨htarget, htamer, hhealth, hcode, hmarks⟩ | ⟨-, htamer, -⟩ := hpair
      · exact ⟨hhealth, hcode, t', by rw [hplayers, if_pos htamer], htarget, hmarks⟩
      · exact absurd htamer hne
    · obtain ⟨hhealth, hcode, t2, ht2, htarget, hmarks⟩ := hs.tamer n k2 hk2 hne
      refine ⟨hhealth, hcode, t2, ?_, htarget, hmarks⟩
      rw [hplayers, if_neg, ht2]
      intro hp
      have hlink := (hs.pair_iff ht hk2).mp hp
      obtain ⟨hzero, -⟩ | ⟨hm, -⟩ := hown
      · exact hs.monster_ne_zero hk2 (hlink.symm.trans hzero)
      · exact hn (hlink.symm.trans hm)
  target q t2 ht2 hne := by
    rw [hplayers] at ht2
    split_ifs at ht2 with hq
    · cases ht2
      obtain ⟨htarget, htamer, -⟩ | ⟨hzero, -⟩ := hpair
      · exact ⟨k', by rw [hmonsters, if_pos htarget], htamer.trans hq.symm⟩
      · exact absurd hzero hne
    · obtain ⟨k2, hk2, htamer⟩ := hs.target q t2 ht2 hne
      refine ⟨k2, ?_, htamer⟩
      rw [hmonsters, if_neg, hk2]
      intro hm
      have hlink := (hs.pair_iff ht2 hk).mpr hm
      obtain ⟨-, hzero⟩ | ⟨-, hp⟩ := hown
      · exact hs.player_ne_zero ht2 (hlink.symm.trans hzero)
      · exact hq (hlink.symm.trans hp)
  free q t2 ht2 hzero := by
    rw [hplayers] at ht2
    split_ifs at ht2 with hq
    · cases ht2
      obtain ⟨htarget, -⟩ | ⟨-, -, hmarks⟩ := hpair
      · exact absurd (htarget.symm.trans hzero) (hs.monster_ne_zero hk)
      · exact hmarks
    · exact hs.free q t2 ht2 hzero
  dead n k2 hk2 := by
    rw [hmonsters] at hk2
    split_ifs at hk2 with hn
    · cases hk2
      exact hdead
    · exact hs.dead n k2 hk2
  maxHealth n k2 hk2 := by
    rw [hmonsters] at hk2
    split_ifs at hk2 with hn
    · cases hk2
      exact hmax
    · exact hs.maxHealth n k2 hk2
  fresh h hh := by
    rw [hnext] at hh
    obtain ⟨hplayer, hmonster⟩ := hs.fresh h hh
    rw [hplayers, hmonsters, if_neg, if_neg]
    · exact ⟨hplayer, hmonster⟩
    · rintro rfl
      rw [hmonster] at hk
      cases hk
    · rintro rfl
      rw [hplayer] at ht
      cases ht
  next := hnext ▸ hs.next

/-! ## The functions -/

/-- What `SetTamer` asks for, and what it does then. -/
theorem setTamer_cases (s : TamingWorld) (m p : Handle) (nSkillLevel : Int) (ct : Nat) :
    s.setTamer m p nSkillLevel ct = s ∨
      ∃ t k i c, s.players p = some t ∧ s.monsters m = some k ∧ t.m_hTamingTarget = 0 ∧
        k.nHealth = k.nMaxHealth ∧ k.m_hTamer = 0 ∧ k.tameItemCode ≠ 0 ∧ t.m_vList[i]? = some c ∧
        c.Code = k.tameItemCode ∧ s.setTamer m p nSkillLevel ct =
          (s.updMonster m (·.setTamer p nSkillLevel ct)).updPlayer p fun t =>
            (t.setTarget m).setList (t.m_vList.modify i Card.setTaming) := by
  unfold setTamer
  cases ht : s.players p with
  | none => exact .inl rfl
  | some t =>
    cases hk : s.monsters m with
    | none => exact .inl rfl
    | some k =>
      dsimp only
      cases hcard : tamingCard t k with
      | none => exact .inl rfl
      | some i =>
        right
        unfold tamingCard at hcard
        split_ifs at hcard with hguard
        obtain ⟨c, hc, hcode, -⟩ := findItem_eq_some hcard
        exact ⟨t, k, i, c, rfl, rfl, hguard.1, hguard.2.1, hguard.2.2.1, hguard.2.2.2, hc, hcode, rfl⟩

theorem modify_of_getElem? {f : Card → Card} (h : l[i]? = some c) : l.modify i f = l.set i (f c) := by
  rw [List.modify_eq_set_getElem?, h]
  rfl

theorem TamingOk.setTamer (hs : TamingOk s) (m p : Handle) (nSkillLevel : Int) (ct : Nat) :
    Follows s (s.setTamer m p nSkillLevel ct) := by
  obtain heq | ⟨t, k, i, c, ht, hk, hfree, hhealth, hwild, hcode, hc, hccode, heq⟩ := setTamer_cases s m p nSkillLevel ct
  · rw [heq]
    exact hs.follows
  rw [heq]
  have hmarks : marks (t.m_vList.modify i Card.setTaming) = [k.tameItemCode] := by
    rw [modify_of_getElem? hc, marks_eq_singleton_of_set hc (hs.free p t ht hfree) (Card.isTaming_setTaming c)]
    exact congrArg (fun code => [code]) hccode
  have hlive : k.nHealth ≠ 0 := hhealth ▸ (hs.maxHealth m k hk).ne'
  have hplayers : ∀ h, ((s.updMonster m (·.setTamer p nSkillLevel ct)).updPlayer p fun t =>
      (t.setTarget m).setList (t.m_vList.modify i Card.setTaming)).players h =
        if h = p then some ((t.setTarget m).setList (t.m_vList.modify i Card.setTaming)) else s.players h := by
    intro h
    rw [updPlayer_players]
    split_ifs with hp
    · rw [hp, updMonster_players, ht]
      rfl
    · rfl
  have hmonsters : ∀ h, ((s.updMonster m (·.setTamer p nSkillLevel ct)).updPlayer p fun t =>
      (t.setTarget m).setList (t.m_vList.modify i Card.setTaming)).monsters h =
        if h = m then some (k.setTamer p nSkillLevel ct) else s.monsters h := by
    intro h
    rw [updPlayer_monsters, updMonster_monsters]
    split_ifs with hm
    · rw [hm, hk]
      rfl
    · rfl
  constructor
  · refine hs.exchange ht hk (.inl ⟨hfree, hwild⟩) hplayers hmonsters rfl ?_ (hs.dead m k hk) (hs.maxHealth m k hk)
    exact .inl ⟨rfl, rfl, hlive, hcode, hmarks⟩
  · rintro q n ⟨hq, k2, hk2, htamer, hhealth2⟩
    left
    obtain ⟨t2, ht2⟩ := Option.isSome_iff_exists.mp hq
    have hn : n ≠ m := by
      rintro rfl
      rw [hk] at hk2
      cases hk2
      exact hs.player_ne_zero ht2 (htamer.symm.trans hwild)
    refine ⟨?_, k2, (updMonster_of_ne _ hn).trans hk2, htamer, hhealth2⟩
    rw [updPlayer_players, updMonster_players, ht2]
    split_ifs <;> rfl
  · intro n k2 hk2 hne
    rw [updPlayer_monsters] at hk2
    obtain ⟨k3, hk3, rfl⟩ := updMonster_eq_some hk2
    refine .inr ⟨k3, hk3, ?_⟩
    split_ifs at hne
    · exact hne
    · exact hne
  · exact Nat.le_refl _

theorem clearTamer_eq (hk : s.monsters m = some k) (hne : k.m_hTamer ≠ 0) (ct : Nat) :
    s.clearTamer m ct = (s.updPlayer k.m_hTamer (·.setTarget 0)).updMonster m (·.setTamer 0 0 ct) := by
  rw [clearTamer, hk]
  dsimp only
  rw [if_pos hne]

/-- The tamer's cards change, and he and the monster are cleared. -/
theorem updList_clearTamer (hk : s.monsters m = some k) (hne : k.m_hTamer ≠ 0) (ht : s.players k.m_hTamer = some t)
    (ct : Nat) (f : List Card → List Card) :
    (∀ h, ((s.updList k.m_hTamer f).clearTamer m ct).players h =
      if h = k.m_hTamer then some ((t.setList (f t.m_vList)).setTarget 0) else s.players h) ∧
    (∀ h, ((s.updList k.m_hTamer f).clearTamer m ct).monsters h =
      if h = m then some (k.setTamer 0 0 ct) else s.monsters h) ∧
    ((s.updList k.m_hTamer f).clearTamer m ct).nextHandle = s.nextHandle := by
  have hk' : (s.updList k.m_hTamer f).monsters m = some k := hk
  rw [clearTamer_eq hk' hne]
  refine ⟨fun h => ?_, fun h => ?_, rfl⟩
  · rw [updMonster_players, updPlayer_players, updList, updPlayer_players]
    split_ifs with hp
    · rw [hp, ht]
      rfl
    · rfl
  · rw [updMonster_monsters, updPlayer_monsters]
    split_ifs with hm
    · rw [hm, hk']
      rfl
    · rfl

theorem clearTamer_eq_updList_id (hk : s.monsters m = some k) (hne : k.m_hTamer ≠ 0) (ct : Nat) :
    s.clearTamer m ct = (s.updList k.m_hTamer id).clearTamer m ct := by
  rw [clearTamer_eq hk hne, clearTamer_eq (s := s.updList k.m_hTamer id) hk hne]
  congr 1
  rw [updList, updPlayer, updPlayer, updPlayer]
  congr 1
  funext h
  dsimp only
  split_ifs
  · cases s.players h <;> rfl
  · rfl

/-- The tamer lives: he and the monster are cleared, and of his cards one is erased or becomes a summon, or none
changes. -/
theorem procTame_spec (hk : s.monsters m = some k) (hne : k.m_hTamer ≠ 0)
    (ht : s.players k.m_hTamer = some t) (hlive : t.nHealth ≠ 0) (dist : ℚ) (rnd : Int) (ct : Nat) :
    ∃ b l', (s.procTame m k t dist rnd ct).1 = b ∧
      (∀ h, (s.procTame m k t dist rnd ct).2.players h =
        if h = k.m_hTamer then some ((t.setList l').setTarget 0) else s.players h) ∧
      (∀ h, (s.procTame m k t dist rnd ct).2.monsters h =
        if h = m then some (k.setTamer 0 0 ct) else s.monsters h) ∧
      (s.procTame m k t dist rnd ct).2.nextHandle = s.nextHandle ∧
      (b = false ∧ l' = t.m_vList ∧ (500 < dist ∨ k.tameItemCode = 0 ∨
          findItem t.m_vList k.tameItemCode Card.ITEM_FLAG_TAMING true = none ∨ t.skill = none) ∨
        ∃ i c sk, t.m_vList[i]? = some c ∧ c.isTaming = true ∧ t.skill = some sk ∧ dist ≤ 500 ∧
          (b = false ∧ fTameProbability k sk < rnd ∧ l' = eraseCard t.m_vList i 1 ∨
            b = true ∧ ¬fTameProbability k sk < rnd ∧ l' = t.m_vList.modify i Card.setSummon)) := by
  have hclear := updList_clearTamer hk hne ht ct
  have hstay := clearTamer_eq_updList_id hk hne ct
  unfold procTame tameEnd
  rw [if_neg hlive]
  split_ifs with hfar
  · obtain ⟨hplayers, hmonsters, hnext⟩ := hclear id
    rw [← hstay] at hplayers hmonsters hnext
    refine ⟨_, _, rfl, hplayers, hmonsters, hnext, .inl ⟨rfl, rfl, ?_⟩⟩
    exact hfar.imp_right .inl
  · obtain ⟨hnear, hcode⟩ := not_or.mp hfar
    cases hfind : findItem t.m_vList k.tameItemCode Card.ITEM_FLAG_TAMING true with
    | none =>
      obtain ⟨hplayers, hmonsters, hnext⟩ := hclear id
      rw [← hstay] at hplayers hmonsters hnext
      exact ⟨_, _, rfl, hplayers, hmonsters, hnext, .inl ⟨rfl, rfl, .inr (.inr (.inl rfl))⟩⟩
    | some i =>
      obtain ⟨c, hc, -, htaming⟩ := findItem_eq_some hfind
      cases hskill : t.skill with
      | none =>
        obtain ⟨hplayers, hmonsters, hnext⟩ := hclear id
        rw [← hstay] at hplayers hmonsters hnext
        exact ⟨_, _, rfl, hplayers, hmonsters, hnext, .inl ⟨rfl, rfl, .inr (.inr (.inr rfl))⟩⟩
      | some sk =>
        dsimp only
        split_ifs with hprob
        · obtain ⟨hplayers, hmonsters, hnext⟩ := hclear (eraseCard · i 1)
          exact ⟨_, _, rfl, hplayers, hmonsters, hnext, .inr ⟨i, c, sk, hc, htaming, rfl, not_lt.mp hnear,
            .inl ⟨rfl, hprob, rfl⟩⟩⟩
        · obtain ⟨hplayers, hmonsters, hnext⟩ := hclear (·.modify i Card.setSummon)
          exact ⟨_, _, rfl, hplayers, hmonsters, hnext, .inr ⟨i, c, sk, hc, htaming, rfl, not_lt.mp hnear,
            .inr ⟨rfl, hprob, rfl⟩⟩⟩

/-! ## Hits -/

theorem updMonster_updMonster (s : TamingWorld) (m : Handle) (f g : TameMonster → TameMonster) :
    (s.updMonster m f).updMonster m g = s.updMonster m fun k => g (f k) := by
  rw [updMonster, updMonster, updMonster]
  congr 1
  funext h
  dsimp only
  split_ifs
  · cases s.monsters h <;> rfl
  · rfl

/-- A hit that kills: what `onDead` starts from. -/
theorem hit_cases {pFrom : Attacker} {nDamage ct : Nat} {dist : ℚ} {rnd : Int} {b : Bool}
    (hs : s.hit m pFrom nDamage dist rnd ct = some (b, s')) :
    ∃ k body, s.monsters m = some k ∧ k.toMonster.dealDamage pFrom nDamage ct = some body ∧
      ((k.nHealth = 0 ∨ body.nHealth ≠ 0) ∧ b = false ∧ s' = s.updMonster m (·.setBody body) ∨
        k.nHealth ≠ 0 ∧ body.nHealth = 0 ∧
          (s.updMonster m fun _ => (k.setBody body).die).onDead m (k.setBody body).die dist rnd ct = (b, s')) := by
  obtain ⟨k, hk, hs⟩ := Option.bind_eq_some_iff.mp hs
  obtain ⟨body, hbody, hs⟩ := Option.map_eq_some_iff.mp hs
  refine ⟨k, body, hk, hbody, ?_⟩
  split_ifs at hs with hdies
  · exact .inr ⟨hdies.1, hdies.2, hs⟩
  · left
    rw [not_and_or, ne_eq, not_not] at hdies
    cases hs
    exact ⟨hdies, rfl, rfl⟩

theorem onDead_wild {dist : ℚ} {rnd : Int} {ct : Nat} (hzero : k.m_hTamer = 0) :
    s.onDead m k dist rnd ct = (false, s.updMonster m (·.setTamedSuccess false)) := if_pos hzero

theorem onDead_tamer {dist : ℚ} {rnd : Int} {ct : Nat} (hne : k.m_hTamer ≠ 0) (ht : s.players k.m_hTamer = some t) :
    s.onDead m k dist rnd ct = ((s.procTame m k t dist rnd ct).1,
      (s.procTame m k t dist rnd ct).2.updMonster m (·.setTamedSuccess (s.procTame m k t dist rnd ct).1)) := by
  rw [onDead, if_neg hne, ht]

/-- Of the marked cards of the tamer none is left: one is erased, or becomes a summon. -/
theorem EndsWell.marks_eq_nil {dist : ℚ} {rnd : Int} {b : Bool} {l' : List Card} (hwell : EndsWell k t dist rnd)
    (hcode : k.tameItemCode ≠ 0) (hmarks : marks t.m_vList = [k.tameItemCode])
    (hend : b = false ∧ l' = t.m_vList ∧ (500 < dist ∨ k.tameItemCode = 0 ∨
        findItem t.m_vList k.tameItemCode Card.ITEM_FLAG_TAMING true = none ∨ t.skill = none) ∨
      ∃ i c sk, t.m_vList[i]? = some c ∧ c.isTaming = true ∧ t.skill = some sk ∧ dist ≤ 500 ∧
        (b = false ∧ fTameProbability k sk < rnd ∧ l' = eraseCard t.m_vList i 1 ∨
          b = true ∧ ¬fTameProbability k sk < rnd ∧ l' = t.m_vList.modify i Card.setSummon)) : marks l' = [] := by
  obtain ⟨hlive, hnear, sk, hsk, hcount⟩ := hwell
  obtain ⟨-, -, hbad⟩ | ⟨i, c, sk', hc, htaming, hsk', -, hend⟩ := hend
  · obtain hfar | hzero | hlost | hnone := hbad
    · exact absurd hnear (not_le.mpr hfar)
    · exact absurd hzero hcode
    · have hfound := findItem_isSome_of_marks hmarks
      rw [hlost] at hfound
      cases hfound
    · rw [hnone] at hsk
      cases hsk
  · cases hsk'.symm.trans hsk
    obtain ⟨-, hprob, rfl⟩ | ⟨-, -, rfl⟩ := hend
    · have hone := hcount hprob c (List.mem_of_getElem? hc) htaming
      rw [eraseCard_of_le hc hone]
      exact marks_swapRemove_eq_nil hc hmarks htaming
    · rw [modify_of_getElem? hc]
      exact marks_eq_nil_of_set hc hmarks htaming (Card.not_isTaming_setSummon c)

/-- A monster that dies is cleared together with its tamer. -/
theorem Follows.cleared (hok : TamingOk s') (hk : s.monsters m = some k)
    (hplayers : ∀ h, s'.players h = if h = k.m_hTamer then some t' else s.players h)
    (hmonsters : ∀ h, s'.monsters h = if h = m then some k' else s.monsters h) (hnext : s'.nextHandle = s.nextHandle)
    (hpair : t'.m_hTamingTarget = 0 ∧ k'.m_hTamer = 0 ∧ marks t'.m_vList = []) (hdead : k'.nHealth = 0) : Follows s s' where
  ok := hok
  attempts := by
    rintro q n ⟨hq, k2, hk2, htamer2, hhealth2⟩
    by_cases hn : n = m
    · subst hn
      cases hk.symm.trans hk2
      right
      constructor
      · intro k3 hk3
        rw [hmonsters, if_pos rfl] at hk3
        cases hk3
        exact hpair.2.1
      · intro t3 ht3
        rw [hplayers, if_pos htamer2.symm] at ht3
        cases ht3
        exact hpair.1
      · intro t3 ht3
        rw [hplayers, if_pos htamer2.symm] at ht3
        cases ht3
        rw [tamingCards, ← length_marks]
        exact congrArg List.length hpair.2.2
    · left
      refine ⟨?_, k2, by rw [hmonsters, if_neg hn, hk2], htamer2, hhealth2⟩
      rw [hplayers]
      split_ifs
      · rfl
      · exact hq
  dead n k2 hk2 hne2 := by
    rw [hmonsters] at hk2
    split_ifs at hk2
    · cases hk2
      exact absurd hdead hne2
    · exact .inr ⟨k2, hk2, hne2⟩
  next := hnext.ge

/-- The monster dies and the taming is to end well: all that is left of it is cleared. -/
theorem TamingOk.die (hs : TamingOk s) {pFrom : Attacker} {nDamage ct : Nat} {dist : ℚ} {rnd : Int} {b : Bool}
    {body : Monster} (hk : s.monsters m = some k) (hbody : k.toMonster.dealDamage pFrom nDamage ct = some body)
    (hdead : body.nHealth = 0) (hne : k.m_hTamer ≠ 0) (ht : s.players k.m_hTamer = some t)
    (hwell : EndsWell k t dist rnd)
    (hd : (s.updMonster m fun _ => (k.setBody body).die).onDead m (k.setBody body).die dist rnd ct = (b, s')) :
    Follows s s' := by
  obtain ⟨-, hcode, t2, ht2, htarget, hmarks⟩ := hs.tamer m k hk hne
  cases ht.symm.trans ht2
  have htamer : (k.setBody body).die.m_hTamer = k.m_hTamer := (Monster.dealDamage_spec hbody).1
  have hne' : (k.setBody body).die.m_hTamer ≠ 0 := htamer ▸ hne
  have hk' : (s.updMonster m fun _ => (k.setBody body).die).monsters m = some (k.setBody body).die :=
    updMonster_self _ hk
  have ht' : (s.updMonster m fun _ => (k.setBody body).die).players (k.setBody body).die.m_hTamer = some t :=
    htamer ▸ ht
  rw [onDead_tamer hne' ht'] at hd
  obtain ⟨b', l', hb, hplayers, hmonsters, hnext, hend⟩ := procTame_spec hk' hne' ht' hwell.1 dist rnd ct
  cases hd
  have hnil : marks l' = [] := hwell.marks_eq_nil hcode hmarks hend
  have hplayers' : ∀ h, ((procTame (s.updMonster m fun _ => (k.setBody body).die) m (k.setBody body).die t dist rnd
      ct).2.updMonster m (·.setTamedSuccess b')).players h =
        if h = k.m_hTamer then some ((t.setList l').setTarget 0) else s.players h := by
    intro h
    rw [updMonster_players, hplayers, htamer, updMonster_players]
  have hmonsters' : ∀ h, ((procTame (s.updMonster m fun _ => (k.setBody body).die) m (k.setBody body).die t dist rnd
      ct).2.updMonster m (·.setTamedSuccess b')).monsters h =
        if h = m then some (((k.setBody body).die.setTamer 0 0 ct).setTamedSuccess b') else s.monsters h := by
    intro h
    rw [updMonster_monsters, hmonsters, updMonster_monsters]
    split_ifs <;> rfl
  rw [hb]
  have hok := hs.exchange ht hk (.inr ⟨htarget, rfl⟩) hplayers' hmonsters' hnext (.inr ⟨rfl, rfl, hnil⟩) (fun _ => hdead)
    (hs.maxHealth m k hk)
  exact .cleared hok hk hplayers' hmonsters' hnext ⟨rfl, rfl, hnil⟩ hdead

theorem TamingOk.hit (hs : TamingOk s) {pFrom : Attacker} {nDamage ct : Nat} {dist : ℚ} {rnd : Int} {b : Bool}
    (he : ∀ k ∈ s.monsters m, k.m_hTamer ≠ 0 → k.nHealth ≤ nDamage → ∀ t ∈ s.players k.m_hTamer, EndsWell k t dist rnd)
    (hstep : s.hit m pFrom nDamage dist rnd ct = some (b, s')) :
    Follows s s' := by
  obtain ⟨k, body, hk, hbody, ⟨hlive, -, rfl⟩ | ⟨hlive, hdead, hd⟩⟩ := hit_cases hstep
  · obtain ⟨htamer, hkill⟩ := Monster.dealDamage_spec hbody
    refine hs.updMonster fun k2 hk2 => ?_
    cases hk.symm.trans hk2
    refine ⟨htamer, rfl, rfl, fun hne => ?_, fun hstatus => ?_, fun hzero => ?_⟩
    · exact hlive.resolve_left (hs.tamer m k hk hne).1
    · exact hkill.mpr ((hs.dead m k hk hstatus).le.trans (Int.natCast_nonneg nDamage))
    · exact hkill.mpr (hzero.le.trans (Int.natCast_nonneg nDamage))
  · obtain ⟨htamer, hkill⟩ := Monster.dealDamage_spec hbody
    by_cases hne : k.m_hTamer = 0
    · have hwild : (k.setBody body).die.m_hTamer = 0 := htamer.trans hne
      rw [onDead_wild hwild, updMonster_updMonster] at hd
      cases hd
      refine hs.updMonster fun k2 hk2 => ?_
      cases hk.symm.trans hk2
      exact ⟨htamer, rfl, rfl, fun hne' => absurd hne hne', fun _ => hdead, fun _ => hdead⟩
    · obtain ⟨-, -, t, ht, -⟩ := hs.tamer m k hk hne
      exact hs.die hk hbody hdead hne ht (he k hk hne (hkill.mp hdead) t ht) hd

end TamingWorld

end RZEmulator.Chihiro
