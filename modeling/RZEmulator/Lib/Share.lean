import Mathlib.Algebra.BigOperators.Ring.Finset
import Mathlib.Algebra.Order.BigOperators.Group.Finset
import Mathlib.Tactic.Linarith
import Mathlib.Tactic.Ring
import RZEmulator.Lib.MachineInt

/-!
# Equal shares of an amount

`equalShare n k` is what each of `k` accounts gets of the amount `n`, a quotient of unsigned numbers. `credit` adds a
share to the accounts on a list, one after the other, and passes over an account that it would bring out of its range.
Between the two a part of the amount can be lost; `sum_credit_iff` says when none is.
-/

namespace RZEmulator.Lib

/-- The conversion to a signed 64-bit integer: the low 64 bits, read as signed. -/
def narrow64 (n : Int) : Int := (n + 2 ^ 63) % 2 ^ 64 - 2 ^ 63

/-- The quotient in unsigned 64-bit numbers; where there is nobody, the whole amount. -/
def equalShare (n : Int) (k : Nat) : Int := narrow64 (n % 2 ^ 64 / if k = 0 then 1 else k)

variable {ι : Type*} [DecidableEq ι]

/-- Each account on the list gets `s` more, if that leaves it between zero and `max`. -/
def credit (max s : Int) : List ι → (ι → Int) → ι → Int
  | [], g => g
  | i :: l, g => credit max s l (if 0 ≤ g i + s ∧ g i + s ≤ max then Function.update g i (g i + s) else g)

/-- The amount can be shared out in full: it divides, and every account has room for all its shares. -/
structure Divides (max n : Int) (l : List ι) (g : ι → Int) : Prop where
  nonempty : l ≠ []
  whole : (l.length : Int) ∣ n
  nonneg : 0 ≤ n ∨ l.length = 1
  room : ∀ i ∈ l, 0 ≤ g i + n / l.length * l.count i ∧ g i + n / l.length * l.count i ≤ max

variable {max s n : Int} {k : Nat} {l : List ι} {g : ι → Int} {i j : ι}

/-! ## Shares -/

theorem equalShare_one (hn : IsInt64 n) : equalShare n 1 = n := by
  unfold equalShare narrow64
  unfold IsInt64 at hn
  rw [if_neg one_ne_zero, Nat.cast_one, Int.ediv_one]
  omega

theorem equalShare_eq (hn : IsInt64 n) (hnonneg : 0 ≤ n) (hk : k ≠ 0) : equalShare n k = n / k := by
  have hle : n / (k : Int) ≤ n := Int.ediv_le_self _ hnonneg
  have hge : 0 ≤ n / (k : Int) := Int.ediv_nonneg hnonneg (Int.natCast_nonneg k)
  unfold IsInt64 at hn
  unfold equalShare narrow64
  rw [if_neg hk, Int.emod_eq_of_lt hnonneg (by omega), Int.emod_eq_of_lt (by omega) (by omega)]
  omega

@[simp] theorem equalShare_zero (k : Nat) : equalShare 0 k = 0 := by
  unfold equalShare narrow64
  norm_num

/-- A negative amount is a large one to the division. -/
theorem equalShare_nonneg (n : Int) (hk : 2 ≤ k) : 0 ≤ equalShare n k := by
  have hlt : n % 2 ^ 64 / (k : Int) < 2 ^ 63 := by
    refine Int.ediv_lt_of_lt_mul (by omega) ?_
    have hmod := Int.emod_lt_of_pos n (show (0 : Int) < 2 ^ 64 by decide)
    have hk' : (2 : Int) ≤ k := by exact_mod_cast hk
    linarith [mul_le_mul_of_nonneg_left hk' (show (0 : Int) ≤ 2 ^ 63 by decide)]
  have hge : 0 ≤ n % 2 ^ 64 / (k : Int) := Int.ediv_nonneg (by omega) (Int.natCast_nonneg k)
  unfold equalShare narrow64
  rw [if_neg (by omega), Int.emod_eq_of_lt (by omega) (by omega)]
  omega

theorem Divides.share (hd : Divides max n l g) (hn : IsInt64 n) : equalShare n l.length = n / l.length := by
  rcases hd.nonneg with hnonneg | hone
  · exact equalShare_eq hn hnonneg fun h => hd.nonempty (List.eq_nil_of_length_eq_zero h)
  · rw [hone, equalShare_one hn, Nat.cast_one, Int.ediv_one]

/-! ## The accounts -/

/-- An account gets some of the shares that fall to it. -/
theorem exists_taken (max s : Int) (l : List ι) (g : ι → Int) :
    ∃ taken : ι → Nat, (∀ i, taken i ≤ l.count i) ∧ ∀ i, credit max s l g i = g i + s * taken i := by
  induction l generalizing g with
  | nil =>
    refine ⟨fun _ => 0, fun _ => le_rfl, fun i => ?_⟩
    rw [Nat.cast_zero, mul_zero, add_zero]
    rfl
  | cons i l ih =>
    obtain ⟨taken, hle, heq⟩ := ih (if 0 ≤ g i + s ∧ g i + s ≤ max then Function.update g i (g i + s) else g)
    by_cases hroom : 0 ≤ g i + s ∧ g i + s ≤ max
    · refine ⟨fun j => taken j + if i = j then 1 else 0, fun j => ?_, fun j => ?_⟩
      · rw [List.count_cons]
        simpa using hle j
      · rw [credit, heq, if_pos hroom, Function.update_apply]
        dsimp only
        by_cases hj : i = j
        · subst hj
          rw [if_pos rfl, if_pos rfl]
          push_cast
          ring
        · rw [if_neg (Ne.symm hj), if_neg hj, add_zero]
    · refine ⟨taken, fun j => (hle j).trans ?_, fun j => ?_⟩
      · rw [List.count_cons]
        exact Nat.le_add_right _ _
      · rw [credit, heq, if_neg hroom]

theorem credit_range (max s : Int) (l : List ι) (g : ι → Int) (hg : 0 ≤ g j ∧ g j ≤ max) :
    0 ≤ credit max s l g j ∧ credit max s l g j ≤ max := by
  induction l generalizing g with
  | nil => exact hg
  | cons i l ih =>
    refine ih _ ?_
    split_ifs with hroom
    · rw [Function.update_apply]
      split_ifs with hj
      · exact hroom
      · exact hg
    · exact hg

/-- Where there is room for all shares, every account gets all of its own. -/
theorem credit_of_room (hg : ∀ i ∈ l, 0 ≤ g i ∧ g i ≤ max)
    (hroom : ∀ i ∈ l, 0 ≤ g i + s * l.count i ∧ g i + s * l.count i ≤ max) (j : ι) :
    credit max s l g j = g j + s * l.count j := by
  induction l generalizing g with
  | nil => simp [credit]
  | cons i l ih =>
    have hcount : ∀ j, s * ((i :: l).count j : Int) = (if i = j then s else 0) + s * l.count j := by
      intro j
      rw [List.count_cons]
      split_ifs with hbeq hj hj
      · push_cast
        ring
      · exact absurd (beq_iff_eq.mp hbeq) hj
      · exact absurd (beq_iff_eq.mpr hj) hbeq
      · rw [add_zero, zero_add]
    -- one share leads to an amount between the first and the last
    have hfirst : 0 ≤ g i + s ∧ g i + s ≤ max := by
      obtain ⟨hlow, hhigh⟩ := hroom i List.mem_cons_self
      obtain ⟨hlow', hhigh'⟩ := hg i List.mem_cons_self
      rw [hcount, if_pos rfl] at hlow hhigh
      have hrest : (0 : Int) ≤ l.count i := Int.natCast_nonneg _
      rcases le_total 0 s with hs | hs
      · have := mul_nonneg hs hrest
        constructor <;> linarith
      · have := mul_nonpos_of_nonpos_of_nonneg hs hrest
        constructor <;> linarith
    have hupdate : ∀ j, Function.update g i (g i + s) j = g j + if i = j then s else 0 := by
      intro j
      rw [Function.update_apply]
      by_cases hj : j = i
      · rw [if_pos hj, if_pos hj.symm, hj]
      · rw [if_neg hj, if_neg (Ne.symm hj), add_zero]
    rw [credit, if_pos hfirst, ih, hupdate, hcount]
    · ring
    · intro j hj
      rw [hupdate]
      split_ifs with hij
      · rw [← hij]
        exact hfirst
      · rw [add_zero]
        exact hg j (List.mem_cons_of_mem i hj)
    · intro j hj
      have hall := hroom j (List.mem_cons_of_mem i hj)
      rw [hcount, ← add_assoc] at hall
      rw [hupdate]
      exact hall

/-! ## The sum -/

theorem sum_count (l : List ι) : ∑ i ∈ l.toFinset, (l.count i : Int) = l.length := by
  rw [← Nat.cast_sum, List.sum_toFinset_count_eq_length]

/-- All shares but those that are refused arrive. -/
theorem sum_credit (max s : Int) (l : List ι) (g : ι → Int) : ∃ taken : ι → Nat, (∀ i, taken i ≤ l.count i) ∧
    (∀ i, credit max s l g i = g i + s * taken i) ∧
    ∑ i ∈ l.toFinset, credit max s l g i = ∑ i ∈ l.toFinset, g i + s * ∑ i ∈ l.toFinset, (taken i : Int) := by
  obtain ⟨taken, hle, heq⟩ := exists_taken max s l g
  refine ⟨taken, hle, heq, ?_⟩
  rw [Finset.sum_congr rfl fun i _ => heq i, Finset.sum_add_distrib, Finset.mul_sum]

/-- If the shares that arrive come to the whole amount, it divides and no share was refused. -/
theorem all_taken {t : Int} (hn : IsInt64 n) (hne : n ≠ 0) (ht : 0 ≤ t) (hle : t ≤ k)
    (heq : equalShare n k * t = n) : k ≠ 0 ∧ (k : Int) ∣ n ∧ (0 ≤ n ∨ k = 1) ∧ t = k := by
  have hk : k ≠ 0 := by
    rintro rfl
    have hzero : t = 0 := by omega
    rw [hzero, mul_zero] at heq
    exact hne heq.symm
  rcases lt_or_ge n 0 with hneg | hnonneg
  · -- a share of more than one is not negative
    have hone : k = 1 := by
      by_contra hk1
      have := mul_nonneg (equalShare_nonneg n (show 2 ≤ k by omega)) ht
      omega
    subst hone
    have : t = 1 := by
      rw [equalShare_one hn] at heq
      exact mul_left_cancel₀ hne (heq.trans (mul_one n).symm)
    exact ⟨hk, by simp, .inr rfl, by simpa using this⟩
  · rw [equalShare_eq hn hnonneg hk] at heq
    have hkpos : (0 : Int) < k := by omega
    have hdiv := Int.mul_ediv_add_emod n k
    have hrem := Int.emod_nonneg n hkpos.ne'
    have hq : 0 < n / (k : Int) := by
      refine lt_of_le_of_ne (Int.ediv_nonneg hnonneg hkpos.le) fun h => hne ?_
      rw [← h, zero_mul] at heq
      exact heq.symm
    have hfull : t = k := by
      by_contra hlt
      have : n / (k : Int) * t < n / (k : Int) * k := mul_lt_mul_of_pos_left (by omega) hq
      linarith [mul_comm (k : Int) (n / k)]
    refine ⟨hk, ⟨n / k, ?_⟩, .inl hnonneg, hfull⟩
    rw [hfull] at heq
    exact heq.symm.trans (mul_comm _ _)

/-- **Nothing is lost** in sharing an amount out if and only if it is zero or can be shared out in full. -/
theorem sum_credit_iff (hn : IsInt64 n) (hg : ∀ i ∈ l, 0 ≤ g i ∧ g i ≤ max) :
    ∑ i ∈ l.toFinset, credit max (equalShare n l.length) l g i = ∑ i ∈ l.toFinset, g i + n ↔
      n = 0 ∨ Divides max n l g := by
  obtain ⟨taken, hle, heq, hsum⟩ := sum_credit max (equalShare n l.length) l g
  rw [hsum, add_right_inj]
  have htaken : ∑ i ∈ l.toFinset, (taken i : Int) ≤ l.length := by
    rw [← sum_count l]
    exact Finset.sum_le_sum fun i _ => by exact_mod_cast hle i
  constructor
  · intro htotal
    refine or_iff_not_imp_left.mpr fun hne => ?_
    obtain ⟨hk, hdvd, hsign, hfull⟩ :=
      all_taken hn hne (Finset.sum_nonneg fun i _ => Int.natCast_nonneg (taken i)) htaken htotal
    have hempty : l ≠ [] := fun h => hk (by rw [h]; rfl)
    have hshare : equalShare n l.length = n / l.length := by
      rcases hsign with hnonneg | hone
      · exact equalShare_eq hn hnonneg hk
      · rw [hone, equalShare_one hn, Nat.cast_one, Int.ediv_one]
    have hall : ∀ i ∈ l.toFinset, (taken i : Int) = l.count i := by
      rw [← Finset.sum_eq_sum_iff_of_le fun i _ => by exact_mod_cast hle i, sum_count]
      exact hfull
    refine ⟨hempty, hdvd, hsign, fun i hi => ?_⟩
    rw [← hshare, ← hall i (List.mem_toFinset.mpr hi), ← heq]
    exact credit_range max _ l g (hg i hi)
  · rintro (rfl | hd)
    · rw [equalShare_zero, zero_mul]
    · have hshare := hd.share hn
      have hroom := credit_of_room hg (s := n / l.length) hd.room
      have hn' : n / (l.length : Int) * l.length = n := Int.ediv_mul_cancel hd.whole
      rw [hshare] at heq ⊢
      have hmul : ∀ i ∈ l.toFinset, n / (l.length : Int) * taken i = n / (l.length : Int) * l.count i := by
        intro i _
        exact add_left_cancel ((heq i).symm.trans (hroom i))
      rw [Finset.mul_sum, Finset.sum_congr rfl hmul, ← Finset.mul_sum, sum_count, hn']

end RZEmulator.Lib
