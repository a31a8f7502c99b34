import RZEmulator.Lib.MachineInt
import RZEmulator.Lib.RingBuffer
import RZEmulator.Lib.Run

/-!
# The energy of a unit

`AddEnergy` and `RemoveEnergy` of `Unit.cpp` on the fields of the unit, of which ten are a ring of the times at which energy has
been added. Times are ticks of 10 ms; a field keeps the 32 bits of a time. The maximum is set by the stats.
-/

namespace RZEmulator.Chihiro

open Lib

def UNIT_FIELD_ENERGY : Int := 0x32
def UNIT_FIELD_MAX_ENERGY : Int := 0x33
/-- of the size 10 -/
def UNIT_FIELD_ARRAY_ENERGY : Int := 0x34
def UNIT_FIELD_ENERGY_STARTING_POS : Int := 0x3E

structure EnergyUnit where
  fields : Int → Int
  clock : Nat

namespace EnergyUnit

def getInt32Value (u : EnergyUnit) (index : Int) : Int := u.fields index

def setInt32Value (u : EnergyUnit) (index value : Int) : EnergyUnit :=
  { u with fields := Function.update u.fields index value }

def getEnergy (u : EnergyUnit) : Int := u.getInt32Value UNIT_FIELD_ENERGY

def getMaxEnergy (u : EnergyUnit) : Int := u.getInt32Value UNIT_FIELD_MAX_ENERGY

def getStartingPos (u : EnergyUnit) : Int := u.getInt32Value UNIT_FIELD_ENERGY_STARTING_POS

/-- The field that `AddEnergy` writes the time to. -/
def nextField (u : EnergyUnit) : Int :=
  let tmp := u.getStartingPos + u.getEnergy
  UNIT_FIELD_ARRAY_ENERGY + if tmp ≥ 10 then tmp - 10 else tmp

/-- `AddEnergy` at the time `t`. -/
def addEnergy (u : EnergyUnit) (t : Nat) : EnergyUnit :=
  if u.getEnergy ≥ u.getMaxEnergy then u
  else
    let u := u.setInt32Value u.nextField (narrow32 t)
    u.setInt32Value UNIT_FIELD_ENERGY (u.getEnergy + 1)

/-- `RemoveEnergy` -/
def removeEnergy (u : EnergyUnit) (nEnergy : Int) : EnergyUnit :=
  let energy := if u.getEnergy < nEnergy then u.getEnergy else nEnergy
  if energy ≥ 1 then
    let u := u.setInt32Value UNIT_FIELD_ENERGY (u.getEnergy - energy)
    let u := u.setInt32Value UNIT_FIELD_ENERGY_STARTING_POS (u.getStartingPos + energy)
    if u.getStartingPos ≥ 10 then u.setInt32Value UNIT_FIELD_ENERGY_STARTING_POS (u.getStartingPos - 10) else u
  else u

/-- The times in the ring, read without a sign. -/
def ring (u : EnergyUnit) : RingBuffer Nat where
  cells i := (u.getInt32Value (UNIT_FIELD_ARRAY_ENERGY + i) % 2 ^ 32).toNat
  start := u.getStartingPos.toNat
  count := u.getEnergy.toNat

/-- The entries from the start on, as many as there is energy. -/
def entries (u : EnergyUnit) : List Nat := u.ring.contents 10

inductive EnergyEvent
  | addEnergy (t : Nat)
  | removeEnergy (nEnergy : Int) (t : Nat)
  | setMaxEnergy (n : Int)

/-- Time does not run backwards, and the stats give a maximum of at most ten. -/
def handle (u : EnergyUnit) : EnergyEvent → Option EnergyUnit
  | .addEnergy t => if u.clock ≤ t ∧ t < 2 ^ 32 then some { u.addEnergy t with clock := t } else none
  | .removeEnergy nEnergy t => if u.clock ≤ t ∧ t < 2 ^ 32 then some { u.removeEnergy nEnergy with clock := t } else none
  | .setMaxEnergy n => if 0 ≤ n ∧ n ≤ 10 then some (u.setInt32Value UNIT_FIELD_MAX_ENERGY n) else none

/-- A unit without energy. -/
structure New (u : EnergyUnit) : Prop where
  energy : u.getEnergy = 0
  start : u.getStartingPos = 0
  maxEnergy : 0 ≤ u.getMaxEnergy ∧ u.getMaxEnergy ≤ 10

def energySystem : System EnergyUnit EnergyEvent := .ofFun New handle

/-! ## What is claimed -/

/-- What an event does to the entries: a new one stands behind the others, unless the energy is at its maximum, and the oldest
ones are removed. -/
def EntriesRight (u : EnergyUnit) (u' : EnergyUnit) : EnergyEvent → Prop
  | .addEnergy t => u'.entries = if u.getEnergy < u.getMaxEnergy then u.entries ++ [t] else u.entries
  | .removeEnergy nEnergy _ => u'.entries = u.entries.drop nEnergy.toNat
  | .setMaxEnergy _ => u'.entries = u.entries

structure EnergyRight (hist : History EnergyUnit EnergyEvent) (u : EnergyUnit) : Prop where
  energy : 0 ≤ u.getEnergy ∧ u.getEnergy ≤ 10
  maxEnergy : (∀ tr ∈ hist, ∀ n, tr.event ≠ .setMaxEnergy n) → u.getEnergy ≤ u.getMaxEnergy
  start : 0 ≤ u.getStartingPos ∧ u.getStartingPos < 10
  next : UNIT_FIELD_ARRAY_ENERGY ≤ u.nextField ∧ u.nextField < UNIT_FIELD_ARRAY_ENERGY + 10
  count : (u.entries.length : Int) = u.getEnergy
  ordered : u.entries.Pairwise (· ≤ ·)
  steps : ∀ tr ∈ hist, EntriesRight tr.before tr.after tr.event

/-! ## The operations -/

section

variable {u : EnergyUnit} {t : Nat}

@[simp] theorem getInt32Value_setInt32Value (u : EnergyUnit) (i j v : Int) :
    (u.setInt32Value i v).getInt32Value j = if j = i then v else u.getInt32Value j := by
  by_cases h : j = i
  · subst h
    rw [if_pos rfl]
    exact Function.update_self ..
  · rw [if_neg h]
    exact Function.update_of_ne h ..

/-- What every step keeps. -/
structure EnergyOk (u : EnergyUnit) : Prop where
  energy : 0 ≤ u.getEnergy ∧ u.getEnergy ≤ 10
  maxEnergy : 0 ≤ u.getMaxEnergy ∧ u.getMaxEnergy ≤ 10
  start : 0 ≤ u.getStartingPos ∧ u.getStartingPos < 10
  ordered : u.entries.Pairwise (· ≤ ·)
  past : ∀ a ∈ u.entries, a ≤ u.clock

/-- The field that is written is the one behind the entries. -/
theorem EnergyOk.nextField_eq (hu : u.EnergyOk) :
    u.nextField = UNIT_FIELD_ARRAY_ENERGY + ((u.ring.start + u.ring.count) % 10 : Nat) := by
  obtain ⟨hs, hs'⟩ := hu.start
  obtain ⟨he, he'⟩ := hu.energy
  have hsum : ((u.ring.start + u.ring.count : Nat) : Int) = u.getStartingPos + u.getEnergy := by
    show ((u.getStartingPos.toNat + u.getEnergy.toNat : Nat) : Int) = _
    omega
  unfold nextField
  dsimp only
  rw [← hsum, ← wrapped_eq_mod (show u.ring.start + u.ring.count < 2 * 10 by omega)]
  split_ifs <;> omega

theorem uint32_narrow32 (ht : t < 2 ^ 32) : (narrow32 t % 2 ^ 32).toNat = t := by
  unfold narrow32
  omega

/-- Adding to the energy puts the time behind the entries. -/
theorem EnergyOk.addEnergy_of_lt (hu : u.EnergyOk) (ht : t < 2 ^ 32) (hlt : u.getEnergy < u.getMaxEnergy) :
    (u.addEnergy t).entries = u.entries ++ [t] ∧ (u.addEnergy t).getEnergy = u.getEnergy + 1 ∧
      (u.addEnergy t).getMaxEnergy = u.getMaxEnergy ∧ (u.addEnergy t).getStartingPos = u.getStartingPos := by
  have hnext := hu.nextField_eq
  set k := (u.ring.start + u.ring.count) % 10 with hk
  have hk10 : k < 10 := Nat.mod_lt _ (by decide)
  have hadd : u.addEnergy t = (u.setInt32Value u.nextField (narrow32 t)).setInt32Value UNIT_FIELD_ENERGY
      ((u.setInt32Value u.nextField (narrow32 t)).getEnergy + 1) := if_neg (not_le.mpr hlt)
  have henergy : (u.addEnergy t).getEnergy = u.getEnergy + 1 := by
    rw [hadd, hnext]
    simp [getEnergy, UNIT_FIELD_ENERGY, UNIT_FIELD_ARRAY_ENERGY]
    omega
  have hmax : (u.addEnergy t).getMaxEnergy = u.getMaxEnergy := by
    rw [hadd, hnext]
    simp [getMaxEnergy, UNIT_FIELD_ENERGY, UNIT_FIELD_MAX_ENERGY, UNIT_FIELD_ARRAY_ENERGY]
    omega
  have hstart : (u.addEnergy t).getStartingPos = u.getStartingPos := by
    rw [hadd, hnext]
    simp [getStartingPos, UNIT_FIELD_ENERGY, UNIT_FIELD_ENERGY_STARTING_POS, UNIT_FIELD_ARRAY_ENERGY]
    omega
  refine ⟨?_, henergy, hmax, hstart⟩
  have hcount : u.ring.count < 10 := by
    show u.getEnergy.toNat < 10
    have := hu.maxEnergy.2
    omega
  rw [entries, entries, ← RingBuffer.contents_push t hcount]
  refine RingBuffer.contents_congr (by decide) (fun i hi => ?_) (congrArg Int.toNat hstart) ?_
  · show ((u.addEnergy t).getInt32Value (UNIT_FIELD_ARRAY_ENERGY + i) % 2 ^ 32).toNat =
      Function.update u.ring.cells k t i
    rw [hadd, hnext, getInt32Value_setInt32Value, getInt32Value_setInt32Value,
      if_neg (by unfold UNIT_FIELD_ENERGY UNIT_FIELD_ARRAY_ENERGY; omega)]
    by_cases hik : i = k
    · rw [if_pos (by rw [hik]), hik, Function.update_self]
      exact uint32_narrow32 ht
    · rw [if_neg (by omega), Function.update_of_ne hik]
      rfl
  · show (u.addEnergy t).getEnergy.toNat = u.getEnergy.toNat + 1
    rw [henergy]
    have := hu.energy.1
    omega

/-- What the fields are after `k` of the energy is removed. -/
structure Spent (u u' : EnergyUnit) (k : Int) : Prop where
  energy : u'.getEnergy = u.getEnergy - k
  maxEnergy : u'.getMaxEnergy = u.getMaxEnergy
  start : u'.getStartingPos = if u.getStartingPos + k ≥ 10 then u.getStartingPos + k - 10 else u.getStartingPos + k
  cell : ∀ i : Nat, i < 10 → u'.getInt32Value (UNIT_FIELD_ARRAY_ENERGY + i) = u.getInt32Value (UNIT_FIELD_ARRAY_ENERGY + i)

theorem EnergyOk.removeEnergy_spent (hu : u.EnergyOk) (nEnergy : Int) :
    Spent u (u.removeEnergy nEnergy) (min u.getEnergy (max 0 nEnergy)) := by
  obtain ⟨hs, hs'⟩ := hu.start
  obtain ⟨he, he'⟩ := hu.energy
  set k := if u.getEnergy < nEnergy then u.getEnergy else nEnergy with hk
  have hremove : u.removeEnergy nEnergy = if k ≥ 1 then
      if u.getStartingPos + k ≥ 10 then
        ((u.setInt32Value UNIT_FIELD_ENERGY (u.getEnergy - k)).setInt32Value UNIT_FIELD_ENERGY_STARTING_POS
          (u.getStartingPos + k)).setInt32Value UNIT_FIELD_ENERGY_STARTING_POS (u.getStartingPos + k - 10)
      else (u.setInt32Value UNIT_FIELD_ENERGY (u.getEnergy - k)).setInt32Value UNIT_FIELD_ENERGY_STARTING_POS
        (u.getStartingPos + k)
      else u := rfl
  by_cases hpos : k ≥ 1
  · rw [if_pos hpos] at hremove
    have hmin : min u.getEnergy (max 0 nEnergy) = k := by omega
    rw [hmin]
    refine ⟨?_, ?_, ?_, fun i hi => ?_⟩
    · rw [hremove]
      split_ifs <;> simp [getEnergy, UNIT_FIELD_ENERGY, UNIT_FIELD_ENERGY_STARTING_POS]
    · rw [hremove]
      split_ifs <;> simp [getMaxEnergy, UNIT_FIELD_ENERGY, UNIT_FIELD_MAX_ENERGY, UNIT_FIELD_ENERGY_STARTING_POS]
    · rw [hremove]
      split_ifs <;> simp [getStartingPos]
    · have hne : UNIT_FIELD_ARRAY_ENERGY + (i : Int) ≠ UNIT_FIELD_ENERGY := by
        unfold UNIT_FIELD_ARRAY_ENERGY UNIT_FIELD_ENERGY
        omega
      have hne' : UNIT_FIELD_ARRAY_ENERGY + (i : Int) ≠ UNIT_FIELD_ENERGY_STARTING_POS := by
        unfold UNIT_FIELD_ARRAY_ENERGY UNIT_FIELD_ENERGY_STARTING_POS
        omega
      rw [hremove]
      split_ifs <;> simp only [getInt32Value_setInt32Value, if_neg hne, if_neg hne']
  · have hmin : min u.getEnergy (max 0 nEnergy) = 0 := by omega
    rw [hremove, if_neg hpos, hmin]
    refine ⟨(Int.sub_zero _).symm, rfl, ?_, fun _ _ => rfl⟩
    rw [Int.add_zero, if_neg (by omega)]

theorem Spent.entries {u' : EnergyUnit} {k : Int} (h : Spent u u' k) (hu : u.EnergyOk) (hk : 0 ≤ k ∧ k ≤ u.getEnergy) :
    u'.entries = u.entries.drop k.toNat := by
  obtain ⟨hs, hs'⟩ := hu.start
  obtain ⟨he, he'⟩ := hu.energy
  rw [EnergyUnit.entries, EnergyUnit.entries, ← RingBuffer.contents_drop]
  refine RingBuffer.contents_congr (by decide) (fun i hi => ?_) ?_ ?_
  · show (u'.getInt32Value (UNIT_FIELD_ARRAY_ENERGY + i) % 2 ^ 32).toNat = _
    rw [h.cell i hi]
    rfl
  · show u'.getStartingPos.toNat = (u.getStartingPos.toNat + k.toNat) % 10
    rw [h.start, ← wrapped_eq_mod (show u.getStartingPos.toNat + k.toNat < 2 * 10 by omega)]
    split_ifs <;> omega
  · show u'.getEnergy.toNat = u.getEnergy.toNat - k.toNat
    rw [h.energy]
    omega

/-- No more than all entries are removed. -/
theorem EnergyOk.drop_min (hu : u.EnergyOk) (nEnergy : Int) :
    u.entries.drop (min u.getEnergy (max 0 nEnergy)).toNat = u.entries.drop nEnergy.toNat := by
  have hlength : u.entries.length = u.getEnergy.toNat := RingBuffer.length_contents 10 u.ring
  have he := hu.energy.1
  by_cases hall : u.getEnergy < nEnergy
  · rw [List.drop_eq_nil_of_le (by omega), List.drop_eq_nil_of_le (by omega)]
  · have hmin : (min u.getEnergy (max 0 nEnergy)).toNat = nEnergy.toNat := by omega
    rw [hmin]

/-- Removing energy removes the oldest entries. -/
theorem EnergyOk.removeEnergy (hu : u.EnergyOk) (nEnergy : Int) :
    (u.removeEnergy nEnergy).entries = u.entries.drop nEnergy.toNat ∧
      (u.removeEnergy nEnergy).getEnergy = u.getEnergy - min u.getEnergy (max 0 nEnergy) ∧
      (u.removeEnergy nEnergy).getMaxEnergy = u.getMaxEnergy ∧
      0 ≤ (u.removeEnergy nEnergy).getStartingPos ∧ (u.removeEnergy nEnergy).getStartingPos < 10 := by
  have hspent := hu.removeEnergy_spent nEnergy
  have hs := hu.start
  have he := hu.energy
  refine ⟨?_, hspent.energy, hspent.maxEnergy, ?_, ?_⟩
  · rw [hspent.entries hu (by omega), hu.drop_min]
  · rw [hspent.start]
    split_ifs <;> omega
  · rw [hspent.start]
    split_ifs <;> omega

/-- The maximum is no part of the ring. -/
theorem setMaxEnergy_fields (u : EnergyUnit) (n : Int) :
    (u.setInt32Value UNIT_FIELD_MAX_ENERGY n).entries = u.entries ∧
      (u.setInt32Value UNIT_FIELD_MAX_ENERGY n).getEnergy = u.getEnergy ∧
      (u.setInt32Value UNIT_FIELD_MAX_ENERGY n).getMaxEnergy = n ∧
      (u.setInt32Value UNIT_FIELD_MAX_ENERGY n).getStartingPos = u.getStartingPos := by
  have henergy : (u.setInt32Value UNIT_FIELD_MAX_ENERGY n).getEnergy = u.getEnergy := by
    simp [getEnergy, UNIT_FIELD_ENERGY, UNIT_FIELD_MAX_ENERGY]
  have hstart : (u.setInt32Value UNIT_FIELD_MAX_ENERGY n).getStartingPos = u.getStartingPos := by
    simp [getStartingPos, UNIT_FIELD_ENERGY_STARTING_POS, UNIT_FIELD_MAX_ENERGY]
  refine ⟨?_, henergy, by simp [getMaxEnergy], hstart⟩
  refine RingBuffer.contents_congr (by decide) (fun i _ => ?_) (congrArg Int.toNat hstart) (congrArg Int.toNat henergy)
  show ((u.setInt32Value UNIT_FIELD_MAX_ENERGY n).getInt32Value (UNIT_FIELD_ARRAY_ENERGY + i) % 2 ^ 32).toNat = _
  rw [getInt32Value_setInt32Value, if_neg (by unfold UNIT_FIELD_ARRAY_ENERGY UNIT_FIELD_MAX_ENERGY; omega)]
  rfl

end

/-! ## Runs -/

section

variable {u : EnergyUnit} {t : Nat}

theorem EnergyOk.stepAdd (hu : u.EnergyOk) (ht : u.clock ≤ t ∧ t < 2 ^ 32) :
    ({ u.addEnergy t with clock := t } : EnergyUnit).EnergyOk ∧ EntriesRight u { u.addEnergy t with clock := t } (.addEnergy t) := by
  by_cases hlt : u.getEnergy < u.getMaxEnergy
  · obtain ⟨hentries, henergy, hmax, hstart⟩ := hu.addEnergy_of_lt ht.2 hlt
    have hentries' : ({ u.addEnergy t with clock := t } : EnergyUnit).entries = u.entries ++ [t] := hentries
    refine ⟨⟨?_, ?_, ?_, ?_, ?_⟩, ?_⟩
    · show 0 ≤ (u.addEnergy t).getEnergy ∧ (u.addEnergy t).getEnergy ≤ 10
      rw [henergy]
      have := hu.energy
      have := hu.maxEnergy
      omega
    · show 0 ≤ (u.addEnergy t).getMaxEnergy ∧ (u.addEnergy t).getMaxEnergy ≤ 10
      rw [hmax]
      exact hu.maxEnergy
    · show 0 ≤ (u.addEnergy t).getStartingPos ∧ (u.addEnergy t).getStartingPos < 10
      rw [hstart]
      exact hu.start
    · rw [hentries', List.pairwise_append]
      refine ⟨hu.ordered, List.pairwise_singleton _ _, fun a ha b hb => ?_⟩
      obtain rfl := List.mem_singleton.mp hb
      exact (hu.past a ha).trans ht.1
    · rw [hentries']
      intro a ha
      rcases List.mem_append.mp ha with ha | ha
      · exact (hu.past a ha).trans ht.1
      · exact (List.mem_singleton.mp ha).le
    · exact hentries'.trans (if_pos hlt).symm
  · have hsame : u.addEnergy t = u := if_pos (not_lt.mp hlt)
    rw [hsame]
    exact ⟨⟨hu.energy, hu.maxEnergy, hu.start, hu.ordered, fun a ha => (hu.past a ha).trans ht.1⟩, (if_neg hlt).symm⟩

theorem EnergyOk.stepRemove (hu : u.EnergyOk) (ht : u.clock ≤ t) (nEnergy : Int) :
    ({ u.removeEnergy nEnergy with clock := t } : EnergyUnit).EnergyOk ∧
      EntriesRight u { u.removeEnergy nEnergy with clock := t } (.removeEnergy nEnergy t) := by
  obtain ⟨hentries, henergy, hmax, hstart⟩ := hu.removeEnergy nEnergy
  have hentries' : ({ u.removeEnergy nEnergy with clock := t } : EnergyUnit).entries = u.entries.drop nEnergy.toNat := hentries
  refine ⟨⟨?_, ?_, hstart, ?_, ?_⟩, hentries'⟩
  · show 0 ≤ (u.removeEnergy nEnergy).getEnergy ∧ (u.removeEnergy nEnergy).getEnergy ≤ 10
    rw [henergy]
    have := hu.energy
    omega
  · show 0 ≤ (u.removeEnergy nEnergy).getMaxEnergy ∧ (u.removeEnergy nEnergy).getMaxEnergy ≤ 10
    rw [hmax]
    exact hu.maxEnergy
  · rw [hentries']
    exact hu.ordered.sublist (List.drop_sublist _ _)
  · rw [hentries']
    exact fun a ha => (hu.past a (List.mem_of_mem_drop ha)).trans ht

theorem EnergyOk.stepMaxEnergy (hu : u.EnergyOk) {n : Int} (hn : 0 ≤ n ∧ n ≤ 10) :
    (u.setInt32Value UNIT_FIELD_MAX_ENERGY n).EnergyOk ∧
      EntriesRight u (u.setInt32Value UNIT_FIELD_MAX_ENERGY n) (.setMaxEnergy n) := by
  obtain ⟨hentries, henergy, hmax, hstart⟩ := setMaxEnergy_fields u n
  refine ⟨⟨by rw [henergy]; exact hu.energy, by rw [hmax]; exact hn, by rw [hstart]; exact hu.start, ?_, ?_⟩, hentries⟩
  · rw [hentries]
    exact hu.ordered
  · rw [hentries]
    exact hu.past

end

/-- **Step**: the ring stays in order, and the event does to the entries what it should. -/
theorem EnergyOk.step {u u' : EnergyUnit} {e : EnergyEvent} (hu : u.EnergyOk) (hs : u.handle e = some u') :
    u'.EnergyOk ∧ EntriesRight u u' e := by
  cases e with
  | addEnergy t =>
    rw [handle] at hs
    split_ifs at hs with ht
    obtain rfl := Option.some.inj hs
    exact hu.stepAdd ht
  | removeEnergy nEnergy t =>
    rw [handle] at hs
    split_ifs at hs with ht
    obtain rfl := Option.some.inj hs
    exact hu.stepRemove ht.1 nEnergy
  | setMaxEnergy n =>
    rw [handle] at hs
    split_ifs at hs with hn
    obtain rfl := Option.some.inj hs
    exact hu.stepMaxEnergy hn

/-- As long as the maximum is not changed, the energy stays below it. -/
theorem energy_le_step {u u' : EnergyUnit} {e : EnergyEvent} (hu : u.EnergyOk) (hle : u.getEnergy ≤ u.getMaxEnergy)
    (he : ∀ n, e ≠ .setMaxEnergy n) (hs : u.handle e = some u') : u'.getEnergy ≤ u'.getMaxEnergy := by
  cases e with
  | addEnergy t =>
    rw [handle] at hs
    split_ifs at hs with ht
    obtain rfl := Option.some.inj hs
    show (u.addEnergy t).getEnergy ≤ (u.addEnergy t).getMaxEnergy
    by_cases hlt : u.getEnergy < u.getMaxEnergy
    · obtain ⟨-, henergy, hmax, -⟩ := hu.addEnergy_of_lt ht.2 hlt
      rw [henergy, hmax]
      exact hlt
    · have hsame : u.addEnergy t = u := if_pos (not_lt.mp hlt)
      rw [hsame]
      exact hle
  | removeEnergy nEnergy t =>
    rw [handle] at hs
    split_ifs at hs with ht
    obtain rfl := Option.some.inj hs
    show (u.removeEnergy nEnergy).getEnergy ≤ (u.removeEnergy nEnergy).getMaxEnergy
    obtain ⟨-, henergy, hmax, -⟩ := hu.removeEnergy nEnergy
    rw [henergy, hmax]
    have := hu.energy
    omega
  | setMaxEnergy n => exact absurd rfl (he n)

theorem EnergyOk.of_new {u : EnergyUnit} (h : u.New) : u.EnergyOk := by
  have hnil : u.entries = [] := by
    have hlength : u.entries.length = u.getEnergy.toNat := RingBuffer.length_contents 10 u.ring
    rw [h.energy] at hlength
    exact List.length_eq_zero_iff.mp hlength
  refine ⟨by rw [h.energy]; decide, h.maxEnergy, by rw [h.start]; decide, ?_, ?_⟩
  · rw [hnil]
    exact List.Pairwise.nil
  · rw [hnil]
    exact nofun

/-- **The energy ring.** In every state of every run the entries are the times of the energy that is left, the oldest first;
energy is added behind them and removed in front. The energy exceeds its maximum only where the stats have lowered that. -/
theorem energyRight {hist : History EnergyUnit EnergyEvent} {u : EnergyUnit} (hrun : energySystem.Run hist u) :
    EnergyRight hist u := by
  suffices hinv : u.EnergyOk ∧ (∀ tr ∈ hist, EntriesRight tr.before tr.after tr.event) ∧
      ((∀ tr ∈ hist, ∀ n, tr.event ≠ .setMaxEnergy n) → u.getEnergy ≤ u.getMaxEnergy) by
    obtain ⟨hu, hsteps, hmax⟩ := hinv
    have hcount : (u.entries.length : Int) = u.getEnergy := by
      rw [entries, RingBuffer.length_contents]
      exact Int.toNat_of_nonneg hu.energy.1
    have hnext : UNIT_FIELD_ARRAY_ENERGY ≤ u.nextField ∧ u.nextField < UNIT_FIELD_ARRAY_ENERGY + 10 := by
      rw [hu.nextField_eq]
      omega
    exact ⟨hu.energy, hmax, hu.start, hnext, hcount, hu.ordered, hsteps⟩
  refine hrun.invariant (I := fun hist u => u.EnergyOk ∧ (∀ tr ∈ hist, EntriesRight tr.before tr.after tr.event) ∧
    ((∀ tr ∈ hist, ∀ n, tr.event ≠ .setMaxEnergy n) → u.getEnergy ≤ u.getMaxEnergy)) ?_ ?_
  · intro u hu
    refine ⟨.of_new hu, nofun, fun _ => ?_⟩
    rw [hu.energy]
    exact hu.maxEnergy.1
  · rintro h u e u' - ⟨hu, hsteps, hmax⟩ - hs
    obtain ⟨hu', hright⟩ := hu.step hs
    refine ⟨hu', fun tr htr => ?_, fun hall => ?_⟩
    · rcases List.mem_cons.mp htr with rfl | htr
      · exact hright
      · exact hsteps tr htr
    · exact energy_le_step hu (hmax fun tr htr => hall tr (List.mem_cons_of_mem _ htr)) (hall _ List.mem_cons_self) hs

/-- A unit with a maximum of five. -/
def energyUnit : EnergyUnit where
  fields i := if i = UNIT_FIELD_MAX_ENERGY then 5 else 0
  clock := 0

theorem energyRight_one : EnergyRight [⟨energyUnit, .addEnergy 7, { energyUnit.addEnergy 7 with clock := 7 }⟩]
    { energyUnit.addEnergy 7 with clock := 7 } :=
  energyRight (.step (.init ⟨rfl, rfl, by decide, by decide⟩) trivial rfl)

end EnergyUnit

end RZEmulator.Chihiro
