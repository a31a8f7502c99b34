import RZEmulator.Chihiro.Item
import RZEmulator.Lib.MachineInt

/-!
# The damage list of a monster

`Monster::onDamage`, `addDamage` and `getDamageTag` of `Monster.cpp`, with the parts of the monster that they
read and write, and `Unit::damage` for what a hit takes from the health. `nTime` and `m_nTotalDamage` are
unsigned and wrap; a sum of signed integers that leaves its range has no result.
-/

namespace RZEmulator.Chihiro

open Lib

structure DamageTag where
  uid : Handle
  nTime : Nat
  nDamage : Int
  deriving DecidableEq

structure Monster where
  nHealth : Int
  m_vDamageList : List DamageTag := []
  m_nTotalDamage : Int := 0
  m_hFirstAttacker : Handle := 0
  m_nFirstAttackTime : Nat := 0
  m_hTamer : Handle := 0
  m_nTamedTime : Int := 0
  deriving DecidableEq

/-- `dt->nTime + 30000 < t`. -/
def DamageTag.expired (dt : DamageTag) (t : Nat) : Bool := (dt.nTime + 30000) % 2 ^ 32 < t

namespace Monster

/-- The loop of `getDamageTag` from index `i`; `n` bounds the number of rounds left. After `erase` the next
element is at `i`, and the loop goes on with `i + 1`. -/
def getDamageTagLoop (handle : Handle) (t : Nat) : Nat → Nat → Monster → Option Nat × Monster
  | 0, _, m => (none, m)
  | n + 1, i, m =>
    match m.m_vDamageList[i]? with
    | none => (none, m)
    | some dt =>
      if dt.uid = handle then
        (some i, if t ≠ 0 then { m with m_vDamageList := m.m_vDamageList.set i { dt with nTime := t } } else m)
      else if dt.expired t then
        getDamageTagLoop handle t n (i + 1) { m with
          m_nTotalDamage := wrap32 (m.m_nTotalDamage - dt.nDamage)
          m_vDamageList := m.m_vDamageList.eraseIdx i }
      else getDamageTagLoop handle t n (i + 1) m

/-- The tag is given by its index. -/
def getDamageTag (m : Monster) (handle : Handle) (t : Nat) : Option Nat × Monster :=
  if m.m_vDamageList = [] then (none, m) else getDamageTagLoop handle t m.m_vDamageList.length 0 m

/-- `tag->nDamage += nDamage`. -/
def addToTag (m : Monster) (i : Nat) (nDamage : Int) : Option Monster :=
  match m.m_vDamageList[i]? with
  | none => none
  | some tag => (add32 tag.nDamage nDamage).map fun sum =>
    { m with m_vDamageList := m.m_vDamageList.set i { tag with nDamage := sum } }

def addDamage (m : Monster) (handle : Handle) (nDamage : Int) (ct : Nat) : Option Monster :=
  match m.getDamageTag handle ct with
  | (none, m') =>
    addToTag { m' with
      m_vDamageList := m'.m_vDamageList ++ [⟨handle, ct, nDamage⟩]
      m_nTotalDamage := wrap32 (m'.m_nTotalDamage + nDamage) } m'.m_vDamageList.length nDamage
  | (some i, m') => addToTag { m' with m_nTotalDamage := wrap32 (m'.m_nTotalDamage + nDamage) } i nDamage

end Monster

/-- The unit that hits: its handle, and the player that it is or the master of the summon that it is. -/
structure Attacker where
  handle : Handle
  player : Option Handle
  deriving DecidableEq

namespace Monster

/-- The damage that `onDamage` goes on with: no more than the health. -/
def clipped (m : Monster) (nDamage : Int) : Int := if m.nHealth - nDamage ≤ 0 then m.nHealth else nDamage

def setFirstAttacker (m : Monster) (pFrom : Attacker) (ct : Nat) : Monster :=
  if m.m_hFirstAttacker = 0 then
    { m with m_hFirstAttacker := pFrom.player.getD 0, m_nFirstAttackTime := ct }
  else m

/-- `m_nTamedTime += (int32_t)(ct + 30000)` if the attacking player is the tamer. -/
def prolongTaming (m : Monster) (pFrom : Attacker) (ct : Nat) : Option Monster :=
  if pFrom.player = some m.m_hTamer then
    (add32 m.m_nTamedTime (narrow32 (ct + 30000))).map fun time => { m with m_nTamedTime := time }
  else some m

def onDamage (m : Monster) (pFrom : Attacker) (nDamage : Int) (ct : Nat) : Option (Int × Monster) :=
  let nDamage := m.clipped nDamage
  if nDamage = 0 then some (nDamage, m)
  else
    (addDamage (m.setFirstAttacker pFrom ct) pFrom.handle nDamage ct).bind fun m =>
      (m.prolongTaming pFrom ct).map fun m => (nDamage, m)

/-- `Unit::damage`: what a hit takes from the health. -/
def damage (m : Monster) (nDamage : Int) : Monster :=
  if m.nHealth = 0 then m
  else { m with nHealth := if m.nHealth > nDamage then m.nHealth - nDamage else 0 }

/-- `dealDamage`, from `onDamage` on. -/
def dealDamage (m : Monster) (pFrom : Attacker) (nDamage : Int) (ct : Nat) : Option Monster :=
  (m.onDamage pFrom nDamage ct).map fun x => x.2.damage x.1

end Monster

end RZEmulator.Chihiro
