import Mathlib.Tactic.Common
import RZEmulator.Chihiro.Item

/-!
# Hate lists and enemy lists

The hate list of `Monster.cpp` and the enemy list of `Unit.cpp`, with the functions that write them and what
these read and write besides: the target, the greatest hate, and whether a unit is dead or in the world. A unit
can be found by its handle as long as it is registered. Hate values are exact integers.

What a monster sees when it looks for another enemy and whether fear keeps it from going home are given with
each event. The frenzy state, the ways of the monsters and what is sent to clients are not modelled.
-/

namespace RZEmulator.Chihiro

structure HateTag where
  uid : Handle
  nTime : Nat
  nHate : Int
  bIsActive : Bool := true
  nBadAttackCount : Int := 0
  nLastMaxHate : Int := 0
  deriving DecidableEq

def HateTag.setTime (ht : HateTag) (t : Nat) : HateTag := { ht with nTime := t }

/-- The hate is added, and the tag is active. -/
def HateTag.raise (ht : HateTag) (nHate : Int) : HateTag :=
  let nHate := if ht.nHate + nHate < 0 then 0 else ht.nHate + nHate
  { ht with nHate := nHate, nLastMaxHate := nHate, bIsActive := true }

/-- What becomes of the tag of an enemy that is too far away. -/
def HateTag.deactivate (ht : HateTag) : HateTag :=
  { ht with
    bIsActive := false
    nBadAttackCount := ht.nBadAttackCount + 1
    nHate := ht.nHate - max (ht.nHate.tdiv 2) 100 }

/-- What a monster has besides what every unit has. -/
structure MonsterPart where
  isEnvironmentMonster : Bool := false
  m_vHateList : List HateTag := []
  /-- `uid` and `nHate` -/
  m_vHateModifierByState : List (Handle × Int) := []
  m_nMaxHate : Int := 0
  deriving DecidableEq

structure CombatUnit where
  monster : Option MonsterPart := none
  isDead : Bool := false
  isInWorld : Bool := true
  /-- `BATTLE_FIELD_TARGET_HANDLE` -/
  target : Handle := 0
  m_vEnemyList : List Handle := []
  deriving DecidableEq

/-- What `findNextEnemy` and `comeBackHome` ask about the world. -/
structure Sight where
  now : Nat
  /-- the unit is in a visible region and visible itself -/
  visible : Handle → Handle → Bool
  feared : Handle → Bool

/-- The units that are registered, by their handles. -/
abbrev Units := Handle → Option CombatUnit

namespace Units

def upd (w : Units) (h : Handle) (f : CombatUnit → CombatUnit) : Units := fun h' =>
  if h' = h then (w h').map f else w h'

/-- A change of what only monsters have. -/
def updMonster (w : Units) (h : Handle) (f : MonsterPart → MonsterPart) : Units :=
  w.upd h fun u => { u with monster := u.monster.map f }

/-- The monster that a handle is cast to. -/
def monster (w : Units) (h : Handle) : Option MonsterPart := (w h).bind CombatUnit.monster

def GetTargetHandle (w : Units) (h : Handle) : Handle := ((w h).map CombatUnit.target).getD 0

def setTarget (w : Units) (h target : Handle) : Units := w.upd h fun u => { u with target := target }

def isDead (w : Units) (h : Handle) : Bool := ((w h).map CombatUnit.isDead).getD false

/-! ## The enemy list -/

def addToEnemyList (w : Units) (h enemy : Handle) : Units :=
  w.upd h fun u => if enemy ∈ u.m_vEnemyList then { u with m_vEnemyList := u.m_vEnemyList ++ [enemy] } else u

def removeFromEnemyList (w : Units) (h enemy : Handle) : Units :=
  w.upd h fun u => { u with m_vEnemyList := u.m_vEnemyList.erase enemy }

/-! ## The next enemy -/

def comeBackHome (w : Units) (m : Handle) (c : Sight) : Units :=
  if c.feared m = true then w else (w.setTarget m 0).updMonster m fun p => { p with m_nMaxHate := 0 }

/-- The hate that the tag stands for: the modifiers of the states are added. -/
def hateOfTag (p : MonsterPart) (ht : HateTag) : Int :=
  ht.nHate + ((p.m_vHateModifierByState.find? fun mit => mit.1 = ht.uid).map Prod.snd).getD 0

/-- The loop of `findNextEnemy`, with `nMaxHate` and `target`. -/
def mostHated (w : Units) (m : Handle) (c : Sight) (p : MonsterPart) : List HateTag → Int × Handle → Int × Handle
  | [], best => best
  | ht :: l, best =>
    if ht.bIsActive = true ∧ hateOfTag p ht > best.1 ∧ (w ht.uid).isSome = true ∧ c.visible m ht.uid = true then
      mostHated w m c p l (hateOfTag p ht, ht.uid)
    else mostHated w m c p l best

def findNextEnemy (w : Units) (m : Handle) (c : Sight) : Units :=
  match w.monster m with
  | none => w
  | some p =>
    let best := mostHated w m c p p.m_vHateList (-1, 0)
    if best.1 = -1 then w.comeBackHome m c
    else (w.updMonster m fun p => { p with m_nMaxHate := best.1 }).setTarget m best.2

/-! ## The hate list -/

/-- `getHateTag` for a list: the tag, and the list with its time set. -/
def getHateTag (l : List HateTag) (handle : Handle) (t : Nat) : Option HateTag × List HateTag :=
  match l.findIdx? fun ht => ht.uid = handle with
  | none => (none, l)
  | some i => ((l.modify i (·.setTime t))[i]?, l.modify i (·.setTime t))

/-- A change of the first tag with the handle. -/
def updTag (l : List HateTag) (handle : Handle) (f : HateTag → HateTag) : List HateTag :=
  match l.findIdx? fun ht => ht.uid = handle with
  | none => l
  | some i => l.modify i f

/-- `m_nMaxHate` and the target after the hate of a tag has become `nHate`. -/
def retarget (w : Units) (m handle : Handle) (nMaxHate nHate : Int) : Units :=
  if w.GetTargetHandle m = 0 then
    let w := w.updMonster m fun p => { p with m_nMaxHate := nHate }
    if (w handle).isSome = true ∧ w.isDead m = false then w.setTarget m handle else w
  else if w.GetTargetHandle m ≠ handle ∧ nHate > nMaxHate then
    (w.updMonster m fun p => { p with m_nMaxHate := nHate }).setTarget m handle
  else if w.GetTargetHandle m = handle then w.updMonster m fun p => { p with m_nMaxHate := nHate }
  else w

/-- `addHate` of the monster `m`, whose own part is `p`. -/
def addHate (w : Units) (m handle : Handle) (p : MonsterPart) (nHate : Int) (t : Nat) : Units :=
  match getHateTag p.m_vHateList handle t with
  | (some ht, l) =>
    (w.updMonster m fun p => { p with m_vHateList := updTag l handle (HateTag.raise · nHate) }).retarget m handle
      p.m_nMaxHate (ht.raise nHate).nHate
  | (none, l) =>
    let ht := HateTag.raise { uid := handle, nTime := t, nHate := 0 } nHate
    ((w.updMonster m fun p => { p with m_vHateList := l ++ [ht] }).addToEnemyList handle m).retarget m handle
      p.m_nMaxHate ht.nHate

/-- `AddHate`. -/
def AddHate (w : Units) (m handle : Handle) (pt : Int) (c : Sight) : Units :=
  match w.monster m with
  | none => w
  | some p =>
    if w.isDead m = true ∨ p.isEnvironmentMonster = true ∨ (w handle).isNone = true then w
    else if pt ≥ 0 then w.addHate m handle p pt c.now
    else (w.addHate m handle p pt c.now).findNextEnemy m c

/-- The loop runs from the end of the list and stops at the first tag with the handle. -/
def eraseLast (l : List HateTag) (handle : Handle) : List HateTag :=
  (l.reverse.eraseP fun ht => ht.uid = handle).reverse

def removeFromHateList (w : Units) (m handle : Handle) : Units :=
  w.updMonster m fun p => { p with m_vHateList := eraseLast p.m_vHateList handle }

def removeHate (w : Units) (m handle : Handle) (pt : Int) (c : Sight) : Units :=
  match w.monster m with
  | none => w
  | some p =>
    match getHateTag p.m_vHateList handle c.now with
    | (none, _) => w
    | (some ht, l) =>
      let w := w.updMonster m fun p => { p with m_vHateList := l }
      if pt < ht.nHate then
        let w := w.updMonster m fun p => { p with
          m_vHateList := updTag l handle fun ht => { ht with nHate := ht.nHate - pt } }
        if handle = w.GetTargetHandle m ∧ w.isDead m = false then w.findNextEnemy m c else w
      else
        let w := w.removeFromHateList m handle
        if handle = w.GetTargetHandle m then (w.setTarget m 0).findNextEnemy m c else w

/-- `GetHate`, which sets the time of the tag to 0. -/
def getHate (w : Units) (m handle : Handle) : Int × Units :=
  match w.monster m with
  | none => (0, w)
  | some p =>
    let (ht, l) := getHateTag p.m_vHateList handle 0
    ((ht.map HateTag.nHate).getD 0, w.updMonster m fun p => { p with m_vHateList := l })

/-! ## Deaths and attacks -/

/-- One round of the loop of `RemoveAllHate`. -/
def dropHate (c : Sight) (h : Handle) (w : Units) (it : Handle) : Units :=
  match w.monster it with
  | none => w
  | some _ => (w.getHate it h).2.removeHate it h (w.getHate it h).1 c

def removeAllHate (w : Units) (h : Handle) (c : Sight) : Units :=
  match w h with
  | none => w
  | some u => (u.m_vEnemyList.foldl (dropHate c h) w).upd h fun u => { u with m_vEnemyList := [] }

/-- What `Monster::onDead` does with the units that the monster hates. -/
def leaveEnemyLists (w : Units) (h : Handle) : Units :=
  match w.monster h with
  | none => w
  | some p => (p.m_vHateList.map HateTag.uid).foldl (fun w uid => w.removeFromEnemyList uid h) w

/-- `onDead` of a unit, and what `Monster::onDead` does afterwards. -/
def onDead (w : Units) (h : Handle) (c : Sight) : Units :=
  let w := if w.GetTargetHandle h ≠ 0 then w.setTarget h 0 else w
  (w.removeAllHate h c).leaveEnemyLists h

/-- The target is gone, dead or out of the world. -/
def targetLost (w : Units) (m : Handle) : Bool :=
  match w (w.GetTargetHandle m) with
  | none => true
  | some u => u.isDead || !u.isInWorld

/-- `AI_processAttack` for a target that is lost. -/
def processAttack (w : Units) (m : Handle) (c : Sight) : Units :=
  if w.targetLost m = true then (w.removeFromHateList m (w.GetTargetHandle m)).findNextEnemy m c else w

/-- `AI_processAttack` for a target that is too far away. -/
def giveUp (w : Units) (m : Handle) (c : Sight) : Units :=
  match w.monster m with
  | none => w
  | some p =>
    let l := (getHateTag (getHateTag p.m_vHateList (w.GetTargetHandle m) 0).2 (w.GetTargetHandle m) c.now).2
    (w.updMonster m fun p => { p with
      m_vHateList := updTag l (w.GetTargetHandle m) HateTag.deactivate }).findNextEnemy m c

end Units

end RZEmulator.Chihiro
