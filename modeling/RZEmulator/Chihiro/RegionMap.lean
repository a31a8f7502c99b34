import RZEmulator.Chihiro.RegionContainer
import RZEmulator.Lib.Run
import RZEmulator.Lib.SwapRemove

/-!
# Objects in regions

A region keeps one list of objects for each object type; an object keeps the region it is in and its
index in the list. The world moves objects between the lists when they enter or leave the map and when
they change their region. A function has no result where the server would stop: at a failed `ASSERT`
of `Region::addObject` or `Region::removeObject`, or where the region of a position off the map is used.

Positions are left abstract: only the region of a position matters here. What depends on the time and on
the speed of a movement (where a step ends, whether the object still moves afterwards) comes with the
event.
-/

namespace RZEmulator.Chihiro

open Lib

inductive ObjType
  | OBJ_STATIC
  | OBJ_MOVABLE
  | OBJ_CLIENT
deriving DecidableEq, Repr

structure WorldObject (P : Type) where
  objType : ObjType
  position : P
  m_nLayer : UInt8
  bIsMoving : Bool
  m_inWorld : Bool
  pRegion : Option RegionPtr
  region_index : Int
  m_pMainSummon : Option Nat

/-- The map: its regions, and the region a position lies in, which is each of its coordinates divided by
`CONFIG_MAP_REGION_SIZE`. -/
structure MapConfig (P : Type) where
  sRegion : RegionContainer
  region : P → RegionPos

/-- The objects by their handles, and the lists of the regions. -/
structure RegionMap (P : Type) where
  object : Nat → WorldObject P
  objects : RegionPtr → ObjType → List Nat

namespace RegionMap

variable {P : Type}

def updObject (w : RegionMap P) (h : Nat) (f : WorldObject P → WorldObject P) : RegionMap P :=
  { w with object := fun h' => if h' = h then f (w.object h) else w.object h' }

/-- The list of the region that the object belongs to by its type. -/
def list (w : RegionMap P) (r : RegionPtr) (h : Nat) : List Nat := w.objects r (w.object h).objType

def setList (w : RegionMap P) (r : RegionPtr) (t : ObjType) (l : List Nat) : RegionMap P :=
  { w with objects := fun r' t' => if r' = r ∧ t' = t then l else w.objects r' t' }

/-- `SetCurrentXY`. -/
def setCurrentXY (w : RegionMap P) (h : Nat) (pos : P) : RegionMap P :=
  w.updObject h ({ · with position := pos })

def setMoving (w : RegionMap P) (h : Nat) (moving : Bool) : RegionMap P :=
  w.updObject h ({ · with bIsMoving := moving })

/-! ## A region -/

/-- `Region::addObject`. -/
def addObject (w : RegionMap P) (r : RegionPtr) (h : Nat) : Option (RegionMap P) :=
  if (w.object h).pRegion = none then
    some ((w.setList r (w.object h).objType (w.list r h ++ [h])).updObject h
      ({ · with pRegion := some r, region_index := (w.list r h).length, m_inWorld := true }))
  else none

/-- `(*v)[index]`. -/
def slot (l : List Nat) (index : Int) : Option Nat := if 0 ≤ index then l[index.toNat]? else none

/-- `Region::removeObject`: the last object takes the place of the removed one. -/
def removeObject (w : RegionMap P) (r : RegionPtr) (h : Nat) : Option (RegionMap P) :=
  let v := w.list r h
  let obj := w.object h
  match v.getLast? with
  | none => none
  | some lbo =>
    if slot v obj.region_index = some h ∧ obj.pRegion = some r then
      let moved := if lbo ≠ h then (w.setList r obj.objType (v.set obj.region_index.toNat lbo)).updObject
          lbo ({ · with region_index := obj.region_index })
        else w
      some ((moved.setList r obj.objType (moved.list r h).dropLast).updObject h
        ({ · with region_index := -1, pRegion := none, m_inWorld := false }))
    else none

/-! ## The world -/

variable (cfg : MapConfig P)

/-- `RegionContainer::GetRegion` of an object. -/
def getRegion (w : RegionMap P) (h : Nat) : Option RegionPtr :=
  cfg.sRegion.getRegion (cfg.region (w.object h).position) (w.object h).m_nLayer

/-- `World::AddObjectToWorld`, which does nothing with an object off the map. -/
def addObjectToWorld (w : RegionMap P) (h : Nat) : Option (RegionMap P) :=
  match w.getRegion cfg h with
  | none => some w
  | some region => w.addObject region h

/-- `World::RemoveObjectFromWorld`. -/
def removeObjectFromWorld (w : RegionMap P) (h : Nat) : Option (RegionMap P) :=
  (w.getRegion cfg h).bind fun region => w.removeObject region h

/-- `World::onMoveObject`: called when the object already has its new position. -/
def onMoveObject (w : RegionMap P) (h : Nat) (oldPos newPos : P) : Option (RegionMap P) :=
  if cfg.region oldPos ≠ cfg.region newPos then
    (cfg.sRegion.getRegion (cfg.region oldPos) (w.object h).m_nLayer).bind fun oldRegion =>
      (w.removeObject oldRegion h).bind fun w =>
        (w.getRegion cfg h).bind fun newRegion => w.addObject newRegion h
  else some w

/-- `World::SetMultipleMove`. -/
def setMultipleMove (w : RegionMap P) (h : Nat) (curPos : P) (moving : Bool) : Option (RegionMap P) :=
  ((w.setCurrentXY h curPos).onMoveObject cfg h (w.object h).position curPos).map (·.setMoving h moving)

/-- `World::SetMove`. -/
def setMove (w : RegionMap P) (h : Nat) (curPos : P) (bAbsoluteMove moving : Bool) :
    Option (RegionMap P) :=
  if bAbsoluteMove then
    if (w.object h).bIsMoving && (w.object h).m_inWorld then w.setMultipleMove cfg h curPos moving
    else some (w.setMoving h moving)
  else some w

/-- `World::MoveObject`. -/
def moveObject (w : RegionMap P) (h : Nat) (newPos : P) : Option (RegionMap P) :=
  ((w.setCurrentXY h newPos).setMoving h false).onMoveObject cfg h (w.object h).position newPos

/-- `World::step`, also from `World::onRegionChange`: an object that does not move stays where it is. -/
def step (w : RegionMap P) (h : Nat) (newPos : P) (moving : Bool) : Option (RegionMap P) :=
  if (w.object h).bIsMoving then
    ((w.setCurrentXY h newPos).setMoving h moving).onMoveObject cfg h (w.object h).position newPos
  else w.onMoveObject cfg h (w.object h).position (w.object h).position

/-- Removes the object if it is in the world. -/
def leave (w : RegionMap P) (h : Nat) : Option (RegionMap P) :=
  if (w.object h).m_inWorld then w.removeObjectFromWorld cfg h else some w

/-- `World::WarpBegin`. -/
def warpBegin (w : RegionMap P) (pPlayer : Nat) : Option (RegionMap P) :=
  (w.leave cfg pPlayer).bind fun w =>
    match (w.object pPlayer).m_pMainSummon with
    | none => some w
    | some pSummon => w.leave cfg pSummon

/-- `World::WarpEndSummon`. The position after `AddNoise` is `noise`. -/
def warpEndSummon (w : RegionMap P) (pos : P) (layer : UInt8) (pSummon : Nat) (noise : P)
    (moving : Bool) : Option (RegionMap P) :=
  ((w.updObject pSummon
      ({ · with position := noise, m_nLayer := layer, bIsMoving := false })).addObjectToWorld
    cfg pSummon).bind fun w => w.setMove cfg pSummon pos true moving

/-- `World::WarpEndSummon` of the main summon, where the player has one. -/
def warpEndMainSummon (w : RegionMap P) (pPlayer : Nat) (pos : P) (layer : UInt8) (noise : P)
    (moving : Bool) : Option (RegionMap P) :=
  match (w.object pPlayer).m_pMainSummon with
  | none => some w
  | some pSummon => w.warpEndSummon cfg pos layer pSummon noise moving

/-- `World::WarpEnd`. The layer of the player stays as it is. -/
def warpEnd (w : RegionMap P) (pPlayer : Nat) (pPosition : P) (layer : UInt8) (noise : P)
    (moving : Bool) : Option (RegionMap P) :=
  (((w.setCurrentXY pPlayer pPosition).setMoving pPlayer false).warpEndMainSummon cfg pPlayer pPosition
    layer noise moving).bind fun w =>
      (w.addObjectToWorld cfg pPlayer).bind fun w =>
        w.setMove cfg pPlayer (w.object pPlayer).position true moving

/-! ## Runs -/

inductive Event (P : Type)
  | addObjectToWorld (h : Nat)
  | removeObjectFromWorld (h : Nat)
  | setMultipleMove (h : Nat) (curPos : P) (moving : Bool)
  | setMove (h : Nat) (curPos : P) (bAbsoluteMove moving : Bool)
  | moveObject (h : Nat) (newPos : P)
  | step (h : Nat) (newPos : P) (moving : Bool)
  | warpBegin (pPlayer : Nat)
  | warpEnd (pPlayer : Nat) (pPosition : P) (layer : UInt8) (noise : P) (moving : Bool)
  /-- An object is placed somewhere without the world being told. -/
  | place (h : Nat) (pos : P) (layer : UInt8)
  /-- A player gets another main summon, or none. -/
  | setMainSummon (pPlayer : Nat) (pSummon : Option Nat)

def handle (w : RegionMap P) : Event P → Option (RegionMap P)
  | .addObjectToWorld h => w.addObjectToWorld cfg h
  | .removeObjectFromWorld h => w.removeObjectFromWorld cfg h
  | .setMultipleMove h curPos moving => w.setMultipleMove cfg h curPos moving
  | .setMove h curPos bAbsoluteMove moving => w.setMove cfg h curPos bAbsoluteMove moving
  | .moveObject h newPos => w.moveObject cfg h newPos
  | .step h newPos moving => w.step cfg h newPos moving
  | .warpBegin pPlayer => w.warpBegin cfg pPlayer
  | .warpEnd pPlayer pPosition layer noise moving => w.warpEnd cfg pPlayer pPosition layer noise moving
  | .place h pos layer => some (w.updObject h ({ · with position := pos, m_nLayer := layer }))
  | .setMainSummon pPlayer pSummon => some (w.updObject pPlayer ({ · with m_pMainSummon := pSummon }))

/-- No object is in the world. -/
def Empty (w : RegionMap P) : Prop :=
  (∀ h, (w.object h).m_inWorld = false ∧ (w.object h).pRegion = none) ∧ ∀ r t, w.objects r t = []

abbrev system : System (RegionMap P) (Event P) := .ofFun Empty (handle cfg)

end RegionMap

end RZEmulator.Chihiro
