import Mathlib.Data.List.AList
import Mathlib.Data.Nat.Bitwise
import Mathlib.Tactic.Common

/-!
# The memory pool

`MemoryPoolMgr` and the containers of `HashMapHolder`. An object is named by the order of its construction and
is live until it has been deleted; both these names and the handles are natural numbers. The counters of the handles are unsigned and wrap. `Update` updates the
objects, which may request deletions while the loop runs: the objects for which that comes too late are given
with the event. The order in which a container is iterated is that of the list here; nothing depends on it.

What an object is besides its handle, its kind and two flags is not modelled, nor the time.
-/

namespace RZEmulator.Chihiro

inductive ObjKind
  | item | npc | fieldProp | skillProp | state | monster | player | summon
  deriving DecidableEq

/-- The containers `HashMapHolder<Item>`, `<Object>`, `<Monster>`, `<Player>` and `<Summon>`. -/
inductive Holder
  | item | object | monster | player | summon
  deriving DecidableEq

/-- The container that `AddObject` is called for. -/
def ObjKind.holder : ObjKind → Holder
  | .item => .item
  | .npc | .fieldProp | .skillProp | .state => .object
  | .monster => .monster
  | .player => .player
  | .summon => .summon

inductive SubType
  | ST_Player | ST_NPC | ST_Object | ST_Mob | ST_Summon | ST_SkillProp | ST_FieldProp | ST_State

def ObjKind.subType : ObjKind → SubType
  | .item => .ST_Object
  | .npc => .ST_NPC
  | .fieldProp => .ST_FieldProp
  | .skillProp => .ST_SkillProp
  | .state => .ST_State
  | .monster => .ST_Mob
  | .player => .ST_Player
  | .summon => .ST_Summon

/-- The container that `Update` removes an object from. -/
def SubType.holder : SubType → Holder
  | .ST_Player => .player
  | .ST_Mob => .monster
  | .ST_Summon => .summon
  | .ST_Object => .item
  | .ST_NPC | .ST_SkillProp | .ST_FieldProp | .ST_State => .object

structure PoolObject where
  kind : ObjKind
  handle : Nat
  m_bDeleteRequest : Bool := false
  m_inWorld : Bool := false
  deriving DecidableEq

abbrev Container := AList fun _ : Nat => Nat

structure MemoryPool where
  heap : Nat → Option PoolObject := fun _ => none
  nextObj : Nat := 0
  holders : Holder → Container := fun _ => ∅
  addUpdateQueue : List Nat := []
  i_objectsToUpdate : Container := ∅
  m_nMiscTop : Nat := 0x20000001
  m_nMonsterTop : Nat := 0x40000001
  m_nPlayerTop : Nat := 0x80000001
  m_nSummonTop : Nat := 0xC0000001
  m_nItemTop : Nat := 0x00000001

namespace MemoryPool

/-- The container of the handles that begin with the same three bits. -/
def holderOf (handle : Nat) : Option Holder :=
  let idbase := handle &&& 0xE0000000
  if idbase = 0x00000000 then some .item
  else if idbase = 0x20000000 then some .object
  else if idbase = 0x40000000 then some .monster
  else if idbase = 0x80000000 then some .player
  else if idbase = 0xC0000000 then some .summon
  else none

def getObjectInWorld (p : MemoryPool) (handle : Nat) : Option Nat :=
  (holderOf handle).bind fun k => (p.holders k).lookup handle

/-- `top++` -/
def next (top : Nat) : Nat := (top + 1) % 2 ^ 32

def insert (p : MemoryPool) (k : Holder) (handle : Nat) (o : Nat) : MemoryPool :=
  { p with holders := fun k' => if k' = k then (p.holders k).insert handle o else p.holders k' }

def remove (p : MemoryPool) (k : Holder) (handle : Nat) : MemoryPool :=
  { p with holders := fun k' => if k' = k then (p.holders k).erase handle else p.holders k' }

def addObject (p : MemoryPool) (o : Nat) (obj : PoolObject) : MemoryPool :=
  let p := p.insert obj.kind.holder obj.handle o
  if obj.kind ≠ .item ∧ obj.kind ≠ .fieldProp then { p with addUpdateQueue := p.addUpdateQueue ++ [o] } else p

def setObject (p : MemoryPool) (o : Nat) (obj : Option PoolObject) : MemoryPool :=
  { p with heap := fun o' => if o' = o then obj else p.heap o' }

/-- A new object with the handle. -/
def create (p : MemoryPool) (kind : ObjKind) (handle : Nat) : MemoryPool :=
  { p.setObject p.nextObj (some { kind := kind, handle := handle }) with
    nextObj := p.nextObj + 1 }.addObject p.nextObj { kind := kind, handle := handle }

def allocItem (p : MemoryPool) : MemoryPool :=
  { p with m_nItemTop := next p.m_nItemTop }.create .item p.m_nItemTop

/-- `AllocMiscHandle` of a new object: a non-player character, a prop or a state. -/
def allocMiscHandle (p : MemoryPool) (kind : ObjKind) : MemoryPool :=
  { p with m_nMiscTop := next p.m_nMiscTop, m_nItemTop := next p.m_nItemTop }.create kind p.m_nMiscTop

def allocPlayer (p : MemoryPool) : MemoryPool :=
  { p with m_nPlayerTop := next p.m_nPlayerTop }.create .player p.m_nPlayerTop

def allocSummon (p : MemoryPool) : MemoryPool :=
  { p with m_nSummonTop := next p.m_nSummonTop }.create .summon p.m_nSummonTop

def allocMonster (p : MemoryPool) : MemoryPool :=
  { p with m_nMonsterTop := next p.m_nMonsterTop }.create .monster p.m_nMonsterTop

/-- `AllocItemHandle`: an item that exists gets another handle. -/
def allocItemHandle (p : MemoryPool) (o : Nat) (obj : PoolObject) : MemoryPool :=
  let obj := { obj with handle := p.m_nItemTop }
  { p.setObject o (some obj) with
    m_nItemTop := next p.m_nItemTop
    m_nMiscTop := next p.m_nMiscTop }.addObject o obj

/-! ## Update -/

/-- The first loop of `Update`: the new objects are entered under their handles. -/
def takeQueue (p : MemoryPool) : Option MemoryPool :=
  (p.addUpdateQueue.foldlM (fun toUpdate o => (p.heap o).map fun obj => toUpdate.insert obj.handle o)
    p.i_objectsToUpdate).map fun toUpdate => { p with addUpdateQueue := [], i_objectsToUpdate := toUpdate }

/-- The objects of `i_objectsToUpdate` whose deletion has been requested by the time they are looked at. -/
def toRemove (p : MemoryPool) (late : List Nat) : List (Nat × PoolObject) :=
  p.i_objectsToUpdate.entries.filterMap fun e => (p.heap e.2).bind fun obj =>
    if obj.m_bDeleteRequest = true ∧ e.2 ∉ late then some (e.2, obj) else none

/-- An object is taken out of its container and deleted. -/
def deleteObject (p : MemoryPool) (x : Nat × PoolObject) : MemoryPool :=
  { (p.remove x.2.kind.subType.holder x.2.handle).setObject x.1 none with
    i_objectsToUpdate := p.i_objectsToUpdate.erase x.2.handle }

def update (p : MemoryPool) (late : List Nat) : Option MemoryPool :=
  p.takeQueue.map fun p => (p.toRemove late).foldl deleteObject p

/-- `Destroy`, which erases from the container that it iterates: this is defined only if there is nothing to
erase. -/
def destroy (p : MemoryPool) : Option MemoryPool :=
  if (p.holders .player).entries = [] ∧ (p.holders .item).entries = [] ∧ (p.holders .monster).entries = [] ∧
      (p.holders .summon).entries = [] then some p else none

inductive PoolEvent
  | allocItem
  | allocMiscHandle (kind : ObjKind)
  | allocPlayer
  | allocSummon
  | allocMonster
  | allocItemHandle (o : Nat)
  | deleteThis (o : Nat)
  | setInWorld (o : Nat) (inWorld : Bool)
  | update (late : List Nat)
  | destroy
  deriving DecidableEq

def handlePool (p : MemoryPool) : PoolEvent → Option MemoryPool
  | .allocItem => some p.allocItem
  | .allocMiscHandle kind => if kind.holder = .object then some (p.allocMiscHandle kind) else none
  | .allocPlayer => some p.allocPlayer
  | .allocSummon => some p.allocSummon
  | .allocMonster => some p.allocMonster
  | .allocItemHandle o => (p.heap o).bind fun obj =>
    if obj.kind = .item then some (p.allocItemHandle o obj) else none
  | .deleteThis o => (p.heap o).map fun obj => p.setObject o (some { obj with m_bDeleteRequest := true })
  | .setInWorld o inWorld => (p.heap o).map fun obj => p.setObject o (some { obj with m_inWorld := inWorld })
  | .update late => p.update late
  | .destroy => p.destroy

end MemoryPool

end RZEmulator.Chihiro
