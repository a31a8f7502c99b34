import Mathlib.Algebra.Ring.Nat
import RZEmulator.Lib.Run

/-!
# The spawner of an area

`RespawnObject` keeps up to `m_nMaxRespawnNum` monsters in an area. `Update` spawns, and `onMonsterDelete`, which
`Monster::processDead` calls through the handler of the monster, takes a corpse off the list. `processDead` runs in
every update of a dead monster that has a client near it; the handler, which `onMonsterDelete` clears, is what keeps
it from being counted twice.
-/

namespace RZEmulator.Chihiro

open Lib

/-- The bounds are those of the 32-bit fields and of the spawners that are considered. -/
structure RespawnInfo where
  interval : Nat
  max_num : Nat
  inc : Nat
  prespawn_count : Nat
  max_num_lt : max_num < 2 ^ 32
  prespawn_le : prespawn_count ≤ max_num

/-- A monster of the spawner: its status is `STATUS_DEAD`, its `m_pDeleteHandler` is set. -/
structure SpawnedMonster where
  handle : Nat
  dead : Bool
  deleteHandler : Bool
  deriving DecidableEq

/-- What a random position is like: blocked, or free with the handle of the monster, if there is such a monster. -/
inductive SpawnPoint
  | blocked
  | free (monster : Option Nat)

/-- `monsters` are those that the spawner has created, the first one first; `now` is the last time that was read. -/
structure RespawnObject where
  info : RespawnInfo
  count : Nat
  m_nMaxRespawnNum : Nat
  m_vRespawnedMonster : List Nat
  lastDeadTime : Nat
  monsters : List SpawnedMonster
  now : Nat

namespace RespawnObject

def create (info : RespawnInfo) : RespawnObject where
  info := info
  count := 0
  m_nMaxRespawnNum := info.prespawn_count
  m_vRespawnedMonster := []
  lastDeadTime := 0
  monsters := []
  now := 0

/-- `RespawnMonster`, and the entry in the list. -/
def respawnMonster (s : RespawnObject) (handle : Nat) : RespawnObject :=
  { s with
    monsters := s.monsters ++ [⟨handle, false, true⟩]
    m_vRespawnedMonster := s.m_vRespawnedMonster ++ [handle]
    count := (s.count + 1) % 2 ^ 32 }

/-- The loops of `Update`: how many tries and how many monsters are left. -/
def spawn : (tries respawn_count : Nat) → (Nat → SpawnPoint) → RespawnObject → RespawnObject
  | 0, _, _, s => s
  | _ + 1, 0, _, s => s
  | tries + 1, n + 1, points, s =>
    match points 0 with
    | .blocked => spawn tries (n + 1) (fun i => points (i + 1)) s
    | .free none => spawn tries n (fun i => points (i + 1)) s
    | .free (some handle) => spawn tries n (fun i => points (i + 1)) (s.respawnMonster handle)

/-- `RespawnObject::Update`. -/
def update (s : RespawnObject) (ct : Nat) (points : Nat → SpawnPoint) : RespawnObject :=
  let s := { s with now := ct }
  if s.m_nMaxRespawnNum ≤ s.count then s
  else if s.lastDeadTime ≠ 0 ∧ ct < (s.lastDeadTime + s.info.interval) % 2 ^ 32 then s
  else if s.lastDeadTime = 0 then spawn 500 s.m_nMaxRespawnNum points { s with lastDeadTime := ct }
  else spawn 500 (min (s.m_nMaxRespawnNum - s.count) s.info.inc) points s

/-- `SetStatus(STATUS_DEAD)`, in `Monster::onDead`. -/
def setDead (s : RespawnObject) (i : Nat) : RespawnObject :=
  { s with monsters := s.monsters.modify i fun mob => { mob with dead := true } }

def clearHandler (s : RespawnObject) (i : Nat) : RespawnObject :=
  { s with monsters := s.monsters.modify i fun mob => { mob with deleteHandler := false } }

/-- The entry of the monster is looked for by its handle. -/
def eraseHandle (s : RespawnObject) (i handle : Nat) : RespawnObject :=
  if handle ∈ s.m_vRespawnedMonster then
    { s with m_vRespawnedMonster := s.m_vRespawnedMonster.erase handle }.clearHandler i
  else s

/-- `--count`. -/
def decrement32 (n : Nat) : Nat := if n = 0 then 2 ^ 32 - 1 else n - 1

/-- `onMonsterDelete`. -/
def onMonsterDelete (s : RespawnObject) (i handle ct : Nat) : RespawnObject :=
  let s := { s with lastDeadTime := ct, count := decrement32 s.count }
  let s := s.eraseHandle i handle
  if s.m_nMaxRespawnNum < s.info.max_num then { s with m_nMaxRespawnNum := s.m_nMaxRespawnNum + 1 } else s

/-- `Monster::processDead`. What it does with the corpse later is not the spawner's. -/
def processDead (s : RespawnObject) (i : Nat) (mob : SpawnedMonster) (ct : Nat) : RespawnObject :=
  if mob.deleteHandler then s.onMonsterDelete i mob.handle ct else s

/-- `Monster::Update`, of a monster that is dead or not and has a client near it or not. -/
def updateMonster (s : RespawnObject) (i : Nat) (near : Bool) (ct : Nat) : Option RespawnObject :=
  s.monsters[i]?.map fun mob =>
    let s := { s with now := ct }
    if near ∧ mob.dead then s.processDead i mob ct else s

end RespawnObject

/-- The number of a monster is its place among those created. -/
inductive RespawnEvent
  | update (ct : Nat) (points : Nat → SpawnPoint)
  | die (i : Nat)
  | updateMonster (i : Nat) (near : Bool) (ct : Nat)

namespace RespawnObject

def handle (s : RespawnObject) : RespawnEvent → Option RespawnObject
  | .update ct points => some (s.update ct points)
  | .die i => s.monsters[i]?.map fun _ => s.setDead i
  | .updateMonster i near ct => s.updateMonster i near ct

/-- The spawners that start empty. -/
def system (info : RespawnInfo) : System RespawnObject RespawnEvent := .ofFun (· = create info) handle

/-- The clock is positive and does not go back. -/
def Timely (s : RespawnObject) : RespawnEvent → Prop
  | .update ct _ | .updateMonster _ _ ct => 0 < ct ∧ s.now ≤ ct ∧ ct < 2 ^ 32
  | .die _ => True

instance (s : RespawnObject) : (e : RespawnEvent) → Decidable (Timely s e)
  | .update ct _ => inferInstanceAs (Decidable (0 < ct ∧ s.now ≤ ct ∧ ct < 2 ^ 32))
  | .updateMonster _ _ ct => inferInstanceAs (Decidable (0 < ct ∧ s.now ≤ ct ∧ ct < 2 ^ 32))
  | .die _ => .isTrue trivial

end RespawnObject

end RZEmulator.Chihiro
