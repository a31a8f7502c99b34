import Mathlib.Algebra.Order.Ring.Rat
import RZEmulator.Chihiro.Monster
import RZEmulator.Lib.SwapRemove

/-!
# Taming

`World::SetTamer`, `ClearTamer` and `ProcTame` with the places that call them: the taming skill, the death of a
monster, and `Monster::Update` with the branch of `processMove` that gives a tamer up. A taming is kept in three
places: the monster has a tamer, the player a target, and one of his cards a flag.

An inventory is the list of its stacks, with what its operations do to a flag: a split copies it, and a stack that
joins another one takes that one's. Probabilities and distances are exact rationals, counts exact integers, and a
flag is a natural number below `2 ^ 32`. Messages to the clients are not modelled.
-/

namespace RZEmulator.Chihiro

open Lib

structure Card where
  Code : Int
  Flag : Nat := 0
  nCount : Int := 1
  isJoinable : Bool := false
  deriving DecidableEq

namespace Card

def ITEM_FLAG_TAMING : Nat := 0x20000000
def ITEM_FLAG_SUMMON : Nat := 0x80000000

def isFlagged (c : Card) (flag : Nat) : Bool := flag &&& c.Flag ≠ 0

abbrev isTaming (c : Card) : Bool := c.isFlagged ITEM_FLAG_TAMING

/-- `Flag |= ITEM_FLAG_TAMING`. -/
def setTaming (c : Card) : Card := { c with Flag := c.Flag ||| ITEM_FLAG_TAMING }

/-- `Flag &= 0xDFFFFFFF`, as for every card that is read from the database. -/
def clearTaming (c : Card) : Card := { c with Flag := c.Flag &&& 0xDFFFFFFF }

/-- What becomes of the flag of a card with which a monster was tamed. -/
def setSummon (c : Card) : Card := { c with Flag := c.Flag &&& 0xDFFFFFFF ||| ITEM_FLAG_SUMMON }

def setCount (c : Card) (n : Int) : Card := { c with nCount := n }

end Card

/-! ## Inventories -/

/-- `Inventory::Find`. -/
def findItem (l : List Card) (code : Int) (flag : Nat) (bFlag : Bool) : Option Nat :=
  l.findIdx? fun c => c.Code == code && c.isFlagged flag == bFlag

/-- The stack that a pushed one is joined to. -/
def joinTarget (l : List Card) (c : Card) : Option Nat :=
  if c.isJoinable then l.findIdx? fun e => e.Code == c.Code else none

/-- `Inventory::Push`. -/
def pushCard (l : List Card) (c : Card) : List Card :=
  match joinTarget l c with
  | none => l ++ [c]
  | some i => l.modify i fun e => e.setCount (e.nCount + c.nCount)

/-- `Inventory::Pop`, for what it leaves in the list. -/
def popCard (l : List Card) (i : Nat) (cnt : Int) : List Card :=
  match l[i]? with
  | none => l
  | some c =>
    if c.nCount > cnt then l.set i (c.setCount (c.nCount - cnt))
    else if c.nCount = cnt then swapRemove l i
    else l

/-- `Inventory::Erase`. -/
def eraseCard (l : List Card) (i : Nat) (cnt : Int) : List Card :=
  match l[i]? with
  | none => l
  | some c => if c.nCount > cnt then l.set i (c.setCount (c.nCount - cnt)) else swapRemove l i

/-! ## Players and monsters -/

/-- The skill `SKILL_CREATURE_TAMING` of a player. -/
structure TamingSkill where
  var0 : ℚ
  var1 : ℚ
  enhance : Nat
  deriving DecidableEq

structure Tamer where
  nHealth : Int := 1
  m_hTamingTarget : Handle := 0
  m_vList : List Card := []
  skill : Option TamingSkill := none
  deriving DecidableEq

structure TameMonster extends Monster where
  nMaxHealth : Int
  tameItemCode : Int := 0
  tamePercentage : ℚ := 0
  m_nTamingSkillLevel : Int := 0
  /-- The status is `STATUS_DEAD`. -/
  isStatusDead : Bool := false
  m_bNearClient : Bool := false
  m_bTamedSuccess : Bool := false
  deriving DecidableEq

def Tamer.setTarget (t : Tamer) (h : Handle) : Tamer := { t with m_hTamingTarget := h }

def Tamer.setList (t : Tamer) (l : List Card) : Tamer := { t with m_vList := l }

def Tamer.setHealth (t : Tamer) (hp : Int) : Tamer := { t with nHealth := hp }

def Tamer.setSkill (t : Tamer) (skill : TamingSkill) : Tamer := { t with skill := some skill }

/-- A player who comes in has no target, and his cards lose the flag of a taming. -/
def Tamer.entered (t : Tamer) : Tamer := (t.setTarget 0).setList (t.m_vList.map Card.clearTaming)

def TameMonster.setTamer (k : TameMonster) (handle : Handle) (nTamingSkillLevel : Int) (ct : Nat) : TameMonster :=
  { k with m_hTamer := handle, m_nTamedTime := narrow32 ct, m_nTamingSkillLevel := nTamingSkillLevel }

def TameMonster.setBody (k : TameMonster) (body : Monster) : TameMonster := { k with toMonster := body }

def TameMonster.die (k : TameMonster) : TameMonster := { k with isStatusDead := true }

def TameMonster.setTamedSuccess (k : TameMonster) (b : Bool) : TameMonster := { k with m_bTamedSuccess := b }

def TameMonster.setNearClient (k : TameMonster) (b : Bool) : TameMonster := { k with m_bNearClient := b }

/-- `SetHealth`. -/
def TameMonster.setHealth (k : TameMonster) (hp : Int) : TameMonster :=
  { k with nHealth := if hp > k.nMaxHealth then k.nMaxHealth else if hp < 0 then 0 else hp }

/-- The constructor of `Monster`: it has all its health, no tamer and no client near. -/
def TameMonster.newborn (k : TameMonster) : TameMonster :=
  { k with
    toMonster := { nHealth := k.nMaxHealth }
    m_nTamingSkillLevel := 0
    isStatusDead := false
    m_bNearClient := false
    m_bTamedSuccess := false }

/-- What the timeout in `Update` does. -/
def TameMonster.dropTamer (k : TameMonster) : TameMonster := { k with m_hTamer := 0, m_nTamedTime := -1 }

/-- The players and the monsters that are registered, by their handles. The memory pool gives each handle once. -/
structure TamingWorld where
  players : Handle → Option Tamer := fun _ => none
  monsters : Handle → Option TameMonster := fun _ => none
  nextHandle : Handle := 1

namespace TamingWorld

def updPlayer (s : TamingWorld) (p : Handle) (f : Tamer → Tamer) : TamingWorld :=
  { s with players := fun h => if h = p then (s.players h).map f else s.players h }

def updMonster (s : TamingWorld) (m : Handle) (f : TameMonster → TameMonster) : TamingWorld :=
  { s with monsters := fun h => if h = m then (s.monsters h).map f else s.monsters h }

def updList (s : TamingWorld) (p : Handle) (f : List Card → List Card) : TamingWorld :=
  s.updPlayer p fun t => t.setList (f t.m_vList)

/-! ## The functions of the world -/

/-- `World::ClearTamer`. -/
def clearTamer (s : TamingWorld) (m : Handle) (ct : Nat) : TamingWorld :=
  match s.monsters m with
  | none => s
  | some k =>
    (if k.m_hTamer ≠ 0 then s.updPlayer k.m_hTamer (·.setTarget 0) else s).updMonster m (·.setTamer 0 0 ct)

/-- The card that `SetTamer` finds, if nothing speaks against the taming. -/
def tamingCard (t : Tamer) (k : TameMonster) : Option Nat :=
  if t.m_hTamingTarget = 0 ∧ k.nHealth = k.nMaxHealth ∧ k.m_hTamer = 0 ∧ k.tameItemCode ≠ 0 then
    findItem t.m_vList k.tameItemCode Card.ITEM_FLAG_SUMMON false
  else none

/-- `World::SetTamer`. -/
def setTamer (s : TamingWorld) (m p : Handle) (nSkillLevel : Int) (ct : Nat) : TamingWorld :=
  match s.players p, s.monsters m with
  | some t, some k =>
    match tamingCard t k with
    | none => s
    | some i =>
      (s.updMonster m (·.setTamer p nSkillLevel ct)).updPlayer p fun t =>
        (t.setTarget m).setList (t.m_vList.modify i Card.setTaming)
  | _, _ => s

/-- `fTameProbability`, in millionths. -/
def fTameProbability (k : TameMonster) (sk : TamingSkill) : ℚ :=
  k.tamePercentage * ((sk.var1 * sk.enhance + sk.var0 * k.m_nTamingSkillLevel + 1) * 1000000)

/-- The ways out of `ProcTame`, with the card where one is found. -/
inductive TameEnd
  | tamerDead
  | tooFar
  | cardLost
  | noSkill
  | failed (i : Nat)
  | tamed (i : Nat)

/-- Which way it takes: `dist` is the distance of the two, `rnd` the random number. -/
def tameEnd (k : TameMonster) (t : Tamer) (dist : ℚ) (rnd : Int) : TameEnd :=
  if t.nHealth = 0 then .tamerDead
  else if dist > 500 ∨ k.tameItemCode = 0 then .tooFar
  else match findItem t.m_vList k.tameItemCode Card.ITEM_FLAG_TAMING true with
    | none => .cardLost
    | some i => match t.skill with
      | none => .noSkill
      | some sk => if fTameProbability k sk < rnd then .failed i else .tamed i

/-- `World::ProcTame` for the monster `k` and its tamer `t`. -/
def procTame (s : TamingWorld) (m : Handle) (k : TameMonster) (t : Tamer) (dist : ℚ) (rnd : Int) (ct : Nat) :
    Bool × TamingWorld :=
  match tameEnd k t dist rnd with
  | .tamerDead => (false, s)
  | .tooFar | .cardLost | .noSkill => (false, s.clearTamer m ct)
  | .failed i => (false, (s.updList k.m_hTamer (eraseCard · i 1)).clearTamer m ct)
  | .tamed i => (true, (s.updList k.m_hTamer (·.modify i Card.setSummon)).clearTamer m ct)

/-- What the death of a monster does to its taming; whether it was tamed. -/
def onDead (s : TamingWorld) (m : Handle) (k : TameMonster) (dist : ℚ) (rnd : Int) (ct : Nat) :
    Bool × TamingWorld :=
  if k.m_hTamer = 0 then (false, s.updMonster m (·.setTamedSuccess false))
  else match s.players k.m_hTamer with
    | none => (false, s.updMonster m (·.setTamedSuccess false))
    | some t =>
      ((s.procTame m k t dist rnd ct).1,
        (s.procTame m k t dist rnd ct).2.updMonster m (·.setTamedSuccess (s.procTame m k t dist rnd ct).1))

/-- A hit, and the death of the monster if it was its last; whether it was tamed. -/
def hit (s : TamingWorld) (m : Handle) (pFrom : Attacker) (nDamage : Nat) (dist : ℚ) (rnd : Int) (ct : Nat) :
    Option (Bool × TamingWorld) :=
  (s.monsters m).bind fun k => (k.toMonster.dealDamage pFrom nDamage ct).map fun body =>
    if k.nHealth ≠ 0 ∧ body.nHealth = 0 then
      (s.updMonster m fun _ => (k.setBody body).die).onDead m (k.setBody body).die dist rnd ct
    else (false, s.updMonster m (·.setBody body))

/-! ## The life of a monster -/

/-- What `Monster::Update` meets: what `OnUpdate` leaves in `m_bNearClient`, whether the monster is in normal
status and free to move, and whether it has neither way points nor an entry in its hate list. -/
structure Idle where
  nearClient : Bool := true
  mayMove : Bool := false
  aimless : Bool := false
  deriving DecidableEq

/-- `processMove` comes to the branch that clears the tamer. -/
def Idle.cancels (i : Idle) : Bool := i.mayMove && i.aimless && !i.nearClient

/-- `Monster::processMove`. -/
def processMove (s : TamingWorld) (m : Handle) (idle : Idle) (ct : Nat) : TamingWorld :=
  if idle.cancels then s.clearTamer m ct else s

/-- `m_nTamedTime + 30000 < ct`. -/
def timedOut (k : TameMonster) (ct : Nat) : Option Bool :=
  (add32 k.m_nTamedTime 30000).map fun time => time < narrow32 ct

/-- The timeout of `Monster::Update`. -/
def expireTamer (s : TamingWorld) (m : Handle) (ct : Nat) : Option TamingWorld :=
  match s.monsters m with
  | none => some s
  | some k => (timedOut k ct).map fun late => if late then s.updMonster m (·.dropTamer) else s

/-- `Monster::Update`. -/
def update (s : TamingWorld) (m : Handle) (idle : Idle) (ct : Nat) : Option TamingWorld :=
  (s.monsters m).bind fun k =>
    if ¬k.m_bNearClient ∨ k.isStatusDead then some s
    else if k.nHealth = 0 then some (s.updMonster m (·.setNearClient idle.nearClient))
    else ((s.updMonster m (·.setNearClient idle.nearClient)).processMove m idle ct).expireTamer m ct

/-! ## Events -/

inductive TamingEvent
  | login (t : Tamer)
  | logout (p : Handle)
  | spawn (k : TameMonster)
  | despawn (m : Handle)
  | tame (m p : Handle) (nSkillLevel : Int) (ct : Nat)
  | hit (m : Handle) (pFrom : Attacker) (nDamage : Nat) (dist : ℚ) (rnd : Int) (ct : Nat)
  | update (m : Handle) (idle : Idle) (ct : Nat)
  | enter (m : Handle)
  | addHealth (m : Handle) (hp : Int)
  | setPlayerHealth (p : Handle) (hp : Int)
  | learn (p : Handle) (skill : TamingSkill)
  | push (p : Handle) (c : Card)
  | pop (p : Handle) (i : Nat) (cnt : Int)
  | erase (p : Handle) (i : Nat) (cnt : Int)

def login (s : TamingWorld) (t : Tamer) : TamingWorld :=
  { s with
    players := fun h => if h = s.nextHandle then some t.entered else s.players h
    nextHandle := s.nextHandle + 1 }

def spawn (s : TamingWorld) (k : TameMonster) : TamingWorld :=
  { s with
    monsters := fun h => if h = s.nextHandle then some k.newborn else s.monsters h
    nextHandle := s.nextHandle + 1 }

def removePlayer (s : TamingWorld) (p : Handle) : TamingWorld :=
  { s with players := fun h => if h = p then none else s.players h }

def removeMonster (s : TamingWorld) (m : Handle) : TamingWorld :=
  { s with monsters := fun h => if h = m then none else s.monsters h }

def handleTaming (s : TamingWorld) : TamingEvent → Option TamingWorld
  | .login t => some (s.login t)
  -- neither `LogoutNow` nor the destructor looks at the target
  | .logout p => some (s.removePlayer p)
  | .spawn k => if 0 < k.nMaxHealth then some (s.spawn k) else none
  -- `processDead`, some time after the death
  | .despawn m => (s.monsters m).bind fun k =>
      if k.isStatusDead then some (s.removeMonster m) else none
  | .tame m p nSkillLevel ct => some (s.setTamer m p nSkillLevel ct)
  | .hit m pFrom nDamage dist rnd ct => (s.hit m pFrom nDamage dist rnd ct).map Prod.snd
  | .update m idle ct => s.update m idle ct
  | .enter m => some (s.updMonster m (·.setNearClient true))
  | .addHealth m hp => some (s.updMonster m fun k => k.setHealth (k.nHealth + hp))
  | .setPlayerHealth p hp => some (s.updPlayer p (·.setHealth hp))
  | .learn p skill => some (s.updPlayer p (·.setSkill skill))
  | .push p c => some (s.updList p (pushCard · c))
  | .pop p i cnt => some (s.updList p (popCard · i cnt))
  | .erase p i cnt => some (s.updList p (eraseCard · i cnt))

end TamingWorld

end RZEmulator.Chihiro
