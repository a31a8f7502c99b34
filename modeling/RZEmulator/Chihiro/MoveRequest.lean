import RZEmulator.Chihiro.LineOfSight
import RZEmulator.Lib.Run

/-!
# Requests to move

`WorldSession::onMoveRequest` for the player himself, with `GetValidWayPoint`, and `Unit::processPendingMove`. The path
of a request is checked from the place of the player to the start that the client gives and along the way points; it
is set from that start at once, or without a start later.

Speeds, rides and summons are left out. Time that passes, and whatever else moves the player, are events that may take
him to any place and any movement.
-/

namespace RZEmulator.Chihiro

open Lib QuadTreeMapInfo

/-- The map with its configuration, and the blocks as they were added to `g_qtBlockInfo`. -/
structure MoveMap where
  /-- `CONFIG_MAP_WIDTH` -/
  mapWidth : Int
  /-- `CONFIG_MAP_HEIGHT` -/
  mapHeight : Int
  /-- `CONFIG_MAP_LENGTH` -/
  mapLength : ℚ
  /-- `CONFIG_NO_COLLISION_CHECK` -/
  noCollisionCheck : Bool
  treeWidth : ℚ
  treeHeight : ℚ
  blocks : List MapLocationInfo

/-- A player as far as his movement goes. -/
structure MovingPlayer where
  /-- What `GetCurrentPosition` finds now. -/
  position : Pointf
  /-- The points ahead. -/
  ends : List Pointf
  /-- `STATUS_MOVE_PENDED` -/
  movePended : Bool
  m_PendingMovePos : List Pointf
  deriving DecidableEq, Repr

structure MoveRequest where
  x : ℚ
  y : ℚ
  move_infos : List Pointf
  deriving DecidableEq, Repr

/-- What `onMoveRequest` asks the player. -/
structure MoveSituation where
  isDead : Bool
  isInWorld : Bool
  /-- `GetNextMovableTime() > t` -/
  unmovableYet : Bool
  isActable : Bool
  isMovable : Bool
  deriving DecidableEq, Repr

def VISIBLE_RANGE : ℚ := 525

def MoveRequest.start (msg : MoveRequest) : Pointf := ⟨msg.x, msg.y⟩

/-- `GetExactDist2d` of two points is more than a length that is not negative. -/
def Pointf.fartherThan (p q : Pointf) (r : ℚ) : Bool := (q.x - p.x) ^ 2 + (q.y - p.y) ^ 2 > r ^ 2

namespace MoveMap

variable (W : MoveMap)

def outside (p : Pointf) : Bool := p.x < 0 || p.x > W.mapWidth || p.y < 0 || p.y > W.mapHeight

def m_MasterNode : Node := addAll (empty W.treeWidth W.treeHeight) W.blocks

/-- `GameContent::CollisionToLine`. -/
def collides (p q : Pointf) : Bool := collisionToLine W.m_MasterNode p.x p.y q.x q.y

/-- `GameContent::IsBlocked`. -/
def isBlocked (p : Pointf) : Bool :=
  if W.outside p then true else if W.noCollisionCheck then false else W.m_MasterNode.collision p

/-! ## The way points -/

/-- After a collision: whether `TS_RESULT_ACCESS_DENIED` has been sent, and the start with the path, which is then the
place of the player. -/
def standStill (curPosFromServer : Pointf) : Bool × Option (Pointf × List Pointf) :=
  (true, if W.isBlocked curPosFromServer then none else some (curPosFromServer, [curPosFromServer]))

/-- The loop over the way points. -/
def wayPointLoop (curPosFromServer start : Pointf) :
    Pointf → List Pointf → List Pointf → Bool × Option (Pointf × List Pointf)
  | _, vMoveInfo, [] => (false, some (start, vMoveInfo))
  | wayPoint, vMoveInfo, mv :: move_infos =>
    if W.outside mv then (true, none)
    else if W.collides wayPoint mv then W.standStill curPosFromServer
    else wayPointLoop curPosFromServer start mv (vMoveInfo ++ [mv]) move_infos

def getValidWayPoint (curPosFromServer : Pointf) (msg : MoveRequest) : Bool × Option (Pointf × List Pointf) :=
  if W.outside msg.start then (true, none)
  else if curPosFromServer.fartherThan msg.start VISIBLE_RANGE then (true, none)
  else if W.collides curPosFromServer msg.start then W.standStill curPosFromServer
  else W.wayPointLoop curPosFromServer msg.start msg.start [] msg.move_infos

end MoveMap

/-! ## Requests and pended moves -/

/-- The player after a step, the path that he was set on with its start, and whether the client was refused by a result
(`TS_RESULT_ACCESS_DENIED` or `TS_RESULT_NOT_ACTABLE`). -/
structure MoveStep where
  player : MovingPlayer
  path : Option (Pointf × List Pointf)
  refused : Bool
  deriving DecidableEq, Repr

namespace MovingPlayer

variable (W : MoveMap) (s : MovingPlayer)

/-- `World::SetMultipleMove` sets the place to the start. -/
def setMultipleMove (curPos : Pointf) (newPos : List Pointf) : MovingPlayer := { s with position := curPos, ends := newPos }

/-- `onMoveRequest` behind `GetValidWayPoint`, with the start and the path that it gives. -/
def moveAlong (c : MoveSituation) (sent : Bool) (start_pos : Pointf) (vMoveInfo : List Pointf) : MoveStep :=
  match vMoveInfo.getLast? with
  | none => ⟨s, none, sent⟩
  | some targetPos =>
    if c.unmovableYet then
      if s.movePended then ⟨s, none, true⟩
      else ⟨{ s with movePended := true, m_PendingMovePos := vMoveInfo }, none, sent⟩
    else if c.isActable = false then ⟨s, none, true⟩
    else if c.isMovable = false then ⟨s, none, true⟩
    else if s.position.fartherThan targetPos W.mapLength then ⟨s, none, sent⟩
    else ⟨{ s.setMultipleMove start_pos vMoveInfo with movePended := false }, some (start_pos, vMoveInfo), sent⟩

def onMoveRequest (c : MoveSituation) (msg : MoveRequest) : MoveStep :=
  if c.isDead || !c.isInWorld then ⟨s, none, false⟩
  else
    match W.getValidWayPoint s.position msg with
    | (sent, none) => ⟨s, none, sent⟩
    | (sent, some (start_pos, vMoveInfo)) => s.moveAlong W c sent start_pos vMoveInfo

/-- `processPendingMove`; `movableAgain` is `m_nMovableTime < ct`. -/
def processPendingMove (movableAgain isActable isMovable : Bool) : MoveStep :=
  if s.movePended && movableAgain then
    if isActable && isMovable then
      ⟨{ s.setMultipleMove s.position s.m_PendingMovePos with movePended := false },
        some (s.position, s.m_PendingMovePos), false⟩
    else ⟨{ s with movePended := false }, none, false⟩
  else ⟨s, none, false⟩

end MovingPlayer

/-! ## Runs -/

inductive MoveEvent
  | request (c : MoveSituation) (msg : MoveRequest)
  | processPendingMove (movableAgain isActable isMovable : Bool)
  /-- time passes, or the player is moved by something else -/
  | elsewhere (position : Pointf) (ends : List Pointf)
  deriving DecidableEq, Repr

def MovingPlayer.handle (W : MoveMap) (s : MovingPlayer) : MoveEvent → MoveStep
  | .request c msg => s.onMoveRequest W c msg
  | .processPendingMove movableAgain isActable isMovable => s.processPendingMove movableAgain isActable isMovable
  | .elsewhere position ends => ⟨{ s with position, ends }, none, false⟩

/-- The runs of a player who has entered the world. -/
def moveSystem (W : MoveMap) : System MovingPlayer MoveEvent :=
  .ofFun (fun s => s.movePended = false) fun s e => some (s.handle W e).player

/-! ## What is claimed -/

namespace MoveMap

variable (W : MoveMap)

/-- The points are inside the map and no segment between neighbours collides. -/
structure Passable (points : List Pointf) : Prop where
  inside : ∀ p ∈ points, W.outside p = false
  free : points.IsChain fun p q => W.collides p q = false

/-- A path is passable from its start on, and a request that is refused changes nothing. -/
structure StepSafe (s : MovingPlayer) (e : MoveEvent) : Prop where
  passable : ∀ start path, (s.handle W e).path = some (start, path) → W.Passable (start :: path)
  refused : (s.handle W e).refused = true →
    (s.handle W e).player.position = s.position ∧ (s.handle W e).player.ends = s.ends

/-- Some line of the request collides, and the player does not stand in a block. -/
def Stops (s : MovingPlayer) (msg : MoveRequest) : Prop :=
  ¬(s.position :: msg.start :: msg.move_infos).IsChain (fun p q => W.collides p q = false) ∧
    W.isBlocked s.position = false

/-- The path of a request is passable from its start on, a pended one from its first way point on; and a request that is
refused changes nothing, but for one that stops the player where he is. -/
structure StepSound (s : MovingPlayer) (e : MoveEvent) : Prop where
  request : ∀ c msg, e = .request c msg → ∀ start path, (s.handle W e).path = some (start, path) →
    W.Passable (start :: path)
  pended : ∀ start path, (s.handle W e).path = some (start, path) → W.Passable path
  refused : (s.handle W e).refused = true →
    ((s.handle W e).player.position = s.position ∧ (s.handle W e).player.ends = s.ends) ∨
      ∃ c msg, e = .request c msg ∧ W.Stops s msg ∧ (s.handle W e).player.position = s.position ∧
        (s.handle W e).player.ends = [s.position]

end MoveMap

/-! ## The checks -/

namespace MoveMap

variable {W : MoveMap} {cur start wayPoint : Pointf} {vMoveInfo move_infos : List Pointf} {msg : MoveRequest}

theorem outside_of_not_isBlocked {p : Pointf} (h : W.isBlocked p = false) : W.outside p = false := by
  unfold isBlocked at h
  cases hout : W.outside p with
  | false => rfl
  | true =>
    rw [hout, if_pos rfl] at h
    exact h

/-- A line without length crosses nothing. -/
theorem collides_self (W : MoveMap) (p : Pointf) : W.collides p p = false := by
  have hcross : ∀ a b : ℚ × ℚ, ¬Crosses a b p.pair p.pair := by
    rintro a b ⟨_, hsides⟩
    have hzero : side p.pair p.pair a = 0 := by
      unfold side
      ring
    rw [hzero, zero_mul] at hsides
    exact hsides.false
  rw [← Bool.not_eq_true]
  intro h
  unfold collides collisionToLine m_MasterNode at h
  rw [Node.looseCollision_of_flat (addAll_empty _ _ _).1, Bool.and_eq_true, List.any_eq_true] at h
  obtain ⟨_, u, _, hu⟩ := h
  obtain ⟨e, _, he⟩ := (PolygonF.isLooseCollision_iff.mp hu).edge
  exact hcross _ _ he

theorem passable_stand (h : W.isBlocked cur = false) : W.Passable [cur, cur] where
  inside p hp := by
    have hp : p = cur := by simpa using hp
    rw [hp]
    exact outside_of_not_isBlocked h
  free := List.isChain_pair.mpr (collides_self W cur)

theorem Passable.tail {p : Pointf} {ps : List Pointf} (h : W.Passable (p :: ps)) : W.Passable ps :=
  ⟨fun q hq => h.inside q (List.mem_cons_of_mem p hq), h.free.tail⟩

/-- The answers of `GetValidWayPoint`: no path, the place of the player, or the path of the request. -/
inductive Valid (W : MoveMap) (cur : Pointf) (msg : MoveRequest) : Bool × Option (Pointf × List Pointf) → Prop
  | no : Valid W cur msg (true, none)
  | stand : W.isBlocked cur = false →
      ¬(cur :: msg.start :: msg.move_infos).IsChain (fun p q => W.collides p q = false) →
      Valid W cur msg (true, some (cur, [cur]))
  | path : W.Passable (msg.start :: msg.move_infos) → Valid W cur msg (false, some (msg.start, msg.move_infos))

theorem valid_standStill (h : ¬(cur :: msg.start :: msg.move_infos).IsChain fun p q => W.collides p q = false) :
    Valid W cur msg (W.standStill cur) := by
  unfold standStill
  cases hblocked : W.isBlocked cur with
  | true => exact .no
  | false => exact .stand hblocked h

/-- The loop: `before` are the points that it has passed. -/
theorem valid_wayPointLoop (rest before : List Pointf) (wayPoint : Pointf)
    (hpoints : msg.start :: msg.move_infos = before ++ wayPoint :: rest)
    (hinfos : msg.move_infos = vMoveInfo ++ rest) (hpassed : W.Passable (before ++ [wayPoint])) :
    Valid W cur msg (W.wayPointLoop cur msg.start wayPoint vMoveInfo rest) := by
  induction rest generalizing before wayPoint vMoveInfo with
  | nil =>
    unfold wayPointLoop
    rw [List.append_nil] at hinfos
    rw [← hinfos]
    refine .path ?_
    rw [hpoints]
    exact hpassed
  | cons mv rest ih =>
    unfold wayPointLoop
    by_cases hout : W.outside mv = true
    · rw [if_pos hout]
      exact .no
    rw [if_neg hout]
    by_cases hcollides : W.collides wayPoint mv = true
    · rw [if_pos hcollides]
      refine valid_standStill fun hchain => ?_
      rw [hpoints, ← List.cons_append] at hchain
      have hnext := List.isChain_cons_cons.mp (List.isChain_append.mp hchain).2.1
      rw [hcollides] at hnext
      exact Bool.noConfusion hnext.1
    rw [if_neg hcollides]
    refine ih (before ++ [wayPoint]) mv ?_ ?_ ⟨fun p hp => ?_, ?_⟩
    · rw [hpoints, List.append_assoc]
      rfl
    · rw [hinfos, List.append_assoc]
      rfl
    · rcases List.mem_append.mp hp with hp | hp
      · exact hpassed.inside p hp
      · rw [List.mem_singleton.mp hp]
        exact (Bool.not_eq_true _).mp hout
    · rw [List.append_assoc]
      refine List.isChain_append.mpr ⟨(List.isChain_append.mp hpassed.free).1, ?_, ?_⟩
      · exact List.isChain_pair.mpr ((Bool.not_eq_true _).mp hcollides)
      · exact (List.isChain_append.mp hpassed.free).2.2

theorem valid_getValidWayPoint (W : MoveMap) (cur : Pointf) (msg : MoveRequest) :
    Valid W cur msg (W.getValidWayPoint cur msg) := by
  unfold getValidWayPoint
  by_cases hout : W.outside msg.start = true
  · rw [if_pos hout]
    exact .no
  rw [if_neg hout]
  by_cases hfar : cur.fartherThan msg.start VISIBLE_RANGE = true
  · rw [if_pos hfar]
    exact .no
  rw [if_neg hfar]
  by_cases hcollides : W.collides cur msg.start = true
  · rw [if_pos hcollides]
    refine valid_standStill fun hchain => ?_
    rw [(List.isChain_cons_cons.mp hchain).1] at hcollides
    exact Bool.noConfusion hcollides
  · rw [if_neg hcollides]
    refine valid_wayPointLoop _ [] _ rfl rfl ⟨fun p hp => ?_, List.isChain_singleton _⟩
    rw [List.mem_singleton.mp hp]
    exact (Bool.not_eq_true _).mp hout

/-! ## Steps and runs -/

variable {s : MovingPlayer} {c : MoveSituation} {sent : Bool} {path : List Pointf}

/-- What is pended is passable from its first point on. -/
def PendedSound (W : MoveMap) (s : MovingPlayer) : Prop := s.movePended = true → W.Passable s.m_PendingMovePos

/-- What becomes of a start and a path. -/
structure Along (W : MoveMap) (s : MovingPlayer) (sent : Bool) (start : Pointf) (points : List Pointf) (r : MoveStep) :
    Prop where
  path : ∀ a l, r.path = some (a, l) → a = start ∧ l = points
  pended : PendedSound W r.player
  refused : r.refused = true → (r.player.position = s.position ∧ r.player.ends = s.ends) ∨
    (sent = true ∧ r.player.position = start ∧ r.player.ends = points)

theorem along_rest (h : PendedSound W s) (refused : Bool) : Along W s sent start path ⟨s, none, refused⟩ :=
  ⟨nofun, h, fun _ => Or.inl ⟨rfl, rfl⟩⟩

theorem along_moveAlong (h : PendedSound W s) (hpath : W.Passable path) :
    Along W s sent start path (s.moveAlong W c sent start path) := by
  unfold MovingPlayer.moveAlong
  split
  · exact along_rest h sent
  · rename_i targetPos _
    by_cases hunmovable : c.unmovableYet = true
    · rw [if_pos hunmovable]
      by_cases hpended : s.movePended = true
      · rw [if_pos hpended]
        exact along_rest h true
      · rw [if_neg hpended]
        exact ⟨nofun, fun _ => hpath, fun _ => Or.inl ⟨rfl, rfl⟩⟩
    rw [if_neg hunmovable]
    by_cases hactable : c.isActable = false
    · rw [if_pos hactable]
      exact along_rest h true
    rw [if_neg hactable]
    by_cases hmovable : c.isMovable = false
    · rw [if_pos hmovable]
      exact along_rest h true
    rw [if_neg hmovable]
    by_cases hfar : s.position.fartherThan targetPos W.mapLength = true
    · rw [if_pos hfar]
      exact along_rest h sent
    · rw [if_neg hfar]
      refine ⟨fun a l hal => ?_, nofun, fun hsent => Or.inr ⟨hsent, rfl, rfl⟩⟩
      obtain ⟨rfl, rfl⟩ := Prod.mk.inj (Option.some.inj hal)
      exact ⟨rfl, rfl⟩

theorem sound_rest (h : PendedSound W s) {e : MoveEvent} {refused : Bool} (hrest : s.handle W e = ⟨s, none, refused⟩) :
    W.StepSound s e ∧ PendedSound W (s.handle W e).player := by
  rw [hrest]
  refine ⟨⟨?_, ?_, ?_⟩, h⟩ <;> rw [hrest]
  · exact fun _ _ _ _ _ => nofun
  · exact fun _ _ => nofun
  · exact fun _ => Or.inl ⟨rfl, rfl⟩

/-- A request that moves along a passable path. -/
theorem Along.sound {c : MoveSituation} {msg : MoveRequest} {r : MoveStep} (halong : Along W s sent start path r)
    (hr : s.handle W (.request c msg) = r) (hpass : W.Passable (start :: path))
    (hstop : sent = true → W.Stops s msg ∧ start = s.position ∧ path = [s.position]) :
    W.StepSound s (.request c msg) ∧ PendedSound W (s.handle W (.request c msg)).player := by
  subst hr
  refine ⟨⟨fun _ _ _ a l hpath => ?_, fun a l hpath => ?_, fun hrefused => ?_⟩, halong.pended⟩
  · obtain ⟨rfl, rfl⟩ := halong.path a l hpath
    exact hpass
  · obtain ⟨rfl, rfl⟩ := halong.path a l hpath
    exact hpass.tail
  · refine (halong.refused hrefused).imp_right fun ⟨hsent, hposition, hends⟩ => ?_
    obtain ⟨hstops, rfl, rfl⟩ := hstop hsent
    exact ⟨c, msg, rfl, hstops, hposition, hends⟩

theorem sound_request (h : PendedSound W s) (c : MoveSituation) (msg : MoveRequest) :
    W.StepSound s (.request c msg) ∧ PendedSound W (s.handle W (.request c msg)).player := by
  by_cases haway : (c.isDead || !c.isInWorld) = true
  · exact sound_rest h (if_pos haway)
  have hanswer : s.handle W (.request c msg) = match W.getValidWayPoint s.position msg with
      | (sent, none) => ⟨s, none, sent⟩
      | (sent, some (start_pos, vMoveInfo)) => s.moveAlong W c sent start_pos vMoveInfo := if_neg haway
  have hvalid := valid_getValidWayPoint W s.position msg
  generalize W.getValidWayPoint s.position msg = answer at hanswer hvalid
  cases hvalid with
  | no => exact sound_rest h hanswer
  | stand hfree hcollides =>
    have hpass := passable_stand hfree
    exact (along_moveAlong h hpass.tail).sound hanswer hpass fun _ => ⟨⟨hcollides, hfree⟩, rfl, rfl⟩
  | path hpass => exact (along_moveAlong h hpass.tail).sound hanswer hpass fun hsent => nomatch hsent

theorem sound_processPendingMove (h : PendedSound W s) (movableAgain isActable isMovable : Bool) :
    W.StepSound s (.processPendingMove movableAgain isActable isMovable) ∧
      PendedSound W (s.handle W (.processPendingMove movableAgain isActable isMovable)).player := by
  by_cases hdue : (s.movePended && movableAgain) = true
  · by_cases hable : (isActable && isMovable) = true
    · have hstep : s.handle W (.processPendingMove movableAgain isActable isMovable) =
          ⟨{ s.setMultipleMove s.position s.m_PendingMovePos with movePended := false },
            some (s.position, s.m_PendingMovePos), false⟩ := (if_pos hdue).trans (if_pos hable)
      refine ⟨⟨nofun, fun start path hpath => ?_, fun hrefused => ?_⟩, ?_⟩
      · rw [hstep] at hpath
        obtain ⟨rfl, rfl⟩ := Prod.mk.inj (Option.some.inj hpath)
        exact h (Bool.and_eq_true _ _ ▸ hdue).1
      · rw [hstep] at hrefused
        cases hrefused
      · rw [hstep]
        exact nofun
    · have hstep : s.handle W (.processPendingMove movableAgain isActable isMovable) =
          ⟨{ s with movePended := false }, none, false⟩ := (if_pos hdue).trans (if_neg hable)
      refine ⟨⟨nofun, fun start path hpath => ?_, fun hrefused => ?_⟩, ?_⟩
      · rw [hstep] at hpath
        cases hpath
      · rw [hstep] at hrefused
        cases hrefused
      · rw [hstep]
        exact nofun
  · exact sound_rest h (if_neg hdue)

theorem sound_step (h : PendedSound W s) (e : MoveEvent) :
    W.StepSound s e ∧ PendedSound W (s.handle W e).player := by
  cases e with
  | request c msg => exact sound_request h c msg
  | processPendingMove movableAgain isActable isMovable => exact sound_processPendingMove h _ _ _
  | elsewhere position ends =>
    have hstep : s.handle W (.elsewhere position ends) = ⟨{ s with position, ends }, none, false⟩ := rfl
    refine ⟨⟨fun _ _ he => ?_, fun start path hpath => ?_, fun hrefused => ?_⟩, h⟩
    · cases he
    · rw [hstep] at hpath
      cases hpath
    · rw [hstep] at hrefused
      cases hrefused

end MoveMap

/-! ## A map with a wall -/

def walledMap : MoveMap where
  mapWidth := 100
  mapHeight := 100
  mapLength := 100
  noCollisionCheck := false
  treeWidth := 100
  treeHeight := 100
  blocks := [wall]

/-- A player who can move. -/
def readyToMove : MoveSituation := ⟨false, true, false, true, true⟩

/-- He stands to the left of the wall. -/
def standing : MovingPlayer := ⟨⟨0, 4⟩, [], false, []⟩

end RZEmulator.Chihiro
