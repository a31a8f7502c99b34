import RZEmulator.Lib.Keyed
import RZEmulator.Lib.Run

/-!
# The player of a session

A session has a pointer `m_pPlayer` to the player whom the client plays. `onLogin` sets it,
`onReturnToLobby` frees the player and clears it, and all the other handlers of `worldPacketHandler` run
in every phase of the session, whether there is a player or not. This file says for each handler whether
it dereferences the pointer: always, only after a check for null, or depending on the packet and on what
the server holds at that moment (`Server`). What a handler does to a player it has found is left out.

A handler has no result if it dereferences the null pointer or a pointer to an object that has been
freed. `DeleteThis` marks an object, and the next `MemoryPoolMgr::Update` frees it. An address is not
used twice.
-/

namespace RZEmulator.Chihiro.WorldSession

open Lib

/-- A `Player` that the session has allocated and that has not been freed. -/
structure Player where
  /-- The address of the object. -/
  ptr : Nat
  inWorld : Bool := false
  bDeleteRequest : Bool := false
  deriving DecidableEq

structure State where
  /-- `none` is the null pointer. -/
  m_pPlayer : Option Nat
  isAuthed : Bool
  accountId : Nat
  /-- `Socket::_closed`. -/
  closed : Bool
  players : List Player
  /-- The address of the next object. -/
  nextPtr : Nat

structure Item where
  nCount : Int
  status_flag : Nat

/-- What the handlers look up in the rest of the server. -/
structure Server where
  /-- `Player::ReadCharacter`: the account has a character of that name, and all of it can be read. -/
  readCharacter : String → Nat → Bool
  /-- `RegionContainer::GetRegion` finds a region at the position of the character. -/
  getRegion : String → Bool
  /-- `Player::FindPlayer`. -/
  findPlayer : String → Bool
  /-- `GetObjectInWorld<NPC>`. -/
  npc : Nat → Bool
  /-- `GetObjectInWorld<WorldObject>`, if the object is in the world. -/
  object : Nat → Bool
  /-- `GetObjectInWorld<Item>`. -/
  item : Nat → Option Item
  /-- `Player::IsMixable`. -/
  isMixable : Nat → Bool
  /-- `MixManager::GetProperMixInfo` finds a recipe for a main item and the others. -/
  getProperMixInfo : Option Nat → List (Nat × Nat) → Bool

/-! ## Players -/

namespace Player

/-- `Player::CleanupsBeforeDelete`, which removes the player from the world. -/
def cleanupsBeforeDelete (p : Player) : Player := { p with inWorld := false }

def deleteThis (p : Player) : Player := { p with bDeleteRequest := true }

/-- `Player::SendLoginProperties`: `AddObjectToWorld` adds the player to the region at its position. -/
def sendLoginProperties (p : Player) (region : Bool) : Player :=
  { p with inWorld := p.inWorld || region }

/-- `Player::PendWarp`: a player in the world leaves it, and enters it again if there is a region at the
new position. -/
def pendWarp (p : Player) (region : Bool) : Player := { p with inWorld := p.inWorld && region }

end Player

namespace State

/-- The object that `m_pPlayer` points to. -/
def player (s : State) : Option Player :=
  s.m_pPlayer.bind fun a => s.players.find? fun p => decide (p.ptr = a)

/-- Changes the object at an address. -/
def modify (s : State) (a : Nat) (f : Player → Player) : State :=
  { s with players := s.players.map fun p => if p.ptr = a then f p else p }

/-- Calls a function of the object that `m_pPlayer` points to. -/
def onPlayer (s : State) (f : Player → Player) : Option State :=
  s.player.map fun p => s.modify p.ptr f

def newPlayer (s : State) : Player := { ptr := s.nextPtr }

/-- `MemoryPoolMgr::AllocPlayer`, assigned to `m_pPlayer`. -/
def allocPlayer (s : State) : State :=
  { s with
    m_pPlayer := some s.nextPtr
    players := s.players ++ [s.newPlayer]
    nextPtr := s.nextPtr + 1 }

/-- `MemoryPoolMgr::Update`. -/
def update (s : State) : State :=
  { s with players := s.players.filter fun p => !p.bDeleteRequest }

/-- The players of the session that are in the world. -/
def inWorld (s : State) : List Player := s.players.filter (·.inWorld)

end State

/-! ## Handlers -/

/-- How a piece of code uses `m_pPlayer`. -/
inductive Access
  | unused
  /-- It does nothing if the pointer is null, and dereferences it otherwise. -/
  | checked
  | deref
  deriving DecidableEq

def State.access (s : State) : Access → Option State
  | .unused => some s
  | .checked => if s.m_pPlayer = none then some s else s.player.map fun _ => s
  | .deref => s.player.map fun _ => s

section Handlers

variable (srv : Server) (s : State)

def onAuthResult (success : Bool) (nAccountID : Nat) : Option State :=
  some (if success then { s with isAuthed := true, accountId := nAccountID } else s)

/-- The player is allocated in any case. If the character cannot be read it is marked for deletion, and
`m_pPlayer` keeps pointing to it. -/
def onLogin (name : String) : Option State :=
  if srv.readCharacter name s.accountId then
    s.allocPlayer.onPlayer (·.sendLoginProperties (srv.getRegion name))
  else s.allocPlayer.onPlayer (·.deleteThis)

def onReturnToLobby : Option State :=
  if s.m_pPlayer = none then some s
  else (s.onPlayer (·.cleanupsBeforeDelete.deleteThis)).map fun s => { s with m_pPlayer := none }

/-- `WorldSession::OnClose`, and the destructor: without a player there is nothing to return from. -/
def onClose : Option State := onReturnToLobby s

/-- `Socket::CloseSocket`. -/
def closeSocket : Option State := if s.closed then some s else onClose { s with closed := true }

def kickPlayer : Option State := closeSocket s

/-! ### Chat -/

inductive ChatType
  | normal | adv | whisper | global | party
  | other
  deriving DecidableEq

structure AllowedCommand where
  szCommand : String
  bNeedsPermission : Bool
  /-- How the handler of the command uses the client. -/
  handler : Access

def commandHandler : List AllowedCommand :=
  [⟨"/run", true, .deref⟩, ⟨"/sitdown", false, .checked⟩, ⟨"/standup", false, .checked⟩,
    ⟨"/position", false, .deref⟩, ⟨"/battle", false, .unused⟩, ⟨"/notice", true, .unused⟩,
    ⟨"/suicide", true, .unused⟩, ⟨"/doit", true, .deref⟩, ⟨"/pcreate", false, .deref⟩,
    ⟨"/regenerate", true, .deref⟩, ⟨"/pinvite", false, .deref⟩, ⟨"/pjoin", false, .checked⟩,
    ⟨"/plist", false, .checked⟩, ⟨"/pdestroy", false, .deref⟩, ⟨"/pleave", false, .checked⟩]

/-- How a command uses the client: one that needs a permission asks the client for it first. -/
def AllowedCommand.access (c : AllowedCommand) : Access :=
  if c.bNeedsPermission then .deref else c.handler

/-- The first token of `Tokenizer(szMessage, ' ')`. -/
def firstWord (szMessage : String) : List Char := szMessage.toList.takeWhile (· ≠ ' ')

/-- `AllowedCommandInfo::Run`. -/
def runCommand (szMessage : String) : List AllowedCommand → State → Option State
  | [], s => some s
  | c :: cs, s =>
    if c.szCommand.toList = firstWord szMessage then
      (s.access c.access).bind (runCommand szMessage cs)
    else runCommand szMessage cs s

def onChatRequest (type : ChatType) (szTarget message : String) : Option State :=
  if type ≠ .whisper ∧ message.toList.head? = some '/' then runCommand message commandHandler s
  else match type with
    | .normal => s.access .deref
    | .adv => s.access .deref
    | .whisper => if srv.findPlayer szTarget then s.access .deref else s.access .checked
    | .global => s.access .deref
    | .party => s.access .deref
    | .other => some s

/-! ### Crafting -/

/-- `MixManager::check_mixable_item`: whether it returns an item. -/
def checkMixableItem (hItem nItemCount : Nat) : Option Bool :=
  match srv.item hItem with
  | none => some false
  | some retItem =>
    if retItem.nCount < nItemCount then (s.access .checked).map fun _ => false
    else if retItem.status_flag.testBit 2 then (s.access .checked).map fun _ => false
    else (s.access .deref).map fun _ => srv.isMixable hItem

/-- The loop of `onMixRequest` over the items that are mixed with the main item. -/
def checkSubItems : List (Nat × Nat) → Option Bool
  | [] => some true
  | (handle, count) :: rest => (checkMixableItem srv s handle count).bind fun found =>
    if found then checkSubItems rest else some false

/-- The mixing itself returns at once if there is no main item. If there are no other items either,
nobody has looked at the player until then. -/
def onMixRequest (hMain : Nat) (sub_items : List (Nat × Nat)) : Option State :=
  if 9 < sub_items.length then kickPlayer s
  else (checkMixableItem srv s hMain 1).bind fun main =>
    if hMain ≠ 0 ∧ main = false then some s
    else (checkSubItems srv s sub_items).bind fun found =>
      if found = false then some s
      else if srv.getProperMixInfo (if main then some hMain else none) sub_items ∧ main = false then some s
      else s.access .checked

/-! ### Handlers without a check for null -/

@[simp] def onPutOnItem : Option State := s.access .deref
@[simp] def onPutOffItem : Option State := s.access .deref
@[simp] def onBuyItem : Option State := s.access .deref
@[simp] def onChangeLocation : Option State := s.access .deref
@[simp] def onTimeSync : Option State := s.access .deref
@[simp] def onUpdate : Option State := s.access .deref
@[simp] def onJobLevelUp : Option State := s.access .deref
@[simp] def onUseItem : Option State := s.access .deref
@[simp] def onSoulStoneCraft : Option State := s.access .deref

/-- `SendDropResult` dereferences the pointer too. -/
@[simp] def onDropItem : Option State := s.access .deref

@[simp] def onContact (handle : Nat) : Option State := s.access (if srv.npc handle then .deref else .unused)
@[simp] def onDialog (trigger : String) : Option State := s.access (if trigger = "" then .unused else .deref)
@[simp] def onQuery (handle : Nat) : Option State := s.access (if srv.object handle then .deref else .unused)
@[simp] def onSetProperty (name : String) : Option State :=
  s.access (if name = "client_info" then .deref else .unused)
@[simp] def onUnBindSkillCard (hItem : Nat) : Option State :=
  s.access (if (srv.item hItem).isSome then .deref else .checked)

/-! ### Handlers that leave the check to `Messages` -/

@[simp] def onLogoutTimerRequest : Option State := s.access .checked
@[simp] def onGetSummonSetupInfo : Option State := s.access .checked
@[simp] def onGameTime : Option State := s.access .checked

/-! ### Handlers with a check for null -/

@[simp] def onMoveRequest : Option State := s.access .checked
@[simp] def onRegionUpdate : Option State := s.access .checked
@[simp] def onTrade : Option State := s.access .checked
@[simp] def onLearnSkill : Option State := s.access .checked
@[simp] def onEquipSummon : Option State := s.access .checked
@[simp] def onSellItem : Option State := s.access .checked
@[simp] def onSkill : Option State := s.access .checked
@[simp] def onAttackRequest : Option State := s.access .checked
@[simp] def onCancelAction : Option State := s.access .checked
@[simp] def onTakeItem : Option State := s.access .checked
@[simp] def onRevive : Option State := s.access .checked
@[simp] def onStorage : Option State := s.access .checked
@[simp] def onBindSkillCard : Option State := s.access .checked
@[simp] def onDropQuest : Option State := s.access .checked

/-! ### Handlers that have no use for the player -/

@[simp] def onAccountWithAuth : Option State := s.access .unused
@[simp] def onPing : Option State := s.access .unused
@[simp] def onRequestReturnToLobby : Option State := s.access .unused
@[simp] def onCharacterList : Option State := s.access .unused
@[simp] def onCharacterName : Option State := s.access .unused
@[simp] def onCreateCharacter : Option State := s.access .unused
@[simp] def onDeleteCharacter : Option State := s.access .unused

end Handlers

/-! ## Dispatch -/

/-- The packets, with the fields that decide how `m_pPlayer` is used. -/
inductive Packet
  /-- `TS_AG_CLIENT_LOGIN`. -/
  | authResult (success : Bool) (nAccountID : Nat)
  | accountWithAuth | ping
  | requestLogout | returnLobby | requestReturnLobby | characterList
  | login (name : String)
  | checkCharacterName | createCharacter | deleteCharacter
  | moveRequest | regionUpdate
  | chatRequest (type : ChatType) (szTarget message : String)
  | putonItem | putoffItem | getSummonSetupInfo
  | contact (handle : Nat)
  | dialog (trigger : String)
  | buyItem | changeLocation | timesync | gameTime
  | query (handle : Nat)
  | mix (hMain : Nat) (sub_items : List (Nat × Nat))
  | trade | update | jobLevelUp | learnSkill | equipSummon | sellItem | skill
  | setProperty (name : String)
  | attackRequest | takeItem | useItem | dropItem | resurrection | soulstoneCraft | storage
  | bindSkillcard
  | unbindSkillcard (item_handle : Nat)
  | dropQuest | cancelAction
  /-- A packet that is not in `worldPacketHandler`. -/
  | unknown

/-- The status of a handler is `STATUS_AUTHED`. -/
def Packet.authed : Packet → Bool
  | .authResult _ _ => false
  | .accountWithAuth => false
  | .ping => false
  | _ => true

/-- The handlers of `worldPacketHandler`. -/
def handler (srv : Server) (s : State) : Packet → Option State
  | .authResult success nAccountID => onAuthResult s success nAccountID
  | .accountWithAuth => onAccountWithAuth s
  | .ping => onPing s
  | .requestLogout => onLogoutTimerRequest s
  | .returnLobby => onReturnToLobby s
  | .requestReturnLobby => onRequestReturnToLobby s
  | .characterList => onCharacterList s
  | .login name => onLogin srv s name
  | .checkCharacterName => onCharacterName s
  | .createCharacter => onCreateCharacter s
  | .deleteCharacter => onDeleteCharacter s
  | .moveRequest => onMoveRequest s
  | .regionUpdate => onRegionUpdate s
  | .chatRequest type szTarget message => onChatRequest srv s type szTarget message
  | .putonItem => onPutOnItem s
  | .putoffItem => onPutOffItem s
  | .getSummonSetupInfo => onGetSummonSetupInfo s
  | .contact handle => onContact srv s handle
  | .dialog trigger => onDialog s trigger
  | .buyItem => onBuyItem s
  | .changeLocation => onChangeLocation s
  | .timesync => onTimeSync s
  | .gameTime => onGameTime s
  | .query handle => onQuery srv s handle
  | .mix hMain sub_items => onMixRequest srv s hMain sub_items
  | .trade => onTrade s
  | .update => onUpdate s
  | .jobLevelUp => onJobLevelUp s
  | .learnSkill => onLearnSkill s
  | .equipSummon => onEquipSummon s
  | .sellItem => onSellItem s
  | .skill => onSkill s
  | .setProperty name => onSetProperty s name
  | .attackRequest => onAttackRequest s
  | .takeItem => onTakeItem s
  | .useItem => onUseItem s
  | .dropItem => onDropItem s
  | .resurrection => onRevive s
  | .soulstoneCraft => onSoulStoneCraft s
  | .storage => onStorage s
  | .bindSkillcard => onBindSkillCard s
  | .unbindSkillcard item_handle => onUnBindSkillCard srv s item_handle
  | .dropQuest => onDropQuest s
  | .cancelAction => onCancelAction s
  | .unknown => some s

def processIncoming (srv : Server) (s : State) (p : Packet) : Option State :=
  if p.authed = true ∧ s.isAuthed = false then some s else handler srv s p

/-! ## Runs -/

inductive Event
  /-- A packet arrives, with the server as it is then. -/
  | packet (srv : Server) (p : Packet)
  | closeSocket
  /-- The destructor of the session. -/
  | destroy
  /-- A script or a skill of anybody warps a player of the session. -/
  | pendWarp (ptr : Nat) (region : Bool)
  | poolUpdate

def step (s : State) : Event → Option State
  | .packet srv p => processIncoming srv s p
  | .closeSocket => closeSocket s
  | .destroy => onClose s
  | .pendWarp ptr region => some (s.modify ptr (·.pendWarp region))
  | .poolUpdate => some s.update

/-- A client has connected. -/
def Init (s : State) : Prop :=
  s.m_pPlayer = none ∧ s.isAuthed = false ∧ s.closed = false ∧ s.players = []

abbrev system : System State Event := .ofFun Init step

end RZEmulator.Chihiro.WorldSession
