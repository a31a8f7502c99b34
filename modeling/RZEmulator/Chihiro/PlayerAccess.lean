import RZEmulator.Chihiro.WorldSession

/-!
# What the handlers need of the player

`needsPlayer` names the packets whose handler dereferences `m_pPlayer` without a check for null. Apart
from the handlers that change the session, this is all there is to know about a handler: with a player it
leaves the session as it is (`handler_of_player`), and with the null pointer it does so unless it needs a
player (`handler_of_null`).
-/

namespace RZEmulator.Chihiro.WorldSession

open Lib

variable {s : State} {srv : Server} {p : Player}

/-! ## The pointer -/

theorem State.player_eq_some_iff (hs : (s.players.map (·.ptr)).Nodup) :
    s.player = some p ↔ p ∈ s.players ∧ s.m_pPlayer = some p.ptr := by
  unfold State.player
  cases hptr : s.m_pPlayer with
  | none => simp
  | some a =>
    rw [Option.bind_some, find?_key_eq_some_iff hs, Option.some.injEq]
    exact and_congr_right fun _ => eq_comm

theorem State.access_of_player (h : s.player = some p) (x : Access) : s.access x = some s := by
  cases x with
  | unused => rfl
  | checked =>
    show (if s.m_pPlayer = none then some s else s.player.map fun _ => s) = some s
    rw [h, Option.map_some, ite_self]
  | deref =>
    show (s.player.map fun _ => s) = some s
    rw [h, Option.map_some]

theorem State.access_of_null (h : s.m_pPlayer = none) (x : Access) :
    s.access x = if x = .deref then none else some s := by
  have hplayer : s.player = none := by
    unfold State.player
    rw [h, Option.bind_none]
  cases x with
  | unused => rfl
  | checked =>
    show (if s.m_pPlayer = none then some s else _) = _
    rw [if_pos h, if_neg (by decide)]
  | deref =>
    show (s.player.map fun _ => s) = _
    rw [hplayer, Option.map_none, if_pos rfl]

/-! ## What the handlers need -/

/-- A command of the chat dereferences the client without a check. -/
def commandNeedsPlayer (message : String) : Bool :=
  commandHandler.any fun c => decide (c.szCommand.toList = firstWord message ∧ c.access = .deref)

def chatNeedsPlayer (srv : Server) (type : ChatType) (szTarget message : String) : Bool :=
  if type ≠ .whisper ∧ message.toList.head? = some '/' then commandNeedsPlayer message
  else if type = .whisper then srv.findPlayer szTarget else decide (type ≠ .other)

/-- `check_mixable_item` gets as far as asking the player about the item. -/
def reachesPlayer (srv : Server) (hItem nItemCount : Nat) : Bool :=
  (srv.item hItem).any fun it => decide (¬it.nCount < (nItemCount : Int)) && !it.status_flag.testBit 2

/-- Without a player, `onMixRequest` stops at the first item that it does not get, and it gets none. -/
def mixNeedsPlayer (srv : Server) (hMain : Nat) (sub_items : List (Nat × Nat)) : Bool :=
  decide (sub_items.length ≤ 9) && (reachesPlayer srv hMain 1 ||
    decide (hMain = 0) && sub_items.head?.any fun x => reachesPlayer srv x.1 x.2)

/-- The handler of the packet dereferences `m_pPlayer` without a check for null. -/
def needsPlayer (srv : Server) : Packet → Bool
  | .chatRequest type szTarget message => chatNeedsPlayer srv type szTarget message
  | .putonItem => true
  | .putoffItem => true
  | .contact handle => srv.npc handle
  | .dialog trigger => decide (trigger ≠ "")
  | .buyItem => true
  | .changeLocation => true
  | .timesync => true
  | .query handle => srv.object handle
  | .mix hMain sub_items => mixNeedsPlayer srv hMain sub_items
  | .update => true
  | .jobLevelUp => true
  | .setProperty name => decide (name = "client_info")
  | .useItem => true
  | .dropItem => true
  | .soulstoneCraft => true
  | .unbindSkillcard item_handle => (srv.item item_handle).isSome
  | _ => false

/-- The handler of the packet leaves the session as it is. -/
def Packet.keeps : Packet → Bool
  | .authResult _ _ => false
  | .returnLobby => false
  | .login _ => false
  | .mix _ sub_items => decide (sub_items.length ≤ 9)
  | _ => true

theorem runCommand_of_player (h : s.player = some p) (message : String) (l : List AllowedCommand) :
    runCommand message l s = some s := by
  induction l with
  | nil => rfl
  | cons c cs ih =>
    unfold runCommand
    rw [State.access_of_player h, Option.bind_some, ih, ite_self]

theorem runCommand_of_null (h : s.m_pPlayer = none) (message : String) (l : List AllowedCommand) :
    runCommand message l s = if (l.any fun c =>
      decide (c.szCommand.toList = firstWord message ∧ c.access = .deref)) then none else some s := by
  induction l with
  | nil => rfl
  | cons c cs ih =>
    unfold runCommand
    rw [State.access_of_null h, ih, List.any_cons]
    by_cases hc : c.szCommand.toList = firstWord message
    · rw [if_pos hc]
      by_cases hx : c.access = .deref
      · simp [hc, hx]
      · rw [if_neg hx, Option.bind_some, ih, decide_eq_false (fun h => hx h.2), Bool.false_or]
    · rw [if_neg hc, decide_eq_false (fun h => hc h.1), Bool.false_or]

theorem checkMixableItem_of_player (srv : Server) (h : s.player = some p) (hItem nItemCount : Nat) :
    ∃ found, checkMixableItem srv s hItem nItemCount = some found := by
  unfold checkMixableItem
  cases srv.item hItem with
  | none => exact ⟨_, rfl⟩
  | some it =>
    dsimp only
    simp only [State.access_of_player h, Option.map_some]
    split_ifs <;> exact ⟨_, rfl⟩

theorem checkMixableItem_of_null (h : s.m_pPlayer = none) (hItem nItemCount : Nat) :
    checkMixableItem srv s hItem nItemCount =
      if reachesPlayer srv hItem nItemCount then none else some false := by
  unfold checkMixableItem reachesPlayer
  cases srv.item hItem with
  | none => rfl
  | some it =>
    simp only [State.access_of_null h, Option.any_some]
    by_cases hcount : it.nCount < (nItemCount : Int)
    · simp [hcount]
    · by_cases hflag : it.status_flag.testBit 2 = true
      · simp [hcount, hflag]
      · simp [hcount, hflag]

theorem checkSubItems_of_player (srv : Server) (h : s.player = some p) (l : List (Nat × Nat)) :
    ∃ found, checkSubItems srv s l = some found := by
  induction l with
  | nil => exact ⟨true, rfl⟩
  | cons x rest ih =>
    obtain ⟨found, hfound⟩ := checkMixableItem_of_player srv h x.1 x.2
    show ∃ found, (checkMixableItem srv s x.1 x.2).bind _ = some found
    rw [hfound, Option.bind_some]
    split_ifs
    · exact ih
    · exact ⟨_, rfl⟩

theorem checkSubItems_of_null (h : s.m_pPlayer = none) (l : List (Nat × Nat)) :
    checkSubItems srv s l = if l.head?.any (fun x => reachesPlayer srv x.1 x.2) then none
      else some l.isEmpty := by
  cases l with
  | nil => rfl
  | cons x rest =>
    show (checkMixableItem srv s x.1 x.2).bind _ = _
    rw [checkMixableItem_of_null h]
    by_cases hx : reachesPlayer srv x.1 x.2 = true
    · simp [hx]
    · simp [hx]

theorem onMixRequest_of_player (h : s.player = some p) {hMain : Nat} {sub_items : List (Nat × Nat)}
    (hlen : sub_items.length ≤ 9) : onMixRequest srv s hMain sub_items = some s := by
  obtain ⟨main, hmain⟩ := checkMixableItem_of_player srv h hMain 1
  obtain ⟨found, hfound⟩ := checkSubItems_of_player srv h sub_items
  unfold onMixRequest
  rw [if_neg (Nat.not_lt.mpr hlen), hmain, Option.bind_some, hfound, Option.bind_some,
    State.access_of_player h, ite_self, ite_self, ite_self]

theorem onMixRequest_of_null (h : s.m_pPlayer = none) {hMain : Nat} {sub_items : List (Nat × Nat)}
    (hlen : sub_items.length ≤ 9) : onMixRequest srv s hMain sub_items =
      if mixNeedsPlayer srv hMain sub_items then none else some s := by
  unfold onMixRequest mixNeedsPlayer
  rw [if_neg (Nat.not_lt.mpr hlen), checkMixableItem_of_null h]
  by_cases hmain : reachesPlayer srv hMain 1 = true
  · simp [hmain, hlen]
  · by_cases hzero : hMain = 0
    · rw [if_neg hmain, Option.bind_some, if_neg (by simp [hzero]), checkSubItems_of_null h]
      by_cases hhead : (sub_items.head?.any fun x => reachesPlayer srv x.1 x.2) = true
      · simp [hhead, hlen, hzero]
      · rw [State.access_of_null h]
        simp [hmain, hhead]
    · simp [hmain, hzero]

theorem onChatRequest_of_player (h : s.player = some p) (type : ChatType) (szTarget message : String) :
    onChatRequest srv s type szTarget message = some s := by
  unfold onChatRequest
  simp only [runCommand_of_player h, State.access_of_player h]
  cases type <;> simp

theorem onChatRequest_of_null (h : s.m_pPlayer = none) (type : ChatType) (szTarget message : String) :
    onChatRequest srv s type szTarget message =
      if chatNeedsPlayer srv type szTarget message then none else some s := by
  unfold onChatRequest chatNeedsPlayer
  by_cases hcommand : type ≠ .whisper ∧ message.toList.head? = some '/'
  · rw [if_pos hcommand, if_pos hcommand]
    exact runCommand_of_null h message commandHandler
  · rw [if_neg hcommand, if_neg hcommand]
    simp only [State.access_of_null h]
    cases type <;> simp

/-- With a player, a handler finds it. -/
theorem handler_of_player (h : s.player = some p) {pkt : Packet} (hpkt : pkt.keeps = true) :
    handler srv s pkt = some s := by
  cases pkt with
  | authResult => cases hpkt
  | login => cases hpkt
  | returnLobby => cases hpkt
  | chatRequest type szTarget message => exact onChatRequest_of_player h type szTarget message
  | mix hMain sub_items => exact onMixRequest_of_player h (of_decide_eq_true hpkt)
  | _ => simp [handler, State.access_of_player h]

/-- Without one, a handler has no result if it needs one. -/
theorem handler_of_null (h : s.m_pPlayer = none) {pkt : Packet} (hpkt : pkt.keeps = true) :
    handler srv s pkt = if needsPlayer srv pkt then none else some s := by
  cases pkt with
  | authResult => cases hpkt
  | login => cases hpkt
  | returnLobby => cases hpkt
  | chatRequest type szTarget message => exact onChatRequest_of_null h type szTarget message
  | mix hMain sub_items => exact onMixRequest_of_null h (of_decide_eq_true hpkt)
  | contact handle => cases hnpc : srv.npc handle <;> simp [handler, needsPlayer, State.access_of_null h, hnpc]
  | dialog trigger => by_cases ht : trigger = "" <;> simp [handler, needsPlayer, State.access_of_null h, ht]
  | query handle => cases hobj : srv.object handle <;> simp [handler, needsPlayer, State.access_of_null h, hobj]
  | setProperty name =>
    by_cases hn : name = "client_info" <;> simp [handler, needsPlayer, State.access_of_null h, hn]
  | unbindSkillcard item_handle =>
    cases hitem : srv.item item_handle <;> simp [handler, needsPlayer, State.access_of_null h, hitem]
  | _ => simp [handler, needsPlayer, State.access_of_null h]

end RZEmulator.Chihiro.WorldSession
