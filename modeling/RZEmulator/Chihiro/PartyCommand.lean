import RZEmulator.Chihiro.GroupManager
import RZEmulator.Lib.Decimal

/-!
# The commands of a party as text

`/pinvite` writes the number and the password of a party into a message, and `/pjoin` reads the two back from
what a player types. The text of a command is a list of characters; a conversion that throws has no result.
The other commands take the rest of the line as a name, or do not look at it.
-/

namespace RZEmulator.Chihiro

namespace GroupManager

open Lib

variable {N : Type} [DecidableEq N] [Inhabited N] (chars : Characters N)

/-- The loop of `Tokenizer`, with the token it is in. An empty token counts unless it is the last one. -/
def tokensFrom (sep : Char) : List Char → List Char → List (List Char)
  | token, [] => if token = [] then [] else [token]
  | token, c :: cs =>
    if c = sep then token :: tokensFrom sep [] cs
    else if c = '\x00' then (if token = [] then [] else [token])
    else tokensFrom sep (token ++ [c]) cs

/-- `Tokenizer`. -/
def tokenizer (src : List Char) (sep : Char) : List (List Char) := tokensFrom sep [] src

/-- Characters that are neither separators nor the end of the text go to the token. -/
theorem tokensFrom_append {sep : Char} {token s rest : List Char} (hs : ∀ c ∈ s, c ≠ sep ∧ c ≠ '\x00') :
    tokensFrom sep token (s ++ rest) = tokensFrom sep (token ++ s) rest := by
  induction s generalizing token with
  | nil => rw [List.nil_append, List.append_nil]
  | cons c s ih =>
    obtain ⟨hsep, hnul⟩ := hs c List.mem_cons_self
    rw [List.cons_append, tokensFrom, if_neg hsep, if_neg hnul, ih fun d hd => hs d (List.mem_cons_of_mem c hd),
      List.append_assoc]
    rfl

def isMXNumeric (input : List Char) : Bool := readsDouble input

/-- The two last fields of the message `INVITE`. -/
structure Invitation where
  nPartyID : List Char
  nPW : List Char
  deriving DecidableEq

namespace State

def getPartyName (w : State N) (nPartyID : Int) : N :=
  ((w.getPartyInfo nPartyID).map (·.strPartyName)).getD default

def getPassword (w : State N) (nPartyID : Int) : Nat :=
  ((w.getPartyInfo nPartyID).map (·.nPartyPassword)).getD 0

/-- `Player::FindPlayer`. -/
def findPlayer (w : State N) (szName : N) : Option (Player N) :=
  w.players.find? fun p => chars.iequals szName p.name

/-- `/pinvite`, with the player who gets the message and the message. The name `default` is the empty one. -/
def onInviteParty (w : State N) (pClient : Player N) (szPlayer : N) : Option (Player N × Invitation) :=
  if pClient.partyID = 0 then none
  else (w.findPlayer chars szPlayer).bind fun player =>
    if w.getPartyName pClient.partyID = default then none
    else some (player, ⟨intText pClient.partyID, intText (w.getPassword pClient.partyID)⟩)

/-- `/pjoin`, as it is typed. -/
def onJoinPartyText (w : State N) (pClient : Player N) (args : List Char) : Option (State N) :=
  if pClient.partyID ≠ 0 then some w
  else
    match tokenizer args ' ' with
    | [idText, pwText] =>
      if isMXNumeric idText ∧ isMXNumeric pwText then
        (stoi idText).bind fun partyID => (stoi pwText).map fun partyPW =>
          w.onJoinParty pClient partyID (partyPW % 2 ^ 32).toNat
      else some w
    | _ => some w

end State

/-! ## Runs -/

/-- What a player does, or what happens to the server. -/
inductive Command (N : Type)
  /-- Anything but joining a party. -/
  | party (e : Event N)
  | onInviteParty (h : Nat) (szPlayer : N)
  | onJoinParty (h : Nat) (args : List Char)

def Event.joins : Event N → Bool
  | .onJoinParty _ _ _ => true
  | _ => false

/-- A player who acts is logged in; a new password has 32 bits. -/
def run (w : State N) : Command N → Option (State N)
  | .party e => if e.joins then none else step chars w e
  | .onInviteParty h _ => (w.player h).map fun _ => w
  | .onJoinParty h args => (w.player h).bind fun p => w.onJoinPartyText p args

abbrev commandSystem : System (State N) (Command N) := .ofFun Init (run chars)

/-- The invitation that is sent in a transition, with the party it is to. -/
def sent (t : Transition (State N) (Command N)) : Option (Int × Invitation) :=
  match t.event with
  | .onInviteParty h szPlayer => (t.before.player h).bind fun p =>
      (t.before.onInviteParty chars p szPlayer).map fun m => (p.partyID, m.2)
  | _ => none

/-- The invitations to parties that have existed ever since. -/
def outstanding : History (State N) (Command N) → List (Int × Invitation)
  | [] => []
  | t :: h => ((sent chars t).toList ++ outstanding h).filter fun m => (t.after.getPartyInfo m.1).isSome

end GroupManager

end RZEmulator.Chihiro
