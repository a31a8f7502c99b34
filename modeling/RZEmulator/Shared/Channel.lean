import RZEmulator.Shared.FramingExact
import RZEmulator.Shared.Rc4Key
import RZEmulator.Shared.SendOrder

/-!
# A connection

One direction of a connection between two `XSocket`s: the packets that the one sends, the buffers that wait for the
operating system in `_writeQueue`, the bytes on the way, and the reads of the other. `Socket::HandleQueue` writes from the
front of the queue until the system takes no more; then it waits for the socket to become writable, and no update writes
in the meantime.

What the system answers to a write is part of the event. A connection that has failed once takes nothing more.
-/

namespace RZEmulator.Shared

open Lib MessageBuffer XSocket

/-- What `write_some` answers. -/
inductive Written
  | sent (n : Nat)
  | wouldBlock
  | failed
  deriving DecidableEq

/-- The sending socket with its write queue, the bytes the system has taken, how many of them have arrived, and the
socket that receives them. -/
structure Channel (σ τ : Type) where
  sender : XSocket σ
  writeQueue : List MessageBuffer := []
  isWritingAsync : Bool := false
  broken : Bool := false
  written : List UInt8 := []
  arrived : Nat := 0
  receiver : XSocket τ

namespace Channel

variable {σ τ : Type}

/-! ## The write queue -/

/-- `Socket::AsyncProcessQueue`, which always answers `false`. -/
def asyncProcessQueue (s : Channel σ τ) : Channel σ τ := { s with isWritingAsync := true }

/-- `Socket::HandleQueue` and its result. The system takes no more than it is offered, nothing only of an empty buffer,
and nothing at all once it has failed. -/
def handleQueue (s : Channel σ τ) (answer : Written) : Option (Channel σ τ × Bool) :=
  match s.writeQueue with
  | [] => some (s, false)
  | queuedMessage :: rest =>
    let bytesToSend := queuedMessage.getActiveSize
    match answer with
    | .wouldBlock => some (s.asyncProcessQueue, false)
    | .failed => some ({ s with writeQueue := rest, broken := true }, false)
    | .sent bytesSent =>
      if bytesToSend < bytesSent ∨ s.broken ∨ bytesSent = 0 ∧ 0 < bytesToSend then none
      else
        let s := { s with written := s.written ++ queuedMessage.active.take bytesSent }
        if bytesSent = 0 then some ({ s with writeQueue := rest }, false)
        else if bytesSent < bytesToSend then
          some ({ s with writeQueue := queuedMessage.readCompleted bytesSent :: rest }.asyncProcessQueue, false)
        else some ({ s with writeQueue := rest }, !rest.isEmpty)

/-- The loop of `Socket::Update` with the answers to its writes. -/
def handleAll : List Written → Channel σ τ → Option (Channel σ τ)
  | [], _ => none
  | answer :: answers, s => do
    let (s, more) ← s.handleQueue answer
    if more then handleAll answers s
    else if answers = [] then some s
    else none

/-- `Socket::Update`. -/
def baseUpdate (s : Channel σ τ) (answers : List Written) : Option (Channel σ τ) :=
  if s.sender.closed then some s
  else if s.isWritingAsync ∨ s.writeQueue = [] then some s
  else handleAll answers s

/-! ## Events -/

inductive Event
  /-- `XSocket::SendPacket`. -/
  | sendPacket (packet : XPacket) (headed : HEADER_SIZE ≤ packet.contents.length)
  /-- `XSocket::Update` of the sender. -/
  | update (answers : List Written)
  /-- `Socket::WriteHandlerWrapper`. -/
  | writable (answer : Written)
  /-- The sender closes. -/
  | closeSocket
  /-- The next bytes on the way are read. -/
  | arrive (bytes : Nat)

variable (process : τ → XPacket → Handled τ)

def step (s : Channel σ τ) : Event → Option (Channel σ τ)
  | .sendPacket packet headed => some { s with sender := s.sender.sendPacket packet headed }
  | .update answers => do
    let t ← s.sender.update
    -- the buffers that the update has handed over
    let writeQueue := s.writeQueue ++ t.queued.drop s.sender.queued.length
    { s with sender := t, writeQueue }.baseUpdate answers
  | .writable answer =>
    if s.isWritingAsync then ({ s with isWritingAsync := false }.handleQueue answer).map Prod.fst else none
  | .closeSocket => some { s with sender := s.sender.closeSocket }
  | .arrive bytes =>
    if s.receiver.reading ∧ s.arrived + bytes ≤ s.written.length ∧ bytes ≤ s.receiver.readBuffer.getRemainingSpace then
      (s.receiver.receive process ((s.written.drop s.arrived).take bytes)).map fun receiver =>
        { s with receiver, arrived := s.arrived + bytes }
    else none

/-- Both sides start with the cipher `c`; the receiver has started its first read. -/
structure Init (encrypted : Bool) (c : RC4Cipher) (session : τ) (bufferSize : Nat) (s : Channel σ τ) : Prop where
  encryption : s.sender.encryption = c
  isEncrypted : s.sender.isEncrypted = encrypted
  bufferQueue : s.sender.bufferQueue = []
  writeQueue : s.writeQueue = []
  written : s.written = []
  arrived : s.arrived = 0
  receiver : s.receiver = started session encrypted c bufferSize

/-- The runs of a connection. -/
abbrev system (encrypted : Bool) (c : RC4Cipher) (session : τ) (bufferSize : Nat) : System (Channel σ τ) Event :=
  .ofFun (Init encrypted c session bufferSize) (step process)

/-- What the other side gets of a packet: the number in its header and what stands behind the header. -/
def arrivesAs (p : EncryptablePacket) : XPacket := ⟨(TS_MESSAGE.ofBytes p.contents).id, p.contents.drop HEADER_SIZE⟩

/-- The packets that have been sent, the oldest first. -/
def sent : History (Channel σ τ) Event → List EncryptablePacket
  | [] => []
  | t :: h => sent h ++ match t.event with
    | .sendPacket packet headed => t.before.sender.queuedBy (.sendPacket packet headed)
    | _ => []

/-- A packet is not larger than the other side takes, and no packet goes ahead of a batch. -/
def Orderly (s : Channel σ τ) : Event → Prop
  | .sendPacket packet _ => packet.contents.length ≤ 4098
  | .update _ => Batched s.sender.sendBufferSize 0 s.sender.bufferQueue
  | _ => True

end Channel

end RZEmulator.Shared
