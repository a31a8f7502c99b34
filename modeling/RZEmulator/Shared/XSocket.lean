import Mathlib.Algebra.Ring.Nat
import RZEmulator.Lib.MachineInt
import RZEmulator.Lib.Mealy
import RZEmulator.Shared.MessageBuffer

/-!
# Sockets and packets

The data of `XSocket`: the two RC4 ciphers of `rc4_cipher.h`, the header of a message, and the buffers
of both directions. The handlers are in `Framing` (what is read) and `SendOrder` (what is written).

The keys are not modelled: a socket may start in any cipher state. What a handler of a session does with
a packet is a parameter of the receiving side.
-/

namespace RZEmulator.Shared

open Lib

/-! ## The cipher -/

/-- `RC4Cipher::State`; the positions are masked to a byte wherever they change. -/
structure RC4Cipher where
  x : UInt8
  y : UInt8
  s : Vector UInt8 256
  deriving DecidableEq

namespace RC4Cipher

/-- One turn of the loop of `codeBlock`. -/
def codeByte (c : RC4Cipher) (src : UInt8) : RC4Cipher × UInt8 :=
  let x := c.x + 1
  let sx := c.s.get x.toFin
  let y := c.y + sx
  let sy := c.s.get y.toFin
  let s := (c.s.set x.toNat sy x.toNat_lt).set y.toNat sx y.toNat_lt
  (⟨x, y, s⟩, src ^^^ s.get (sx + sy).toFin)

/-- The cipher as a machine on bytes. -/
def stream : Mealy RC4Cipher UInt8 UInt8 := ⟨codeByte⟩

/-- `Encode` and `Decode`, which are the same function, on the first `len` of the given bytes. The
length passes through `unsigned` and `int`; a negative one runs past the end. -/
def code (c : RC4Cipher) (bytes : List UInt8) (len : Nat) : Option (RC4Cipher × List UInt8) :=
  let n := narrow32 len
  if n < 0 then none
  else
    let src := bytes.take n.toNat
    some (stream.after c src, stream.out c src ++ bytes.drop n.toNat)

theorem code_of_lt (c : RC4Cipher) {bytes rest : List UInt8} (h : bytes.length < 2 ^ 31) :
    c.code (bytes ++ rest) bytes.length =
      some (stream.after c bytes, stream.out c bytes ++ rest) := by
  have hn : narrow32 (bytes.length : Int) = bytes.length :=
    narrow32_eq_self ⟨by omega, by omega⟩
  simp only [code, hn]
  rw [if_neg (by omega)]
  simp

end RC4Cipher

/-! ## Packets -/

/-- `HEADER_SIZE`, the size of the packed `TS_MESSAGE`. -/
def HEADER_SIZE : Nat := 7

structure TS_MESSAGE where
  size : UInt32
  id : UInt16
  msg_check_sum : UInt8
  deriving DecidableEq, Repr

/-- The header at the start of some bytes, its numbers little-endian. -/
def TS_MESSAGE.ofBytes (b : List UInt8) : TS_MESSAGE where
  size := .ofNat ((b.getD 0 0).toNat + 2 ^ 8 * (b.getD 1 0).toNat + 2 ^ 16 * (b.getD 2 0).toNat +
    2 ^ 24 * (b.getD 3 0).toNat)
  id := .ofNat ((b.getD 4 0).toNat + 2 ^ 8 * (b.getD 5 0).toNat)
  msg_check_sum := b.getD 6 0

/-- `TS_MESSAGE::GetChecksum`: the sum of the bytes of the size and of the id. -/
def TS_MESSAGE.getChecksum (id : UInt16) (size : UInt32) : UInt8 :=
  size.toUInt8 + (size >>> 8).toUInt8 + (size >>> 16).toUInt8 + (size >>> 24).toUInt8 +
    id.toUInt8 + (id >>> 8).toUInt8

structure XPacket where
  m_nPacketID : UInt16
  contents : List UInt8
  deriving DecidableEq, Repr

/-- A packet to be sent. It was made by `XPacket(packID)` or `Reset`, which reserve the header before
anything is appended. -/
structure EncryptablePacket extends XPacket where
  encrypt : Bool
  headed : HEADER_SIZE ≤ contents.length
  deriving DecidableEq

inductive ReadDataHandlerResult
  | ok
  | error
  | waitingForQuery
  deriving DecidableEq, Repr

/-! ## The socket -/

/-- `XSocket`; `σ` is the state of the session that derives from it. `reading` says that an asynchronous
read is outstanding, and `received` and `queued` record the packets handed to `ProcessIncoming` and the
buffers handed to the write queue, the oldest first. -/
structure XSocket (σ : Type) where
  session : σ
  isEncrypted : Bool
  encryption : RC4Cipher
  decryption : RC4Cipher
  readBuffer : MessageBuffer
  headerBuffer : MessageBuffer := (MessageBuffer.default).resize HEADER_SIZE
  packetBuffer : MessageBuffer := .default
  bufferQueue : List EncryptablePacket := []
  sendBufferSize : Nat := 4096
  closed : Bool := false
  reading : Bool := false
  received : List XPacket := []
  queued : List MessageBuffer := []

namespace XSocket

variable {σ : Type}

def isOpen (s : XSocket σ) : Bool := !s.closed

def closeSocket (s : XSocket σ) : XSocket σ := { s with closed := true }

/-- The bytes of the stream as the session's cipher sees them: RC4, or unchanged on a plain socket. -/
def wire (encrypted : Bool) : Mealy RC4Cipher UInt8 UInt8 :=
  if encrypted then RC4Cipher.stream else .copy _ _

end XSocket

end RZEmulator.Shared
