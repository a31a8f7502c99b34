import Mathlib.Data.List.GetD
import RZEmulator.Shared.XSocket

/-!
# What the read handlers deliver

`XSocket::ReadHandler` is called for each chunk that arrives and collects a header and a payload in two
buffers. `frames` says what it is for, on the plain stream as a whole: the packets whose sizes lie
between the size of the header and the limit, up to the first one that is refused or malformed.

The state between two chunks is determined by the raw bytes that have arrived since the last complete
packet (`Waiting`), so what a chunk delivers is what `frames` says of those bytes and the chunk. Two
things break the equation. The size of a header is only checked against the upper limit, so a size
below that of the header wraps around; and the loop over a chunk does not look whether a handler has
closed the socket, so what follows a packet that closes it is delivered or not as the stream is cut.
-/

namespace RZEmulator.Shared

open Lib

/-- What `ProcessIncoming` does with a packet: the session after it, whether it closed the socket, and
its answer. -/
structure Handled (σ : Type) where
  session : σ
  closes : Bool
  result : ReadDataHandlerResult

namespace XSocket

variable {σ : Type} (process : σ → XPacket → Handled σ)

/-! ## The handlers -/

/-- `Socket::AsyncRead`. -/
def asyncRead (s : XSocket σ) : XSocket σ :=
  if ¬s.isOpen then s
  else { s with readBuffer := s.readBuffer.normalize.ensureFreeSpace, reading := true }

@[simp] theorem asyncRead_received (s : XSocket σ) : s.asyncRead.received = s.received := by
  unfold asyncRead
  split_ifs <;> rfl

@[simp] theorem asyncRead_packetBuffer (s : XSocket σ) :
    s.asyncRead.packetBuffer = s.packetBuffer := by
  unfold asyncRead
  split_ifs <;> rfl

/-- Decoding the first `len` bytes at the read pointer of a buffer in place. -/
def decodeIn (s : XSocket σ) (b : MessageBuffer) (len : Nat) : Option (RC4Cipher × MessageBuffer) :=
  if s.isEncrypted then
    (s.decryption.code b.atReadPointer len).map fun r =>
      (r.1, { b with storage := b.storage.take b.rpos ++ r.2 })
  else some (s.decryption, b)

/-- The header that `_headerBuffer` holds. -/
def header (s : XSocket σ) : TS_MESSAGE := .ofBytes s.headerBuffer.atReadPointer

/-- `XSocket::ReadHeaderHandler`. The size of the payload is computed in 32 bits. -/
def readHeaderHandler (s : XSocket σ) : Option (XSocket σ × Bool) := do
  let (decryption, headerBuffer) ← s.decodeIn s.headerBuffer HEADER_SIZE
  let s := { s with decryption, headerBuffer }
  if 4098 < s.header.size then return (s, false)
  else
    let bytes := (s.header.size - UInt32.ofNat HEADER_SIZE).toNat
    return ({ s with packetBuffer := s.packetBuffer.resize bytes }, true)

/-- `XSocket::ReadDataHandler`. -/
def readDataHandler (s : XSocket σ) : Option (XSocket σ × ReadDataHandlerResult) := do
  let (decryption, packetBuffer) ← s.decodeIn s.packetBuffer s.packetBuffer.getBufferSize
  let packet : XPacket := ⟨s.header.id, packetBuffer.storage⟩
  let h := process s.session packet
  return ({ s with
    decryption
    packetBuffer := packetBuffer.moved
    session := h.session
    closed := s.closed || h.closes
    received := s.received ++ [packet] }, h.result)

/-- How a turn of the loop of `ReadHandler` ends. -/
inductive Turn (σ : Type)
  /-- The loop goes on. -/
  | again (s : XSocket σ)
  /-- `break`, after which the next read is started. -/
  | broken (s : XSocket σ)
  /-- `return`. -/
  | left (s : XSocket σ)

/-- The last part of a turn: the payload is complete. -/
def deliver (s : XSocket σ) : Option (Turn σ) := do
  let (s, result) ← s.readDataHandler process
  let s := { s with headerBuffer := s.headerBuffer.reset }
  if result ≠ .ok then return .left s else return .again s

/-- The part of a turn from the check of the payload on. -/
def readPayload (s : XSocket σ) : Option (Turn σ) :=
  if 0 < s.packetBuffer.getRemainingSpace then do
    let readDataSize := min s.readBuffer.getActiveSize s.packetBuffer.getRemainingSpace
    let packetBuffer ← s.packetBuffer.write (s.readBuffer.active.take readDataSize)
    let s := { s with packetBuffer, readBuffer := s.readBuffer.readCompleted readDataSize }
    if 0 < s.packetBuffer.getRemainingSpace then
      -- the ASSERT on the part of the payload that is missing
      if s.readBuffer.getActiveSize = 0 then return .broken s else none
    else s.deliver process
  else s.deliver process

/-- One turn of the loop of `XSocket::ReadHandler`. -/
def readTurn (s : XSocket σ) : Option (Turn σ) :=
  if 0 < s.headerBuffer.getRemainingSpace then do
    let readHeaderSize := min s.readBuffer.getActiveSize s.headerBuffer.getRemainingSpace
    let headerBuffer ← s.headerBuffer.write (s.readBuffer.active.take readHeaderSize)
    let s := { s with headerBuffer, readBuffer := s.readBuffer.readCompleted readHeaderSize }
    if 0 < s.headerBuffer.getRemainingSpace then
      -- the ASSERT on the part of the header that is missing
      if s.readBuffer.getActiveSize = 0 then return .broken s else none
    else
      let (s, accepted) ← s.readHeaderHandler
      if ¬accepted then return .left s.closeSocket else s.readPayload process
  else s.readPayload process

/-- The loop of `XSocket::ReadHandler`. Every turn reads a byte, so one turn more than there are bytes
is never taken. -/
def readLoop : Nat → XSocket σ → Option (XSocket σ)
  | 0, _ => none
  | fuel + 1, s =>
    if 0 < s.readBuffer.getActiveSize then do
      match ← s.readTurn process with
      | .again s => readLoop fuel s
      | .broken s => return s.asyncRead
      | .left s => return s
    else some s.asyncRead

/-- `XSocket::ReadHandler`. -/
def readHandler (s : XSocket σ) : Option (XSocket σ) :=
  if ¬s.isOpen then some s else s.readLoop process (s.readBuffer.getActiveSize + 1)

/-- A chunk arrives: `ReadHandlerInternal` of the outstanding read. Without one the bytes stay where
they are. -/
def receive (s : XSocket σ) (chunk : List UInt8) : Option (XSocket σ) :=
  if ¬s.reading then some s
  else do
    let readBuffer ← s.readBuffer.write chunk
    { s with readBuffer, reading := false }.readHandler process

/-- The chunks of a stream arrive one after another. -/
def receiveAll (s : XSocket σ) (chunks : List (List UInt8)) : Option (XSocket σ) :=
  chunks.foldlM (receive process) s

/-- A socket after `Start`, with a read buffer of `bufferSize` bytes. -/
def started (session : σ) (isEncrypted : Bool) (c : RC4Cipher) (bufferSize : Nat) : XSocket σ :=
  asyncRead
    { session, isEncrypted, encryption := c, decryption := c, readBuffer := .ofSize bufferSize }

end XSocket

/-! ## What the stream says -/

/-- What stands at the start of a plain stream. -/
inductive NextFrame
  /-- Part of a packet. -/
  | part
  /-- A header with a size that no packet has. -/
  | malformed (size : UInt32)
  /-- A packet, and the stream after it. -/
  | whole (packet : XPacket) (rest : List UInt8)
  deriving DecidableEq

def nextFrame (plain : List UInt8) : NextFrame :=
  let m := TS_MESSAGE.ofBytes plain
  if plain.length < HEADER_SIZE then .part
  else if m.size.toNat < HEADER_SIZE ∨ 4098 < m.size.toNat then .malformed m.size
  else if plain.length < m.size.toNat then .part
  else .whole ⟨m.id, (plain.take m.size.toNat).drop HEADER_SIZE⟩ (plain.drop m.size.toNat)

theorem nextFrame_rest_lt {plain rest : List UInt8} {packet : XPacket}
    (h : nextFrame plain = .whole packet rest) : rest.length < plain.length := by
  unfold nextFrame at h
  simp only at h
  split_ifs at h with h1 h2 h3
  obtain ⟨-, rfl⟩ := NextFrame.whole.inj h
  rw [List.length_drop]
  unfold HEADER_SIZE at h1 h2
  omega

/-- Why the packets of a stream end where they do. -/
inductive Ending
  /-- The stream ends within a packet, of which these bytes are there. -/
  | incomplete (rest : List UInt8)
  /-- The next header has a size that no packet has. -/
  | malformed (size : UInt32)
  /-- The handler of the last packet reported an error. -/
  | refused
  deriving DecidableEq

/-- The packets of a plain stream, each with the mark whether its handler closes the socket. -/
structure Framing (σ : Type) where
  packets : List (XPacket × Bool)
  ending : Ending
  session : σ

/-- The complete packets of a plain stream, in order, up to the first one that is malformed or whose
handler reports an error. -/
def frames {σ : Type} (process : σ → XPacket → Handled σ) (session : σ) (plain : List UInt8) :
    Framing σ :=
  match h : nextFrame plain with
  | .part => ⟨[], .incomplete plain, session⟩
  | .malformed size => ⟨[], .malformed size, session⟩
  | .whole packet rest =>
    let r := process session packet
    have := nextFrame_rest_lt h
    if r.result ≠ .ok then ⟨[(packet, r.closes)], .refused, r.session⟩
    else
      let f := frames process r.session rest
      { f with packets := (packet, r.closes) :: f.packets }
termination_by plain.length

section

variable {σ : Type} {process : σ → XPacket → Handled σ} {session : σ} {plain : List UInt8}

theorem frames_part (h : nextFrame plain = .part) :
    frames process session plain = ⟨[], .incomplete plain, session⟩ := by
  unfold frames
  split <;> simp_all

theorem frames_malformed {size : UInt32} (h : nextFrame plain = .malformed size) :
    frames process session plain = ⟨[], .malformed size, session⟩ := by
  unfold frames
  split <;> simp_all

theorem frames_refused {packet : XPacket} {rest : List UInt8}
    (h : nextFrame plain = .whole packet rest) (hr : (process session packet).result ≠ .ok) :
    frames process session plain =
      ⟨[(packet, (process session packet).closes)], .refused, (process session packet).session⟩ := by
  unfold frames
  split <;> simp_all

theorem frames_whole {packet : XPacket} {rest : List UInt8}
    (h : nextFrame plain = .whole packet rest) (hr : (process session packet).result = .ok) :
    frames process session plain =
      let f := frames process (process session packet).session rest
      { f with packets := (packet, (process session packet).closes) :: f.packets } := by
  rw [frames]
  split <;> simp_all

end

/-! ### Streams that go on -/

/-- A header is read from its own bytes. -/
theorem TS_MESSAGE.ofBytes_append {h t : List UInt8} (hh : HEADER_SIZE ≤ h.length) :
    TS_MESSAGE.ofBytes (h ++ t) = TS_MESSAGE.ofBytes h := by
  unfold HEADER_SIZE at hh
  have hget : ∀ i < 7, (h ++ t).getD i 0 = h.getD i 0 := fun i hi => List.getD_append _ _ _ _ (by omega)
  simp only [TS_MESSAGE.ofBytes, hget 0 (by omega), hget 1 (by omega), hget 2 (by omega),
    hget 3 (by omega), hget 4 (by omega), hget 5 (by omega), hget 6 (by omega)]

theorem nextFrame_malformed_append {plain : List UInt8} {size : UInt32} (t : List UInt8)
    (h : nextFrame plain = .malformed size) : nextFrame (plain ++ t) = .malformed size := by
  unfold nextFrame at h ⊢
  simp only at h ⊢
  split_ifs at h with h1 h2 h3
  rw [if_neg (by rw [List.length_append]; omega), TS_MESSAGE.ofBytes_append (by omega), if_pos h2, h]

theorem nextFrame_whole_append {plain rest : List UInt8} {packet : XPacket} (t : List UInt8)
    (h : nextFrame plain = .whole packet rest) :
    nextFrame (plain ++ t) = .whole packet (rest ++ t) := by
  unfold nextFrame at h ⊢
  simp only at h ⊢
  split_ifs at h with h1 h2 h3
  obtain ⟨rfl, rfl⟩ := NextFrame.whole.inj h
  rw [if_neg (by rw [List.length_append]; omega), TS_MESSAGE.ofBytes_append (by omega), if_neg h2,
    if_neg (by rw [List.length_append]; omega), List.take_append_of_le_length (by omega),
    List.drop_append_of_le_length (by omega)]

/-- The bytes of the first packet of a stream make a packet before any other rest. -/
theorem exists_nextFrame_append {plain rest : List UInt8} {packet : XPacket}
    (h : nextFrame plain = .whole packet rest) :
    ∃ front, plain = front ++ rest ∧ ∀ t, nextFrame (front ++ t) = .whole packet t := by
  unfold nextFrame at h
  simp only at h
  split_ifs at h with h1 h2 h3
  obtain ⟨rfl, rfl⟩ := NextFrame.whole.inj h
  have hlen : (plain.take (TS_MESSAGE.ofBytes plain).size.toNat).length =
      (TS_MESSAGE.ofBytes plain).size.toNat := by
    rw [List.length_take]
    omega
  have hbytes := TS_MESSAGE.ofBytes_append (t := plain.drop (TS_MESSAGE.ofBytes plain).size.toNat)
    (show HEADER_SIZE ≤ (plain.take (TS_MESSAGE.ofBytes plain).size.toNat).length by omega)
  rw [List.take_append_drop] at hbytes
  refine ⟨_, (List.take_append_drop ..).symm, fun t => ?_⟩
  unfold nextFrame
  rw [TS_MESSAGE.ofBytes_append (by omega), ← hbytes, List.length_append, hlen]
  dsimp only
  rw [if_neg (by omega), if_neg h2, if_neg (by omega), List.take_left' hlen, List.drop_left' hlen]

/-- What stands before the rest of a stream is more than part of its first packet. -/
theorem nextFrame_ne_part {a rest : List UInt8} {packet : XPacket}
    (h : nextFrame (a ++ rest) = .whole packet rest) : nextFrame a ≠ .part := by
  intro ha
  unfold nextFrame at h ha
  simp only [List.length_append] at h ha
  split_ifs at h with h1 h2 h3
  have hrest := congrArg List.length (NextFrame.whole.inj h).2
  rw [List.length_drop, List.length_append] at hrest
  have hlen : (TS_MESSAGE.ofBytes (a ++ rest)).size.toNat = a.length := by omega
  have ha' : ¬a.length < HEADER_SIZE := by omega
  rw [TS_MESSAGE.ofBytes_append (not_lt.mp ha')] at h2 hlen
  rw [if_neg ha', if_neg h2, if_neg (by omega)] at ha
  cases ha

section

variable {σ : Type} {process : σ → XPacket → Handled σ}

/-- What follows a malformed or refused packet changes nothing. -/
theorem frames_append_of_ended (t : List UInt8) (session : σ) (plain : List UInt8)
    (hend : ∀ rest, (frames process session plain).ending ≠ .incomplete rest) :
    frames process session (plain ++ t) = frames process session plain := by
  induction session, plain using frames.induct process with
  | case1 session plain h => exact absurd (congrArg Framing.ending (frames_part h)) (hend plain)
  | case2 session plain size h =>
    rw [frames_malformed h, frames_malformed (nextFrame_malformed_append t h)]
  | case3 session plain packet rest h r _ hr =>
    rw [frames_refused h hr, frames_refused (nextFrame_whole_append t h) hr]
  | case4 session plain packet rest h r _ hr ih =>
    have hok : (process session packet).result = .ok := not_not.mp hr
    rw [frames_whole h hok] at hend ⊢
    rw [frames_whole (nextFrame_whole_append t h) hok, ih hend]

variable (process) in
/-- A stream that goes on within a packet is framed from the start of that packet. -/
theorem frames_append_of_incomplete (t : List UInt8) (session : σ) (plain : List UInt8)
    {rest : List UInt8} (hend : (frames process session plain).ending = .incomplete rest) :
    frames process session (plain ++ t) =
      let f := frames process session plain
      let g := frames process f.session (rest ++ t)
      { g with packets := f.packets ++ g.packets } := by
  induction session, plain using frames.induct process with
  | case1 session plain h =>
    rw [frames_part h] at hend ⊢
    cases hend
    rfl
  | case2 session plain size h =>
    rw [frames_malformed h] at hend
    cases hend
  | case3 session plain packet rest h r _ hr =>
    rw [frames_refused h hr] at hend
    cases hend
  | case4 session plain packet rest h r _ hr ih =>
    have hok : (process session packet).result = .ok := not_not.mp hr
    rw [frames_whole h hok] at hend ⊢
    rw [frames_whole (nextFrame_whole_append t h) hok, ih hend]
    rfl

/-- What an incomplete stream ends with is part of a packet. -/
theorem nextFrame_of_incomplete (session : σ) (plain : List UInt8) {rest : List UInt8}
    (hend : (frames process session plain).ending = .incomplete rest) : nextFrame rest = .part := by
  induction session, plain using frames.induct process with
  | case1 session plain h =>
    rw [frames_part h] at hend
    cases hend
    exact h
  | case2 session plain size h =>
    rw [frames_malformed h] at hend
    cases hend
  | case3 session plain packet rest h r _ hr =>
    rw [frames_refused h hr] at hend
    cases hend
  | case4 session plain packet rest h r _ hr ih =>
    rw [frames_whole h (not_not.mp hr)] at hend
    exact ih hend

end

end RZEmulator.Shared
