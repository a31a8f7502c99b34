import RZEmulator.Lib.Run
import RZEmulator.Shared.XSocket

/-!
# The order in which packets are sent

`XSocket::Update` takes the queued packets one by one, collects small ones in a batch, and gives a packet
that does not fit into the batch a buffer of its own. A batch that has no room for the packet is flushed
first, but the two comparisons differ by the size of a header: a packet that fits by less than that goes
ahead of the batch it did not flush. `Batched` says from the sizes alone that this does not happen, and
then what has been handed to the write queue, followed by what is still queued, is at any time the
concatenation of the sealed packets (`handed_of_run`).
-/

namespace RZEmulator.Shared

open Lib MessageBuffer

/-! ## Finalized packets -/

/-- `ByteBuffer::put`: the bytes from `pos` on are overwritten. -/
def put (pos : Nat) (src bytes : List UInt8) : List UInt8 :=
  bytes.take pos ++ src ++ bytes.drop (pos + src.length)

/-- The four bytes of a number, the lowest first. -/
def le32 (n : UInt32) : List UInt8 :=
  [n.toUInt8, (n >>> 8).toUInt8, (n >>> 16).toUInt8, (n >>> 24).toUInt8]

/-- The contents of a packet after `FinalizePacket`. -/
def EncryptablePacket.finalizePacket (p : EncryptablePacket) : List UInt8 :=
  let size : UInt32 := .ofNat p.contents.length
  put 6 [TS_MESSAGE.getChecksum p.m_nPacketID size] (put 0 (le32 size) p.contents)

theorem length_put {pos : Nat} {src bytes : List UInt8} (h : pos + src.length ≤ bytes.length) :
    (put pos src bytes).length = bytes.length := by
  unfold put
  rw [List.length_append, List.length_append, List.length_take, List.length_drop]
  omega

theorem EncryptablePacket.length_finalizePacket (p : EncryptablePacket) :
    p.finalizePacket.length = p.contents.length := by
  have hheaded : 7 ≤ p.contents.length := p.headed
  have hsize : (put 0 (le32 (.ofNat p.contents.length)) p.contents).length = p.contents.length :=
    length_put (show 0 + 4 ≤ _ by omega)
  unfold finalizePacket
  rw [length_put (by rw [hsize]; exact hheaded), hsize]

namespace XSocket

/-- The packets as they go over the wire, one after another, from a state of the cipher. -/
def sealedBytes : RC4Cipher → List EncryptablePacket → List UInt8
  | _, [] => []
  | c, p :: ps =>
    (wire p.encrypt).out c p.finalizePacket ++ sealedBytes ((wire p.encrypt).after c p.finalizePacket) ps

/-- The state of the cipher after the packets. -/
def cipherAfter : RC4Cipher → List EncryptablePacket → RC4Cipher
  | c, [] => c
  | c, p :: ps => cipherAfter ((wire p.encrypt).after c p.finalizePacket) ps

theorem sealedBytes_append (c : RC4Cipher) (ps qs : List EncryptablePacket) :
    sealedBytes c (ps ++ qs) = sealedBytes c ps ++ sealedBytes (cipherAfter c ps) qs := by
  induction ps generalizing c with
  | nil => rfl
  | cons p ps ih =>
    rw [List.cons_append, sealedBytes, sealedBytes, ih, List.append_assoc]
    rfl

theorem cipherAfter_append (c : RC4Cipher) (ps qs : List EncryptablePacket) :
    cipherAfter c (ps ++ qs) = cipherAfter (cipherAfter c ps) qs := by
  induction ps generalizing c with
  | nil => rfl
  | cons p ps ih => exact ih _

variable {σ : Type}

/-! ## The handlers -/

/-- `Socket::QueuePacket`. -/
def queuePacket (s : XSocket σ) (buffer : MessageBuffer) : XSocket σ :=
  { s with queued := s.queued ++ [buffer] }

/-- `XSocket::WritePacketToBuffer`, which writes the contents either way. -/
def writePacketToBuffer (contents : List UInt8) (buffer : MessageBuffer) : Option MessageBuffer :=
  if contents = [] then some buffer else buffer.write contents

/-- The contents of a finalized packet as `Update` writes them. -/
def encode (s : XSocket σ) (queued : EncryptablePacket) : Option (RC4Cipher × List UInt8) :=
  if queued.encrypt then s.encryption.code queued.finalizePacket queued.contents.length
  else some (s.encryption, queued.finalizePacket)

/-- One turn of the loop of `XSocket::Update`, with the batch it fills. -/
def updateTurn (s : XSocket σ) (buffer : MessageBuffer) (queued : EncryptablePacket) :
    Option (XSocket σ × MessageBuffer) := do
  let packetSize := queued.contents.length
  let (encryption, contents) ← s.encode queued
  let s := { s with encryption }
  let (s, buffer) :=
    if buffer.getRemainingSpace < packetSize then
      (s.queuePacket buffer, buffer.moved.resize s.sendBufferSize)
    else (s, buffer)
  if packetSize + HEADER_SIZE ≤ buffer.getRemainingSpace then
    let buffer ← writePacketToBuffer contents buffer
    return (s, buffer)
  else
    let packetBuffer ← writePacketToBuffer contents (.ofSize (packetSize + HEADER_SIZE))
    return (s.queuePacket packetBuffer, buffer)

/-- `XSocket::Update`, up to `BaseSocket::Update`, which empties the write queue from its front. -/
def update (s : XSocket σ) : Option (XSocket σ) := do
  let (t, buffer) ← s.bufferQueue.foldlM (fun r p => r.1.updateTurn r.2 p) (s, ofSize s.sendBufferSize)
  let t := { t with bufferQueue := [] }
  return if 0 < buffer.getActiveSize then t.queuePacket buffer else t

/-- `XSocket::SendPacket`, with a packet that has its header. -/
def sendPacket (s : XSocket σ) (packet : XPacket) (headed : HEADER_SIZE ≤ packet.contents.length) :
    XSocket σ :=
  if ¬s.isOpen then s
  else { s with bufferQueue := s.bufferQueue ++ [⟨packet, s.isEncrypted, headed⟩] }

/-- What happens to the sending side of a socket. -/
inductive SendEvent
  | sendPacket (packet : XPacket) (headed : HEADER_SIZE ≤ packet.contents.length)
  | update
  | setSendBufferSize (sendBufferSize : Nat)
  | closeSocket

def sendStep (s : XSocket σ) : SendEvent → Option (XSocket σ)
  | .sendPacket packet headed => some (s.sendPacket packet headed)
  | .update => s.update
  | .setSendBufferSize sendBufferSize => some { s with sendBufferSize }
  | .closeSocket => some s.closeSocket

/-- The sending side of a socket from the cipher state `c` on. -/
abbrev sendSystem (σ : Type) (c : RC4Cipher) : System (XSocket σ) SendEvent :=
  .ofFun (fun s => s.encryption = c ∧ s.bufferQueue = [] ∧ s.queued = []) sendStep

/-- What an event queues. -/
def queuedBy (s : XSocket σ) : SendEvent → List EncryptablePacket
  | .sendPacket packet headed => if s.isOpen then [⟨packet, s.isEncrypted, headed⟩] else []
  | _ => []

/-- The packets that `SendPacket` has queued, the oldest first. -/
def sent : History (XSocket σ) SendEvent → List EncryptablePacket
  | [] => []
  | t :: h => sent h ++ queuedBy t.before t.event

/-- The bytes handed to the write queue. -/
def handed (s : XSocket σ) : List UInt8 := s.queued.flatMap MessageBuffer.active

/-! ## Batches -/

/-- No packet goes ahead of a batch: with `used` bytes in a batch of `size` bytes, the next packet either
flushes it, or fits with the room of a header to spare, or finds it empty. -/
def Batched (size : Nat) : Nat → List EncryptablePacket → Prop
  | _, [] => True
  | used, p :: ps =>
    let n := p.contents.length
    if size < used + n then Batched size (if n + HEADER_SIZE ≤ size then n else 0) ps
    else if used + n + HEADER_SIZE ≤ size then Batched size (used + n) ps
    else used = 0 ∧ Batched size 0 ps

instance Batched.decidable (size : Nat) :
    ∀ (used : Nat) (ps : List EncryptablePacket), Decidable (Batched size used ps)
  | _, [] => .isTrue trivial
  | used, p :: ps =>
    have := Batched.decidable size (if p.contents.length + HEADER_SIZE ≤ size then p.contents.length else 0) ps
    have := Batched.decidable size (used + p.contents.length) ps
    have := Batched.decidable size 0 ps
    by unfold Batched; infer_instance

/-- Every packet to be encrypted has a length that `Encode` keeps. -/
def Encodable (ps : List EncryptablePacket) : Prop :=
  ∀ p ∈ ps, p.encrypt = true → p.contents.length < 2 ^ 31

/-- An update is orderly if no packet goes ahead of a batch, and none is too long to be encrypted. -/
def Orderly (s : XSocket σ) : SendEvent → Prop
  | .update => Batched s.sendBufferSize 0 s.bufferQueue ∧ Encodable s.bufferQueue
  | _ => True

/-! ## What an update hands over -/

theorem encode_eq (s : XSocket σ) (p : EncryptablePacket)
    (h : p.encrypt = true → p.contents.length < 2 ^ 31) :
    s.encode p = some ((wire p.encrypt).after s.encryption p.finalizePacket,
      (wire p.encrypt).out s.encryption p.finalizePacket) := by
  unfold encode wire
  by_cases he : p.encrypt = true
  · have hcode := @RC4Cipher.code_of_lt s.encryption p.finalizePacket []
      (by rw [p.length_finalizePacket]; exact h he)
    rw [List.append_nil, List.append_nil, p.length_finalizePacket] at hcode
    rw [if_pos he, if_pos he]
    exact hcode
  · rw [if_neg he, if_neg he, Mealy.after_copy, Mealy.out_copy]

/-- The turn with the cipher resolved: `out` are the sealed bytes of the packet. -/
theorem updateTurn_eq (s : XSocket σ) (buffer : MessageBuffer) {p : EncryptablePacket}
    (h : p.encrypt = true → p.contents.length < 2 ^ 31) :
    s.updateTurn buffer p =
      let out := (wire p.encrypt).out s.encryption p.finalizePacket
      let s' := { s with encryption := (wire p.encrypt).after s.encryption p.finalizePacket }
      let r := if buffer.getRemainingSpace < p.contents.length then
        (s'.queuePacket buffer, filled [] ((List.replicate s.sendBufferSize 0 : List UInt8)))
        else (s', buffer)
      if p.contents.length + HEADER_SIZE ≤ r.2.getRemainingSpace then
        (r.2.write out).map fun b => (r.1, b)
      else
        ((ofSize (p.contents.length + HEADER_SIZE)).write out).map fun b =>
          (r.1.queuePacket b, r.2) := by
  have hne : (wire p.encrypt).out s.encryption p.finalizePacket ≠ [] := by
    apply List.length_pos_iff.mp
    have hheaded : 7 ≤ p.contents.length := p.headed
    rw [Mealy.length_out, p.length_finalizePacket]
    omega
  unfold updateTurn
  rw [encode_eq _ _ h]
  simp only [Option.bind_eq_bind, Option.bind_some, writePacketToBuffer, if_neg hne, moved_eq,
    resize_filled, List.takeD_nil]
  split_ifs <;> rw [Option.map_eq_bind] <;> rfl

theorem updateTurn_of_batched {s : XSocket σ} {bs junk : List UInt8} {p : EncryptablePacket}
    {ps : List EncryptablePacket} (hsize : bs.length + junk.length = s.sendBufferSize)
    (henc : p.encrypt = true → p.contents.length < 2 ^ 31)
    (hbatched : Batched s.sendBufferSize bs.length (p :: ps)) :
    ∃ queued bs' junk', s.updateTurn (filled bs junk) p =
        some ({ s with
          encryption := (wire p.encrypt).after s.encryption p.finalizePacket, queued },
          filled bs' junk') ∧
      bs'.length + junk'.length = s.sendBufferSize ∧ Batched s.sendBufferSize bs'.length ps ∧
      queued.flatMap MessageBuffer.active ++ bs' =
        s.handed ++ bs ++ (wire p.encrypt).out s.encryption p.finalizePacket := by
  rw [updateTurn_eq s _ henc]
  set out := (wire p.encrypt).out s.encryption p.finalizePacket with hout
  have hlen : out.length = p.contents.length := by
    rw [hout, Mealy.length_out, p.length_finalizePacket]
  unfold Batched at hbatched
  dsimp only at hbatched ⊢
  rw [getRemainingSpace_view]
  by_cases hflush : s.sendBufferSize < bs.length + p.contents.length
  · -- the batch is flushed, and the packet finds an empty one
    rw [if_pos hflush] at hbatched
    rw [if_pos (show junk.length < p.contents.length by omega)]
    dsimp only
    rw [getRemainingSpace_view, List.length_replicate]
    by_cases hfit : p.contents.length + HEADER_SIZE ≤ s.sendBufferSize
    · rw [if_pos hfit] at hbatched
      rw [if_pos hfit, write_view _ _ _ _ (by rw [List.length_replicate]; omega), List.nil_append]
      refine ⟨s.queued ++ [filled bs junk], out, _, rfl, ?_, hlen ▸ hbatched, ?_⟩
      · rw [List.length_drop, List.length_replicate]
        omega
      · simp [handed]
    · rw [if_neg hfit] at hbatched
      rw [if_neg hfit, ofSize_eq, write_view _ _ _ _ (by rw [List.length_replicate]; omega),
        List.nil_append]
      refine ⟨s.queued ++ [filled bs junk] ++ [filled out _], [], _, rfl, ?_, hbatched, ?_⟩
      · rw [List.length_replicate, List.length_nil, Nat.zero_add]
      · simp [handed]
  · rw [if_neg hflush] at hbatched
    rw [if_neg (show ¬junk.length < p.contents.length by omega)]
    dsimp only
    rw [getRemainingSpace_view]
    by_cases hfit : bs.length + p.contents.length + HEADER_SIZE ≤ s.sendBufferSize
    · -- the packet joins the batch
      rw [if_pos hfit] at hbatched
      rw [if_pos (by omega), write_view _ _ _ _ (by omega)]
      refine ⟨s.queued, bs ++ out, _, rfl, ?_, ?_, ?_⟩
      · rw [List.length_append, List.length_drop]
        omega
      · rw [List.length_append, hlen]
        exact hbatched
      · simp [handed]
    · -- the packet has a buffer of its own, and nothing waits in the batch
      rw [if_neg hfit] at hbatched
      have hnil : bs = [] := List.length_eq_zero_iff.mp hbatched.1
      subst hnil
      rw [if_neg (by rw [List.length_nil] at hfit hsize; omega), ofSize_eq,
        write_view _ _ _ _ (by rw [List.length_replicate]; omega), List.nil_append]
      refine ⟨s.queued ++ [filled out _], [], junk, rfl, hsize, hbatched.2, ?_⟩
      simp [handed]

theorem sendPacket_eq (s : XSocket σ) (packet : XPacket)
    (headed : HEADER_SIZE ≤ packet.contents.length) :
    s.sendPacket packet headed =
      { s with bufferQueue := s.bufferQueue ++ s.queuedBy (.sendPacket packet headed) } := by
  have hqueued : s.queuedBy (.sendPacket packet headed) =
      if s.isOpen then [⟨packet, s.isEncrypted, headed⟩] else [] := rfl
  unfold sendPacket
  by_cases hopen : s.isOpen = true
  · rw [if_neg (not_not.mpr hopen), hqueued, if_pos hopen]
  · rw [if_pos hopen, hqueued, if_neg hopen, List.append_nil]

theorem foldl_updateTurn (ps : List EncryptablePacket) :
    ∀ {s : XSocket σ} {bs junk : List UInt8}, bs.length + junk.length = s.sendBufferSize →
      Encodable ps → Batched s.sendBufferSize bs.length ps →
      ∃ queued bs' junk', ps.foldlM (fun r p => r.1.updateTurn r.2 p) (s, filled bs junk) =
          some ({ s with encryption := cipherAfter s.encryption ps, queued }, filled bs' junk') ∧
        queued.flatMap MessageBuffer.active ++ bs' =
          s.handed ++ bs ++ sealedBytes s.encryption ps := by
  induction ps with
  | nil =>
    intro s bs junk _ _ _
    exact ⟨s.queued, bs, junk, rfl, (List.append_nil _).symm⟩
  | cons p ps ih =>
    intro s bs junk hsize henc hbatched
    obtain ⟨queued, bs', junk', hturn, hsize', hbatched', hhanded⟩ :=
      updateTurn_of_batched hsize (henc p List.mem_cons_self) hbatched
    rw [List.foldlM_cons, hturn]
    obtain ⟨queued'', bs'', junk'', hrest, hhanded'⟩ := ih (s := { s with
      encryption := (wire p.encrypt).after s.encryption p.finalizePacket, queued }) hsize'
      (fun q hq => henc q (List.mem_cons_of_mem _ hq)) hbatched'
    refine ⟨queued'', bs'', junk'', hrest, ?_⟩
    rw [hhanded']
    show queued.flatMap MessageBuffer.active ++ bs' ++ _ = _
    rw [hhanded, sealedBytes, List.append_assoc]

/-- **An orderly update hands over the queued packets in their order**, and has a result. -/
theorem update_of_orderly {s : XSocket σ} (h : Orderly s .update) :
    ∃ queued, s.update = some { s with
        encryption := cipherAfter s.encryption s.bufferQueue, bufferQueue := [], queued } ∧
      queued.flatMap MessageBuffer.active = s.handed ++ sealedBytes s.encryption s.bufferQueue := by
  obtain ⟨queued, bs, junk, hfold, hhanded⟩ := @foldl_updateTurn _ s.bufferQueue s []
    (List.replicate s.sendBufferSize 0)
    (by rw [List.length_replicate, List.length_nil, Nat.zero_add]) h.2 h.1
  rw [List.append_nil] at hhanded
  unfold update
  rw [ofSize_eq, hfold, Option.bind_eq_bind, Option.bind_some]
  dsimp only
  rw [getActiveSize_view]
  by_cases hpos : 0 < bs.length
  · rw [if_pos hpos]
    refine ⟨queued ++ [filled bs junk], rfl, ?_⟩
    rw [List.flatMap_append, ← hhanded]
    simp
  · rw [if_neg hpos]
    have hnil : bs = [] := List.length_eq_zero_iff.mp (by omega)
    subst hnil
    exact ⟨queued, rfl, by rw [← hhanded, List.append_nil]⟩

/-- **Nothing is lost, doubled or moved**: what has been handed to the write queue, followed by the
sealed packets that are still queued, are the sealed packets in the order in which they were sent; and
the next update has a result. -/
theorem handed_of_run {c : RC4Cipher} {h : History (XSocket σ) SendEvent} {s : XSocket σ}
    (hrun : (sendSystem σ c).RunWhere (fun _ s e => Orderly s e) h s) :
    s.handed ++ sealedBytes s.encryption s.bufferQueue = sealedBytes c (sent h) ∧
      (Orderly s .update → ∃ t, s.update = some t ∧ t.handed = sealedBytes c (sent h)) := by
  have hinv : s.handed ++ sealedBytes s.encryption s.bufferQueue = sealedBytes c (sent h) ∧
      cipherAfter s.encryption s.bufferQueue = cipherAfter c (sent h) := by
    refine hrun.invariant (I := fun h s => s.handed ++ sealedBytes s.encryption s.bufferQueue =
      sealedBytes c (sent h) ∧ cipherAfter s.encryption s.bufferQueue = cipherAfter c (sent h)) ?_ ?_
    · rintro s ⟨rfl, hqueue, hqueued⟩
      unfold handed
      rw [hqueue, hqueued]
      exact ⟨rfl, rfl⟩
    · rintro h s e t - ⟨hhanded, hcipher⟩ horderly hstep
      cases e with
      | sendPacket packet headed =>
        cases hstep
        rw [sent, sendPacket_eq]
        dsimp only
        rw [sealedBytes_append, cipherAfter_append, sealedBytes_append, cipherAfter_append, ← hhanded,
          ← hcipher, List.append_assoc]
        exact ⟨rfl, rfl⟩
      | update =>
        obtain ⟨queued, hupdate, hqueued⟩ := update_of_orderly horderly
        cases hupdate.symm.trans hstep
        rw [show sent (_ :: h) = sent h ++ [] from rfl, List.append_nil]
        refine ⟨?_, hcipher⟩
        rw [← hhanded]
        exact (List.append_nil _).trans hqueued
      | setSendBufferSize n =>
        cases hstep
        rw [show sent (_ :: h) = sent h ++ [] from rfl, List.append_nil]
        exact ⟨hhanded, hcipher⟩
      | closeSocket =>
        cases hstep
        rw [show sent (_ :: h) = sent h ++ [] from rfl, List.append_nil]
        exact ⟨hhanded, hcipher⟩
  refine ⟨hinv.1, fun horderly => ?_⟩
  obtain ⟨queued, hupdate, hqueued⟩ := update_of_orderly horderly
  exact ⟨_, hupdate, hqueued.trans hinv.1⟩

/-- Two bare headers on a plain socket, sent before one update. -/
theorem handed_of_run_bare :
    ∃ (h : History (XSocket Unit) SendEvent) (s : XSocket Unit) (c : RC4Cipher),
      (sent h).length = 2 ∧ s.handed ++ sealedBytes s.encryption s.bufferQueue =
        sealedBytes c (sent h) := by
  let c : RC4Cipher := ⟨0, 0, .replicate 256 0⟩
  let s₀ : XSocket Unit := {
    session := (), isEncrypted := false, encryption := c, decryption := c
    readBuffer := .ofSize 4096, sendBufferSize := 64 }
  let s₁ := s₀.sendPacket ⟨0, List.replicate 7 0⟩ (by decide)
  let s₂ := s₁.sendPacket ⟨1, List.replicate 7 0⟩ (by decide)
  have horderly : Orderly s₂ .update := by
    refine ⟨by decide, fun p hp he => ?_⟩
    have hplain : ∀ q ∈ s₂.bufferQueue, q.encrypt = false := by decide
    rw [hplain p hp] at he
    cases he
  obtain ⟨queued, ht, -⟩ := update_of_orderly horderly
  have hrun : (sendSystem Unit c).RunWhere (fun _ s e => Orderly s e)
      [⟨s₂, .update, _⟩, ⟨s₁, .sendPacket ⟨1, List.replicate 7 0⟩ (by decide), s₂⟩,
        ⟨s₀, .sendPacket ⟨0, List.replicate 7 0⟩ (by decide), s₁⟩] _ :=
    .step (.step (.step (.init ⟨rfl, rfl, rfl⟩) trivial rfl) trivial rfl) horderly ht
  exact ⟨_, _, c, rfl, (handed_of_run hrun).1⟩

/-! ## A packet that goes ahead -/

/-- A packet that fits into the rest of a batch by less than the size of a header is handed over before
the batch. -/
theorem updateTurn_ahead {s : XSocket σ} {bs junk : List UInt8} {p : EncryptablePacket}
    (henc : p.encrypt = true → p.contents.length < 2 ^ 31) (hfit : p.contents.length ≤ junk.length)
    (htight : junk.length < p.contents.length + HEADER_SIZE) :
    ∃ own, s.updateTurn (filled bs junk) p =
        some ({ s with
          encryption := (wire p.encrypt).after s.encryption p.finalizePacket
          queued := s.queued ++ [own] }, filled bs junk) ∧
      own.active = (wire p.encrypt).out s.encryption p.finalizePacket := by
  rw [updateTurn_eq s _ henc]
  dsimp only
  rw [getRemainingSpace_view, if_neg (not_lt.mpr hfit)]
  dsimp only
  rw [getRemainingSpace_view, if_neg (not_le.mpr htight), ofSize_eq, write_view _ _ _ _ (by
    rw [Mealy.length_out, p.length_finalizePacket, List.length_replicate]
    omega)]
  exact ⟨_, rfl, active_view ..⟩

theorem sealedBytes_two (c : RC4Cipher) {p q : EncryptablePacket} (hp : p.encrypt = false)
    (hq : q.encrypt = false) : sealedBytes c [p, q] = p.finalizePacket ++ q.finalizePacket := by
  have hwire : wire false = Mealy.copy RC4Cipher UInt8 := rfl
  rw [sealedBytes, sealedBytes, sealedBytes, hp, hq, hwire, Mealy.out_copy, Mealy.out_copy,
    List.append_nil]

/-- Two plain packets that fill the send buffer up to less than the size of a header are handed over in
the wrong order. -/
theorem update_two {s : XSocket σ} {p q : EncryptablePacket} (hqueue : s.bufferQueue = [p, q])
    (hp : p.encrypt = false) (hq : q.encrypt = false)
    (hbatch : p.contents.length + HEADER_SIZE ≤ s.sendBufferSize)
    (hfit : p.contents.length + q.contents.length ≤ s.sendBufferSize)
    (htight : s.sendBufferSize < p.contents.length + q.contents.length + HEADER_SIZE) :
    ∃ t, s.update = some t ∧ t.bufferQueue = [] ∧
      t.handed = s.handed ++ q.finalizePacket ++ p.finalizePacket := by
  have hlen : p.finalizePacket.length = p.contents.length := p.length_finalizePacket
  have hpos : 0 < p.finalizePacket.length := by
    have hheaded : 7 ≤ p.contents.length := p.headed
    omega
  have hwire : wire false = Mealy.copy RC4Cipher UInt8 := rfl
  have hfirst : s.updateTurn (filled [] (List.replicate s.sendBufferSize 0)) p =
      some (s, filled p.finalizePacket
        ((List.replicate s.sendBufferSize 0).drop p.finalizePacket.length)) := by
    rw [updateTurn_eq s _ (by rw [hp]; exact nofun)]
    dsimp only
    rw [getRemainingSpace_view, List.length_replicate,
      if_neg (show ¬s.sendBufferSize < p.contents.length by omega)]
    dsimp only
    rw [getRemainingSpace_view, List.length_replicate, if_pos hbatch, hp, hwire, Mealy.out_copy,
      Mealy.after_copy, write_view _ _ _ _ (by rw [List.length_replicate]; omega)]
    rfl
  obtain ⟨own, hsecond, hactive⟩ := @updateTurn_ahead _ s p.finalizePacket
    ((List.replicate s.sendBufferSize 0).drop p.finalizePacket.length) q
    (by rw [hq]; exact nofun) (by rw [List.length_drop, List.length_replicate]; omega)
    (by rw [List.length_drop, List.length_replicate]; omega)
  rw [hq, hwire, Mealy.out_copy] at hactive
  unfold update
  rw [hqueue, ofSize_eq, List.foldlM_cons, hfirst]
  dsimp only [Option.bind_eq_bind, Option.bind_some]
  rw [List.foldlM_cons, hsecond]
  dsimp only [Option.bind_eq_bind, Option.bind_some, List.foldlM_nil, Option.pure_def]
  rw [getActiveSize_view, if_pos hpos]
  refine ⟨_, rfl, rfl, ?_⟩
  show (s.queued ++ [own] ++ [_]).flatMap MessageBuffer.active = _
  rw [List.flatMap_append, List.flatMap_append]
  simp [hactive, handed]

theorem getElem?_put {pos i : Nat} {src bytes : List UInt8} (h : pos + src.length ≤ bytes.length)
    (hi : i < pos ∨ pos + src.length ≤ i) : (put pos src bytes)[i]? = bytes[i]? := by
  unfold put
  rcases hi with hi | hi
  · rw [List.append_assoc, List.getElem?_append_left (by rw [List.length_take]; omega),
      List.getElem?_take_of_lt hi]
  · rw [List.getElem?_append_right (by rw [List.length_append, List.length_take]; omega),
      List.getElem?_drop, List.length_append, List.length_take]
    congr 1
    omega

/-- A finalized packet has the id it was made with. -/
theorem finalizePacket_id (p : EncryptablePacket) : p.finalizePacket[4]? = p.contents[4]? := by
  have hheaded : 7 ≤ p.contents.length := p.headed
  have hsize : (put 0 (le32 (.ofNat p.contents.length)) p.contents).length = p.contents.length :=
    length_put (show 0 + 4 ≤ _ by omega)
  unfold EncryptablePacket.finalizePacket
  rw [getElem?_put (by rw [hsize]; exact hheaded) (.inl (by omega)),
    getElem?_put (show 0 + 4 ≤ _ by omega) (.inr (Nat.le_refl 4))]

/-- Two plain packets with different ids that fill the send buffer up to less than the size of a header,
sent before one update: the second is handed over first. -/
theorem out_of_order {p q : EncryptablePacket} {n : Nat} (hp : p.encrypt = false)
    (hq : q.encrypt = false) (hbatch : p.contents.length + HEADER_SIZE ≤ n)
    (hfit : p.contents.length + q.contents.length ≤ n)
    (htight : n < p.contents.length + q.contents.length + HEADER_SIZE)
    (hid : q.contents[4]? ≠ p.contents[4]?) (c : RC4Cipher) :
    ∃ (h : History (XSocket Unit) SendEvent) (s : XSocket Unit), (sendSystem Unit c).Run h s ∧
      s.handed ++ sealedBytes s.encryption s.bufferQueue ≠ sealedBytes c (sent h) := by
  let s₀ : XSocket Unit := {
    session := (), isEncrypted := false, encryption := c, decryption := c
    readBuffer := .ofSize 4096, sendBufferSize := n }
  let s₁ := s₀.sendPacket p.toXPacket p.headed
  let s₂ := s₁.sendPacket q.toXPacket q.headed
  have hp' : (⟨p.toXPacket, false, p.headed⟩ : EncryptablePacket) = p := by rw [← hp]
  have hq' : (⟨q.toXPacket, false, q.headed⟩ : EncryptablePacket) = q := by rw [← hq]
  have hqueue₂ : s₂.bufferQueue = [p, q] := by
    show [(⟨p.toXPacket, false, p.headed⟩ : EncryptablePacket), ⟨q.toXPacket, false, q.headed⟩] = _
    rw [hp', hq']
  obtain ⟨t, ht, hqueue, hhanded⟩ := update_two hqueue₂ hp hq hbatch hfit htight
  have hrun : (sendSystem Unit c).Run [⟨s₂, .update, t⟩, ⟨s₁, .sendPacket q.toXPacket q.headed, s₂⟩,
      ⟨s₀, .sendPacket p.toXPacket p.headed, s₁⟩] t :=
    .step (.step (.step (.init ⟨rfl, rfl, rfl⟩) trivial rfl) trivial rfl) trivial ht
  refine ⟨_, _, hrun, fun heq => ?_⟩
  have hsent : sent [⟨s₂, .update, t⟩, ⟨s₁, .sendPacket q.toXPacket q.headed, s₂⟩,
      ⟨s₀, .sendPacket p.toXPacket p.headed, s₁⟩] = [p, q] := by
    show [(⟨p.toXPacket, false, p.headed⟩ : EncryptablePacket), ⟨q.toXPacket, false, q.headed⟩] = _
    rw [hp', hq']
  rw [hsent, sealedBytes_two c hp hq, hqueue, hhanded] at heq
  -- the fifth byte is from the id of the first packet
  have hbyte := congrArg (·[4]?) heq
  have hshort : ∀ r : EncryptablePacket, 4 < r.finalizePacket.length := by
    intro r
    have hheaded : 7 ≤ r.contents.length := r.headed
    rw [r.length_finalizePacket]
    omega
  have hnone : s₂.handed = [] := rfl
  simp only [sealedBytes, List.append_nil, hnone, List.nil_append] at hbyte
  rw [List.getElem?_append_left (hshort q), List.getElem?_append_left (hshort p), finalizePacket_id,
    finalizePacket_id] at hbyte
  exact hid hbyte

/-- A packet with the given low byte of its id and `n` bytes behind its header. -/
def padded (id : UInt8) (n : Nat) : EncryptablePacket :=
  ⟨⟨id.toUInt16, [0, 0, 0, 0, id, 0, 0] ++ List.replicate n 0⟩, false, by
    rw [List.length_append]
    exact Nat.le_add_right 7 _⟩

theorem length_padded (id : UInt8) (n : Nat) : (padded id n).contents.length = 7 + n := by
  show ([0, 0, 0, 0, id, 0, 0] ++ List.replicate n 0 : List UInt8).length = 7 + n
  rw [List.length_append, List.length_replicate]
  rfl

theorem padded_id (id : UInt8) (n : Nat) : (padded id n).contents[4]? = some id := rfl

/-- With a send buffer of 65536 bytes, a packet of 65526 bytes is handed over before a bare header that
was queued first. -/
theorem handed_out_of_order :
    ∃ (h : History (XSocket Unit) SendEvent) (s : XSocket Unit) (c : RC4Cipher),
      (sendSystem Unit c).Run h s ∧
        s.handed ++ sealedBytes s.encryption s.bufferQueue ≠ sealedBytes c (sent h) := by
  obtain ⟨h, s, hrun, hne⟩ := out_of_order (p := padded 0 0) (q := padded 1 65519) (n := 65536) rfl rfl
    (by rw [length_padded]; decide) (by rw [length_padded, length_padded]; decide)
    (by rw [length_padded, length_padded]; decide) (by rw [padded_id, padded_id]; decide)
    ⟨0, 0, .replicate 256 0⟩
  exact ⟨h, s, _, hrun, hne⟩

end XSocket

end RZEmulator.Shared
