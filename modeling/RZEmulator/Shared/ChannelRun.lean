import RZEmulator.Shared.Channel

/-!
# What arrives is what was sent

Both sides of a connection start with the same cipher state. Whatever the interleaving of sends, updates, partial writes
and reads, what the receiving session has been handed is at every moment the first packets that were sent, in order and
unchanged; and once nothing waits anywhere it is all of them, unless a handler has refused a packet.
-/

namespace RZEmulator.Shared.Channel

open Lib MessageBuffer XSocket

variable {σ τ : Type} {process : τ → XPacket → Handled τ} {encrypted : Bool} {c : RC4Cipher} {session : τ}
  {bufferSize : Nat}

/-! ## The plain stream -/

/-- The packets as they are before the cipher. -/
def plainBytes (ps : List EncryptablePacket) : List UInt8 := ps.flatMap EncryptablePacket.finalizePacket

/-- Packets of one socket are encoded as one stream. -/
theorem sealedBytes_eq (c : RC4Cipher) {ps : List EncryptablePacket} (h : ∀ p ∈ ps, p.encrypt = encrypted) :
    sealedBytes c ps = (wire encrypted).out c (plainBytes ps) ∧
      cipherAfter c ps = (wire encrypted).after c (plainBytes ps) := by
  induction ps generalizing c with
  | nil => exact ⟨rfl, rfl⟩
  | cons p ps ih =>
    obtain ⟨hout, hafter⟩ := ih ((wire encrypted).after c p.finalizePacket) fun q hq => h q (List.mem_cons_of_mem _ hq)
    rw [sealedBytes, cipherAfter, h p List.mem_cons_self, hout, hafter]
    unfold plainBytes
    rw [List.flatMap_cons, Mealy.out_append, Mealy.after_append]
    exact ⟨rfl, rfl⟩

/-- The cipher in the same state gives the plain stream back. -/
theorem out_wire_out (encrypted : Bool) (c : RC4Cipher) (bytes : List UInt8) :
    (wire encrypted).out c ((wire encrypted).out c bytes) = bytes := by
  unfold wire
  cases encrypted with
  | true =>
    simp only [if_true]
    rw [RC4Cipher.stream_eq]
    exact Mealy.out_out RC4Cipher.xor_xor c bytes
  | false => simp

/-- A number is read from its four bytes. -/
theorem ofNat_le32 (n : UInt32) :
    UInt32.ofNat (n.toUInt8.toNat + 2 ^ 8 * (n >>> 8).toUInt8.toNat + 2 ^ 16 * (n >>> 16).toUInt8.toNat +
      2 ^ 24 * (n >>> 24).toUInt8.toNat) = n := by
  have hn : n.toNat < 2 ^ 32 := n.toNat_lt
  have hshift : ∀ k : UInt32, (n >>> k).toNat = n.toNat / 2 ^ (k.toNat % 32) := fun k => by
    rw [UInt32.toNat_shiftRight, Nat.shiftRight_eq_div_pow]
  apply UInt32.toNat_inj.mp
  simp only [UInt32.toNat_toUInt8, UInt32.toNat_ofNat', hshift]
  simp only [show (8 : UInt32).toNat % 32 = 8 from rfl, show (16 : UInt32).toNat % 32 = 16 from rfl,
    show (24 : UInt32).toNat % 32 = 24 from rfl]
  omega

/-- A finalized packet is the first frame of what begins with it. -/
theorem nextFrame_finalizePacket (p : EncryptablePacket) (h : p.contents.length ≤ 4098) (rest : List UInt8) :
    nextFrame (p.finalizePacket ++ rest) = .whole (arrivesAs p) rest := by
  have hheaded : 7 ≤ p.contents.length := p.headed
  obtain ⟨b0, b1, b2, b3, b4, b5, b6, payload, hcontents⟩ : ∃ b0 b1 b2 b3 b4 b5 b6 payload,
      p.contents = b0 :: b1 :: b2 :: b3 :: b4 :: b5 :: b6 :: payload := by
    match hc : p.contents with
    | b0 :: b1 :: b2 :: b3 :: b4 :: b5 :: b6 :: payload => exact ⟨b0, b1, b2, b3, b4, b5, b6, payload, rfl⟩
    | [] | [_] | [_, _] | [_, _, _] | [_, _, _, _] | [_, _, _, _, _] | [_, _, _, _, _, _] =>
      rw [hc] at hheaded
      simp at hheaded
  set size : UInt32 := .ofNat p.contents.length with hsize
  have hfinal : p.finalizePacket = le32 size ++ [b4, b5, TS_MESSAGE.getChecksum p.m_nPacketID size] ++ payload := by
    rw [hsize]
    unfold EncryptablePacket.finalizePacket put le32
    rw [hcontents]
    rfl
  have hnat : size.toNat = p.contents.length := by
    rw [hsize, UInt32.toNat_ofNat', Nat.mod_eq_of_lt (by omega)]
  have hheader : TS_MESSAGE.ofBytes (p.finalizePacket ++ rest) =
      ⟨size, (TS_MESSAGE.ofBytes p.contents).id, TS_MESSAGE.getChecksum p.m_nPacketID size⟩ := by
    rw [hfinal, hcontents]
    show TS_MESSAGE.mk (UInt32.ofNat _) (UInt16.ofNat _) _ = TS_MESSAGE.mk _ (UInt16.ofNat _) _
    congr 1
    exact ofNat_le32 size
  have hlen : (p.finalizePacket).length = p.contents.length := p.length_finalizePacket
  unfold nextFrame
  rw [hheader]
  dsimp only
  rw [hnat, List.length_append, hlen]
  unfold HEADER_SIZE
  rw [if_neg (by omega), if_neg (by omega), if_neg (by omega), List.take_left' hlen, List.drop_left' hlen]
  congr 2
  rw [hfinal, hcontents]
  rfl

/-- The frames of the plain stream are the packets up to the first one that is refused. -/
theorem frames_plainBytes (process : τ → XPacket → Handled τ) (session : τ) {ps : List EncryptablePacket}
    (h : ∀ p ∈ ps, p.contents.length ≤ 4098) :
    let f := frames process session (plainBytes ps)
    f.packets.map Prod.fst <+: ps.map arrivesAs ∧ (f.ending = .incomplete [] ∨ f.ending = .refused) ∧
      ((∀ s p, (process s p).result = .ok) → f.packets.map Prod.fst = ps.map arrivesAs ∧ f.ending = .incomplete []) := by
  induction ps generalizing session with
  | nil =>
    intro f
    have hf : f = ⟨[], .incomplete [], session⟩ := frames_part rfl
    rw [hf]
    exact ⟨List.prefix_rfl, .inl rfl, fun _ => ⟨rfl, rfl⟩⟩
  | cons p ps ih =>
    intro f
    have hnext := nextFrame_finalizePacket p (h p List.mem_cons_self) (plainBytes ps)
    obtain ⟨hbegins, hending, hall⟩ := ih (process session (arrivesAs p)).session fun q hq => h q (List.mem_cons_of_mem _ hq)
    by_cases hok : (process session (arrivesAs p)).result = .ok
    · have hf : f = _ := frames_whole hnext hok
      rw [hf, List.map_cons, List.map_cons]
      refine ⟨List.cons_prefix_cons.mpr ⟨rfl, hbegins⟩, hending, fun haccept => ?_⟩
      obtain ⟨hpackets, hend⟩ := hall haccept
      exact ⟨by rw [hpackets], hend⟩
    · have hf : f = _ := frames_refused hnext hok
      rw [hf, List.map_cons, List.map_cons]
      exact ⟨List.cons_prefix_cons.mpr ⟨rfl, List.nil_prefix⟩, .inr rfl, fun haccept => absurd (haccept _ _) hok⟩

/-- A stream that is not malformed has no malformed beginning. -/
theorem frames_ending_ne_malformed {a b : List UInt8} {size : UInt32}
    (h : ∀ size, (frames process session (a ++ b)).ending ≠ .malformed size) :
    (frames process session a).ending ≠ .malformed size := by
  intro ha
  refine h size ?_
  rw [frames_append_of_ended b session a (by rw [ha]; nofun), ha]

/-- The packets of the beginning of a stream are the first ones of the stream. -/
theorem frames_packets_prefix (a b : List UInt8) :
    (frames process session a).packets <+: (frames process session (a ++ b)).packets := by
  cases hend : (frames process session a).ending with
  | incomplete rest =>
    rw [frames_append_of_incomplete process b session a hend]
    exact List.prefix_append ..
  | malformed size => rw [frames_append_of_ended b session a (by rw [hend]; nofun)]
  | refused => rw [frames_append_of_ended b session a (by rw [hend]; nofun)]

/-- No handler refuses a packet or closes the socket. -/
def Accepts (process : τ → XPacket → Handled τ) : Prop := ∀ s p, (process s p).result = .ok ∧ (process s p).closes = false

theorem frames_of_accepts (h : Accepts process) (session : τ) (plain : List UInt8) :
    (frames process session plain).ending ≠ .refused ∧ closes (frames process session plain) = false := by
  induction session, plain using frames.induct process with
  | case1 session plain hf =>
    rw [frames_part hf]
    exact ⟨fun h => (by cases h), rfl⟩
  | case2 session plain size hf =>
    rw [frames_malformed hf]
    exact ⟨fun h => (by cases h), rfl⟩
  | case3 session plain packet rest hf r _ hr => exact absurd (h session packet).1 hr
  | case4 session plain packet rest hf r _ hr ih =>
    rw [frames_whole hf (h session packet).1]
    refine ⟨ih.1, ?_⟩
    show (_ || closes (frames process _ rest)) = false
    rw [ih.2, (h session packet).2]
    rfl

/-! ## The receiving side -/

/-- The receiver has read `bytes`. While it reads on it has handed over the frames of them, and waits for the rest of a
packet; when it has stopped, it has handed over the first of their frames. -/
structure Read (process : τ → XPacket → Handled τ) (encrypted : Bool) (c : RC4Cipher) (session : τ) (bufferSize : Nat)
    (bytes : List UInt8) (r : XSocket τ) : Prop where
  isEncrypted : r.isEncrypted = encrypted
  handed : r.received <+: (frames process session ((wire encrypted).out c bytes)).packets.map Prod.fst
  reading : r.reading = true → ∃ c' raw, r.Ready bufferSize c' raw ∧
    (frames process session ((wire encrypted).out c bytes)).ending = .incomplete ((wire encrypted).out c' raw) ∧
    (frames process session ((wire encrypted).out c bytes)).session = r.session ∧
    r.received = (frames process session ((wire encrypted).out c bytes)).packets.map Prod.fst ∧
    (wire encrypted).after c' raw = (wire encrypted).after c bytes
  still : Accepts process → r.reading = true

theorem read_started : Read process encrypted c session bufferSize [] (started session encrypted c bufferSize) := by
  have hready := ready_started session encrypted c bufferSize
  set r := started session encrypted c bufferSize with hr
  have hframes : frames process session ((wire encrypted).out c []) = ⟨[], .incomplete [], session⟩ := frames_part rfl
  have hencrypted : r.isEncrypted = encrypted := rfl
  have hsession : r.session = session := rfl
  have hreceived : r.received = [] := rfl
  refine ⟨hencrypted, ?_, fun _ => ⟨c, [], hready, ?_⟩, fun _ => hready.reading⟩
  · rw [hreceived]
    exact List.nil_prefix
  · rw [hframes, hsession, hreceived]
    exact ⟨rfl, rfl, rfl, rfl⟩

/-- A chunk arrives at a receiver that reads. -/
theorem Read.receive {bytes chunk : List UInt8} {r : XSocket τ}
    (h : Read process encrypted c session bufferSize bytes r) (hreading : r.reading = true)
    (hfit : chunk.length ≤ bufferSize)
    (hgood : ∀ size, (frames process session ((wire encrypted).out c (bytes ++ chunk))).ending ≠ .malformed size) :
    ∃ r', r.receive process chunk = some r' ∧ Read process encrypted c session bufferSize (bytes ++ chunk) r' := by
  obtain ⟨c', raw, hready, hending, hsession, hreceived, hafter⟩ := h.reading hreading
  obtain ⟨rfl⟩ : r.isEncrypted = encrypted := h.isEncrypted
  -- the framing of what has arrived goes on with what the socket is collecting
  have hsplit : frames process session ((wire r.isEncrypted).out c (bytes ++ chunk)) =
      let g := frames process r.session ((wire r.isEncrypted).out c' (raw ++ chunk))
      { g with packets := (frames process session ((wire r.isEncrypted).out c bytes)).packets ++ g.packets } := by
    rw [Mealy.out_append, Mealy.out_append, ← hafter, ← hsession]
    exact frames_append_of_incomplete process _ session _ hending
  obtain ⟨r', hrun, hd⟩ := hready.receive process hfit (by
    intro size hsize
    exact absurd ((congrArg Framing.ending hsplit).trans hsize) (hgood size))
  have hpackets : r'.received =
      (frames process session ((wire r.isEncrypted).out c (bytes ++ chunk))).packets.map Prod.fst := by
    rw [hd.received, hreceived, hsplit, List.map_append]
  refine ⟨r', hrun, hd.isEncrypted, hpackets ▸ List.prefix_rfl, fun hon => ?_, fun haccept => ?_⟩
  swap
  · have hfine := frames_of_accepts haccept r.session ((wire r.isEncrypted).out c' (raw ++ chunk))
    have hclosed := hd.closed
    have hreads := hd.reading
    rw [hready.opened, hfine.2] at hclosed
    cases hend : (frames process r.session ((wire r.isEncrypted).out c' (raw ++ chunk))).ending with
    | incomplete rest =>
      rw [hend] at hclosed hreads
      rw [hreads, hclosed]
      rfl
    | malformed size => exact absurd ((congrArg Framing.ending hsplit).trans hend) (hgood size)
    | refused => exact absurd hend hfine.1
  obtain ⟨hopen, rest, hrest⟩ := hd.incomplete_of_reading hon
  obtain ⟨c'', raw', hw', hout, hafter'⟩ := hd.waiting rest hrest
  refine ⟨c'', raw', ⟨hopen, hon, hw', hd.readBuffer hon⟩, ?_, ?_, hpackets, ?_⟩
  · rw [hsplit, hout]
    exact hrest
  · rw [hsplit]
    exact hd.session.symm
  · rw [hafter', Mealy.after_append, Mealy.after_append, hafter]

/-! ## The sending side -/

/-- The bytes that wait in the write queue. -/
def waiting (s : Channel σ τ) : List UInt8 := s.writeQueue.flatMap MessageBuffer.active

theorem active_readCompleted (m : MessageBuffer) (n : Nat) : (m.readCompleted n).active = m.active.drop n := by
  unfold MessageBuffer.active MessageBuffer.readCompleted MessageBuffer.getActiveSize MessageBuffer.atReadPointer
  rw [List.drop_take, List.drop_drop, Nat.sub_add_eq]

theorem length_active_le (m : MessageBuffer) : m.active.length ≤ m.getActiveSize := List.length_take_le ..

/-- What writing does to a connection: bytes go from the write queue to the system, and when the connection breaks some
of the queue is lost. -/
structure Wrote (s s' : Channel σ τ) : Prop where
  sender : s'.sender = s.sender
  receiver : s'.receiver = s.receiver
  arrived : s'.arrived = s.arrived
  grown : s.written <+: s'.written
  broken : s.broken = true → s'.broken = true ∧ s'.written = s.written
  bounded : s.broken = false → s'.written <+: s.written ++ s.waiting
  whole : s'.broken = false → s'.written ++ s'.waiting = s.written ++ s.waiting

theorem Wrote.refl (s : Channel σ τ) : Wrote s s :=
  ⟨rfl, rfl, rfl, List.prefix_rfl, fun h => ⟨h, rfl⟩, fun _ => List.prefix_append .., fun _ => rfl⟩

theorem Wrote.trans {s s' s'' : Channel σ τ} (h : Wrote s s') (h' : Wrote s' s'') : Wrote s s'' := by
  refine ⟨h'.sender.trans h.sender, h'.receiver.trans h.receiver, h'.arrived.trans h.arrived, h.grown.trans h'.grown,
    fun hb => ?_, fun hb => ?_, fun hb => ?_⟩
  · obtain ⟨hb', hw⟩ := h.broken hb
    obtain ⟨hb'', hw'⟩ := h'.broken hb'
    exact ⟨hb'', hw'.trans hw⟩
  · by_cases hb' : s'.broken = true
    · rw [(h'.broken hb').2]
      exact h.bounded hb
    · rw [Bool.not_eq_true] at hb'
      rw [← h.whole hb']
      exact h'.bounded hb'
  · have hb' : s'.broken = false := by
      by_contra hne
      rw [Bool.not_eq_false] at hne
      rw [(h'.broken hne).1] at hb
      cases hb
    exact (h'.whole hb).trans (h.whole hb')

theorem handleQueue_wrote {s s' : Channel σ τ} {answer : Written} {more : Bool}
    (h : s.handleQueue answer = some (s', more)) : Wrote s s' := by
  unfold handleQueue at h
  cases hq : s.writeQueue with
  | nil =>
    rw [hq] at h
    cases h
    exact .refl s
  | cons m rest =>
    rw [hq] at h
    have hwaiting : s.waiting = m.active ++ rest.flatMap MessageBuffer.active := by
      unfold waiting
      rw [hq]
      rfl
    cases answer with
    | wouldBlock =>
      cases h
      exact ⟨rfl, rfl, rfl, List.prefix_rfl, fun h => ⟨h, rfl⟩, fun _ => List.prefix_append .., fun _ => rfl⟩
    | failed =>
      cases h
      exact ⟨rfl, rfl, rfl, List.prefix_rfl, fun _ => ⟨rfl, rfl⟩, fun _ => List.prefix_append .., nofun⟩
    | sent n =>
      dsimp only at h
      split_ifs at h with hbad hzero hpart
      · -- nothing has been taken, of an empty buffer
        cases h
        have hempty : m.active = [] := List.length_eq_zero_iff.mp (by have := length_active_le m; omega)
        have hbytes : (s.written ++ m.active.take n) = s.written := by rw [hempty, List.take_nil, List.append_nil]
        refine ⟨rfl, rfl, rfl, by rw [hbytes], fun hb => ⟨hb, hbytes⟩, fun _ => by rw [hbytes]; exact List.prefix_append ..,
          fun _ => ?_⟩
        show s.written ++ m.active.take n ++ rest.flatMap _ = _
        rw [hbytes, hwaiting, hempty, List.nil_append]
      · -- a part of the buffer
        cases h
        refine ⟨rfl, rfl, rfl, List.prefix_append .., fun hb => absurd (.inr (.inl hb)) hbad, fun _ => ?_, fun _ => ?_⟩
        · rw [hwaiting]
          exact List.prefix_append_right_inj _ |>.mpr ((List.take_prefix _ _).trans (List.prefix_append ..))
        · show s.written ++ m.active.take n ++ ((m.readCompleted n).active ++ rest.flatMap _) = _
          rw [active_readCompleted, hwaiting, List.append_assoc, ← List.append_assoc (m.active.take n),
            List.take_append_drop]
      · -- all of it
        cases h
        have hall : m.active.take n = m.active := List.take_of_length_le (by have := length_active_le m; omega)
        refine ⟨rfl, rfl, rfl, List.prefix_append .., fun hb => absurd (.inr (.inl hb)) hbad, fun _ => ?_, fun _ => ?_⟩
        · rw [hwaiting, hall]
          exact List.prefix_append_right_inj _ |>.mpr (List.prefix_append ..)
        · show s.written ++ m.active.take n ++ rest.flatMap _ = _
          rw [hall, hwaiting, List.append_assoc]

theorem handleAll_wrote {answers : List Written} {s s' : Channel σ τ} (h : handleAll answers s = some s') : Wrote s s' := by
  induction answers generalizing s with
  | nil => cases h
  | cons a answers ih =>
    unfold handleAll at h
    obtain ⟨⟨t, more⟩, ht, h⟩ := Option.bind_eq_some_iff.mp h
    have hwrote := handleQueue_wrote ht
    dsimp only at h
    split_ifs at h
    · exact hwrote.trans (ih h)
    · cases h
      exact hwrote

theorem baseUpdate_wrote {answers : List Written} {s s' : Channel σ τ} (h : s.baseUpdate answers = some s') : Wrote s s' := by
  unfold baseUpdate at h
  split_ifs at h
  · cases h
    exact .refl s
  · cases h
    exact .refl s
  · exact handleAll_wrote h

/-- A turn of the loop of an update only adds to what has been handed over. -/
theorem updateTurn_queued {s t : XSocket σ} {buffer b : MessageBuffer} {p : EncryptablePacket}
    (h : s.updateTurn buffer p = some (t, b)) : s.queued <+: t.queued := by
  unfold updateTurn at h
  obtain ⟨⟨enc, contents⟩, -, h⟩ := Option.bind_eq_some_iff.mp h
  have hflush : ∀ u : XSocket σ × MessageBuffer, u = (if buffer.getRemainingSpace < p.contents.length then
      (({ s with encryption := enc } : XSocket σ).queuePacket buffer, buffer.moved.resize s.sendBufferSize)
      else ({ s with encryption := enc }, buffer)) → s.queued <+: u.1.queued := by
    rintro u rfl
    split_ifs
    · exact List.prefix_append ..
    · exact List.prefix_rfl
  dsimp only at h
  generalize hu : (if buffer.getRemainingSpace < p.contents.length then
      (({ s with encryption := enc } : XSocket σ).queuePacket buffer, buffer.moved.resize s.sendBufferSize)
      else ({ s with encryption := enc }, buffer)) = u at h
  have hle := hflush u hu.symm
  split_ifs at h
  · obtain ⟨b', -, h⟩ := Option.bind_eq_some_iff.mp h
    cases h
    exact hle
  · obtain ⟨b', -, h⟩ := Option.bind_eq_some_iff.mp h
    cases h
    exact hle.trans (List.prefix_append ..)

theorem update_queued {s t : XSocket σ} (h : s.update = some t) : s.queued <+: t.queued := by
  have hfold : ∀ (ps : List EncryptablePacket) (r r' : XSocket σ × MessageBuffer),
      ps.foldlM (fun r p => r.1.updateTurn r.2 p) r = some r' → r.1.queued <+: r'.1.queued := by
    intro ps
    induction ps with
    | nil =>
      intro r r' hr
      cases hr
      exact List.prefix_rfl
    | cons p ps ih =>
      intro r r' hr
      rw [List.foldlM_cons] at hr
      obtain ⟨r₁, hturn, hrest⟩ := Option.bind_eq_some_iff.mp hr
      exact (updateTurn_queued hturn).trans (ih _ _ hrest)
  unfold update at h
  obtain ⟨⟨u, buffer⟩, hu, h⟩ := Option.bind_eq_some_iff.mp h
  have hle := hfold _ _ _ hu
  dsimp only at h
  split_ifs at h
  · cases h
    exact hle.trans (List.prefix_append ..)
  · cases h
    exact hle

/-! ## Runs -/

/-- Nothing that was sent is anywhere else than it should be. -/
structure Inv (process : τ → XPacket → Handled τ) (encrypted : Bool) (c : RC4Cipher) (session : τ) (bufferSize : Nat)
    (ps : List EncryptablePacket) (s : Channel σ τ) : Prop where
  isEncrypted : s.sender.isEncrypted = encrypted
  fits : ∀ p ∈ ps, p.contents.length ≤ 4098 ∧ p.encrypt = encrypted
  queued : ∀ p ∈ s.sender.bufferQueue, p ∈ ps
  cipher : cipherAfter s.sender.encryption s.sender.bufferQueue = cipherAfter c ps
  written : s.written <+: sealedBytes c ps
  whole : s.broken = false →
    s.written ++ s.waiting ++ sealedBytes s.sender.encryption s.sender.bufferQueue = sealedBytes c ps
  arrived : s.arrived ≤ s.written.length
  read : Read process encrypted c session bufferSize (s.written.take s.arrived) s.receiver

theorem Inv.init {s : Channel σ τ} (h : Init encrypted c session bufferSize s) :
    Inv process encrypted c session bufferSize [] s := by
  refine ⟨h.isEncrypted, fun _ hp => absurd hp List.not_mem_nil, ?_, ?_, ?_, fun _ => ?_, ?_, ?_⟩
  · rw [h.bufferQueue]
    exact fun _ hp => hp
  · rw [h.bufferQueue, h.encryption]
  · rw [h.written]
    exact List.nil_prefix
  · unfold waiting
    rw [h.written, h.writeQueue, h.bufferQueue]
    rfl
  · rw [h.arrived]
    exact Nat.zero_le _
  · rw [h.written, h.receiver, List.take_nil]
    exact read_started

/-- Writing keeps everything in its place. -/
theorem Inv.wrote {ps : List EncryptablePacket} {s s' : Channel σ τ}
    (h : Inv process encrypted c session bufferSize ps s) (hw : Wrote s s') :
    Inv process encrypted c session bufferSize ps s' := by
  refine ⟨hw.sender ▸ h.isEncrypted, h.fits, hw.sender ▸ h.queued, hw.sender ▸ h.cipher, ?_, fun hb => ?_, ?_, ?_⟩
  · by_cases hb : s.broken = true
    · rw [(hw.broken hb).2]
      exact h.written
    · rw [Bool.not_eq_true] at hb
      rw [← h.whole hb]
      exact (hw.bounded hb).trans (List.prefix_append ..)
  · have hb' : s.broken = false := by
      by_contra hne
      rw [Bool.not_eq_false] at hne
      rw [(hw.broken hne).1] at hb
      cases hb
    rw [hw.sender, hw.whole hb]
    exact h.whole hb'
  · rw [hw.arrived]
    exact h.arrived.trans hw.grown.length_le
  · rw [hw.arrived, hw.receiver]
    obtain ⟨more, hmore⟩ := hw.grown
    rw [← hmore, List.take_append_of_le_length h.arrived]
    exact h.read

/-- What the system has taken begins the plain stream of what was sent. -/
theorem Inv.plain {ps : List EncryptablePacket} {s : Channel σ τ} (h : Inv process encrypted c session bufferSize ps s)
    {n : Nat} : ∃ rest, (wire encrypted).out c (s.written.take n) ++ rest = plainBytes ps := by
  obtain ⟨more, hmore⟩ := (List.take_prefix n s.written).trans h.written
  have hsealed := (sealedBytes_eq c fun p hp => (h.fits p hp).2).1
  refine ⟨(wire encrypted).out ((wire encrypted).after c (s.written.take n)) more, ?_⟩
  rw [← Mealy.out_append, hmore, hsealed]
  exact out_wire_out encrypted c _

theorem Inv.good {ps : List EncryptablePacket} {s : Channel σ τ} (h : Inv process encrypted c session bufferSize ps s)
    {n : Nat} (size : UInt32) :
    (frames process session ((wire encrypted).out c (s.written.take n))).ending ≠ .malformed size := by
  obtain ⟨rest, hrest⟩ := h.plain (n := n)
  refine frames_ending_ne_malformed (b := rest) fun size => ?_
  rw [hrest]
  obtain ⟨-, hend, -⟩ := frames_plainBytes process session fun p hp => (h.fits p hp).1
  rcases hend with hend | hend <;> rw [hend] <;> nofun

theorem inv_of_run {h : History (Channel σ τ) Event} {s : Channel σ τ}
    (hrun : (system process encrypted c session bufferSize).RunWhere (fun _ s e => Orderly s e) h s) :
    Inv process encrypted c session bufferSize (sent h) s := by
  refine hrun.invariant (I := fun h s => Inv process encrypted c session bufferSize (sent h) s) (fun s => Inv.init) ?_
  rintro h s e t - hinv horderly hstep
  cases e with
  | sendPacket packet headed =>
    cases hstep
    have hsent : ∀ t : Channel σ τ, sent (⟨s, .sendPacket packet headed, t⟩ :: h) =
        sent h ++ s.sender.queuedBy (.sendPacket packet headed) := fun _ => rfl
    have hqueued : ∀ p ∈ s.sender.queuedBy (.sendPacket packet headed), p.contents.length ≤ 4098 ∧ p.encrypt = encrypted := by
      intro p hp
      unfold queuedBy at hp
      dsimp only at hp
      split_ifs at hp
      · obtain rfl := List.mem_singleton.mp hp
        exact ⟨horderly, hinv.isEncrypted⟩
      · cases hp
    rw [hsent, sendPacket_eq]
    refine ⟨hinv.isEncrypted, ?_, ?_, ?_, hinv.written.trans ?_, fun hb => ?_, hinv.arrived, hinv.read⟩
    · intro p hp
      exact (List.mem_append.mp hp).elim (hinv.fits p) (hqueued p)
    · intro p hp
      exact List.mem_append.mpr ((List.mem_append.mp hp).imp_left (hinv.queued p))
    · rw [cipherAfter_append, cipherAfter_append, ← hinv.cipher]
    · rw [sealedBytes_append]
      exact List.prefix_append ..
    · dsimp only
      rw [sealedBytes_append, sealedBytes_append, ← hinv.whole hb, hinv.cipher, ← List.append_assoc]
      rfl
  | update answers =>
    have hsent : sent (⟨s, .update answers, t⟩ :: h) = sent h := List.append_nil _
    rw [hsent]
    obtain ⟨u, hu, hbase⟩ := Option.bind_eq_some_iff.mp hstep
    have hencodable : Encodable s.sender.bufferQueue := fun p hp _ => by
      have := (hinv.fits p (hinv.queued p hp)).1
      omega
    obtain ⟨queued, hupdate, hactive⟩ := update_of_orderly (s := s.sender) ⟨horderly, hencodable⟩
    obtain rfl := Option.some.inj (hupdate.symm.trans hu)
    obtain ⟨new, hnew⟩ : s.sender.queued <+: queued := update_queued hupdate
    subst hnew
    have hsealed : new.flatMap MessageBuffer.active = sealedBytes s.sender.encryption s.sender.bufferQueue := by
      rw [List.flatMap_append] at hactive
      exact List.append_cancel_left hactive
    refine Inv.wrote ?_ (baseUpdate_wrote hbase)
    refine ⟨hinv.isEncrypted, hinv.fits, fun p hp => absurd hp List.not_mem_nil, hinv.cipher, hinv.written, fun hb => ?_,
      hinv.arrived, hinv.read⟩
    have hwaiting : waiting ({ s with
        sender := { s.sender with
          encryption := cipherAfter s.sender.encryption s.sender.bufferQueue, bufferQueue := []
          queued := s.sender.queued ++ new }
        writeQueue := s.writeQueue ++ (s.sender.queued ++ new).drop s.sender.queued.length } : Channel σ τ) =
        s.waiting ++ sealedBytes s.sender.encryption s.sender.bufferQueue := by
      unfold waiting
      rw [List.drop_left, List.flatMap_append, hsealed]
    rw [hwaiting, ← List.append_assoc]
    exact (List.append_nil _).trans (hinv.whole hb)
  | writable answer =>
    have hsent : sent (⟨s, .writable answer, t⟩ :: h) = sent h := List.append_nil _
    rw [hsent]
    change (if s.isWritingAsync then _ else _) = _ at hstep
    split_ifs at hstep
    obtain ⟨⟨u, more⟩, hu, rfl⟩ := Option.map_eq_some_iff.mp hstep
    refine hinv.wrote (Wrote.trans ?_ (handleQueue_wrote hu))
    exact ⟨rfl, rfl, rfl, List.prefix_rfl, fun h => ⟨h, rfl⟩, fun _ => List.prefix_append .., fun _ => rfl⟩
  | closeSocket =>
    cases hstep
    have hsent : ∀ t : Channel σ τ, sent (⟨s, .closeSocket, t⟩ :: h) = sent h := fun _ => List.append_nil _
    rw [hsent]
    exact ⟨hinv.isEncrypted, hinv.fits, hinv.queued, hinv.cipher, hinv.written, hinv.whole, hinv.arrived, hinv.read⟩
  | arrive bytes =>
    have hsent : sent (⟨s, .arrive bytes, t⟩ :: h) = sent h := List.append_nil _
    rw [hsent]
    change (if _ then _ else _) = _ at hstep
    split_ifs at hstep with hready
    obtain ⟨hreading, hle, hspace⟩ := hready
    have htake : s.written.take s.arrived ++ (s.written.drop s.arrived).take bytes = s.written.take (s.arrived + bytes) :=
      (List.take_add ..).symm
    obtain ⟨_, _, hr, -⟩ := hinv.read.reading hreading
    obtain ⟨junk, hbuffer, hlen⟩ := hr.readBuffer
    have hfit : ((s.written.drop s.arrived).take bytes).length ≤ bufferSize := by
      rw [hbuffer, getRemainingSpace_view] at hspace
      rw [List.length_take]
      omega
    obtain ⟨r', hr', hread⟩ := hinv.read.receive hreading hfit fun size => by
      rw [htake]
      exact hinv.good size
    rw [hr'] at hstep
    cases hstep
    rw [htake] at hread
    exact ⟨hinv.isEncrypted, hinv.fits, hinv.queued, hinv.cipher, hinv.written, hinv.whole, hle, hread⟩

/-- **What has arrived is the beginning of what was sent**, at every moment of every run. -/
theorem received_prefix_sent {h : History (Channel σ τ) Event} {s : Channel σ τ}
    (hrun : (system process encrypted c session bufferSize).RunWhere (fun _ s e => Orderly s e) h s) :
    s.receiver.received <+: (sent h).map arrivesAs ∧
      (Accepts process → s.broken = false → s.sender.bufferQueue = [] → s.waiting = [] → s.arrived = s.written.length →
        s.receiver.received = (sent h).map arrivesAs) := by
  have hinv := inv_of_run hrun
  obtain ⟨rest, hrest⟩ := hinv.plain (n := s.arrived)
  obtain ⟨hbegins, -, hall⟩ := frames_plainBytes process session fun p hp => (hinv.fits p hp).1
  refine ⟨?_, fun haccept hb hqueue hwaiting harrived => ?_⟩
  · refine hinv.read.handed.trans (List.IsPrefix.trans (List.IsPrefix.map _ ?_) hbegins)
    rw [← hrest]
    exact frames_packets_prefix _ _
  · obtain ⟨_, _, -, -, -, hreceived, -⟩ := hinv.read.reading (hinv.read.still haccept)
    have hwritten : s.written.take s.arrived = sealedBytes c (sent h) := by
      rw [harrived, List.take_length, ← hinv.whole hb, hwaiting, hqueue, List.append_nil]
      exact (List.append_nil _).symm
    rw [hreceived, hwritten, (sealedBytes_eq c fun p hp => (hinv.fits p hp).2).1, out_wire_out]
    exact (hall fun s p => (haccept s p).1).1

instance (s : Channel Unit Unit) : (e : Event) → Decidable (Orderly s e)
  | .sendPacket packet _ => inferInstanceAs (Decidable (packet.contents.length ≤ 4098))
  | .update _ => inferInstanceAs (Decidable (Batched s.sender.sendBufferSize 0 s.sender.bufferQueue))
  | .writable _ | .closeSocket | .arrive _ => .isTrue trivial

/-- A plain connection with small buffers. -/
def plain : Channel Unit Unit where
  sender :=
    { session := (), isEncrypted := false, encryption := RC4Cipher.blank, decryption := RC4Cipher.blank
      readBuffer := .ofSize 16, sendBufferSize := 64 }
  receiver := started () false RC4Cipher.blank 16

/-- A bare header over a plain connection, read in two pieces. -/
theorem received_prefix_sent_bare :
    ∃ (h : History (Channel Unit Unit) Event) (s : Channel Unit Unit), s.receiver.received.length = 1 ∧
      s.receiver.received <+: (sent h).map arrivesAs := by
  obtain ⟨h, s, hrun, hs⟩ := System.exists_run_exec (C := fun _ s e => Orderly s e)
    (f := step fun _ _ => ⟨(), false, .ok⟩) (fun s => s.receiver.received.length)
    [.sendPacket ⟨0, List.replicate 7 0⟩ (by decide), .update [.sent 7], .arrive 3, .arrive 4]
    (.init (⟨rfl, rfl, rfl, rfl, rfl, rfl, rfl⟩ : Init false RC4Cipher.blank () 16 plain))
    (a := 1) (by decide +kernel)
  exact ⟨h, s, hs, (received_prefix_sent hrun).1⟩
end RZEmulator.Shared.Channel
