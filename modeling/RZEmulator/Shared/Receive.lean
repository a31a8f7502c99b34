import RZEmulator.Shared.Framing

/-!
# The read handlers deliver the frames of the stream

Between two chunks a socket is `Waiting` with the raw bytes that have arrived of the packet it is
collecting. `readTurn_spec` says what one turn of the loop does to such a state, by what stands at the
start of the stream it has; the loop and the run over the chunks follow by induction.
-/

namespace RZEmulator.Shared

open Lib MessageBuffer

namespace XSocket

variable {σ : Type} {process : σ → XPacket → Handled σ}

/-! ## The parts of a turn -/

theorem decodeIn_filled (s : XSocket σ) {bytes : List UInt8} (h : bytes.length < 2 ^ 31) :
    s.decodeIn (filled bytes []) bytes.length =
      some ((wire s.isEncrypted).after s.decryption bytes,
        filled ((wire s.isEncrypted).out s.decryption bytes) []) := by
  unfold decodeIn wire
  cases s.isEncrypted with
  | false => simp
  | true =>
    rw [if_pos rfl, if_pos rfl, atReadPointer_view, RC4Cipher.code_of_lt _ h]
    simp [view]

/-- A complete header is decoded, and accepted unless its size exceeds the limit. -/
theorem readHeaderHandler_eq {s : XSocket σ} {h : List UInt8} (hlen : h.length = HEADER_SIZE)
    (hs : s.headerBuffer = filled h []) :
    let m := TS_MESSAGE.ofBytes ((wire s.isEncrypted).out s.decryption h)
    let t := { s with
      decryption := (wire s.isEncrypted).after s.decryption h
      headerBuffer := filled ((wire s.isEncrypted).out s.decryption h) [] }
    s.readHeaderHandler = some (if 4098 < m.size then (t, false) else
      ({ t with packetBuffer := s.packetBuffer.resize (m.size - UInt32.ofNat HEADER_SIZE).toNat },
        true)) := by
  intro m t
  have hdec := s.decodeIn_filled (show h.length < 2 ^ 31 by rw [hlen]; decide)
  rw [hlen] at hdec
  have hm : t.header = m := by
    show TS_MESSAGE.ofBytes (filled _ []).atReadPointer = m
    rw [atReadPointer_view, List.append_nil]
  unfold readHeaderHandler
  rw [hs, hdec, Option.bind_eq_bind, Option.bind_some]
  show (if 4098 < t.header.size then _ else _) = _
  rw [hm]
  split_ifs <;> rfl

/-- The packet of a complete header and payload. -/
def packetOf (s : XSocket σ) (payload : List UInt8) : XPacket :=
  ⟨s.header.id, (wire s.isEncrypted).out s.decryption payload⟩

/-- The state after the packet with the given payload has been handed to its handler. -/
def afterPacket (process : σ → XPacket → Handled σ) (s : XSocket σ) (payload : List UInt8) :
    XSocket σ :=
  let r := process s.session (s.packetOf payload)
  { s with
    decryption := (wire s.isEncrypted).after s.decryption payload
    headerBuffer := s.headerBuffer.reset
    packetBuffer := filled [] []
    session := r.session
    closed := s.closed || r.closes
    received := s.received ++ [s.packetOf payload] }

theorem deliver_eq {s : XSocket σ} {payload : List UInt8} (hlen : payload.length < 2 ^ 31)
    (hs : s.packetBuffer = filled payload []) :
    s.deliver process =
      some (if (process s.session (s.packetOf payload)).result ≠ .ok
        then .left (s.afterPacket process payload) else .again (s.afterPacket process payload)) := by
  have hsize : (filled payload []).getBufferSize = payload.length := by simp
  unfold deliver readDataHandler
  rw [hs, hsize, s.decodeIn_filled hlen]
  have hstorage : (filled ((wire s.isEncrypted).out s.decryption payload) []).storage =
      (wire s.isEncrypted).out s.decryption payload := by simp [view]
  simp only [Option.bind_eq_bind, Option.bind_some, hstorage, Option.pure_def, moved_eq]
  show (if (process s.session (s.packetOf payload)).result ≠ .ok then _ else _) = _
  split_ifs <;> rfl

section

variable {s : XSocket σ} {done x junk d j : List UInt8}

/-- A chunk that ends within the payload. -/
theorem readPayload_part (hread : s.readBuffer = view done x junk)
    (hpacket : s.packetBuffer = filled d j) (hx : x.length < j.length) :
    s.readPayload process = some (.broken { s with
      packetBuffer := filled (d ++ x) (j.drop x.length)
      readBuffer := view (done ++ x) [] junk }) := by
  unfold readPayload
  rw [hread, hpacket, getRemainingSpace_view, getActiveSize_view, active_view, if_pos (by omega),
    Nat.min_eq_left (by omega)]
  dsimp only
  rw [List.take_length, write_view _ _ _ _ (by omega), Option.bind_eq_bind, Option.bind_some,
    readCompleted_view _ _ _ le_rfl]
  simp only [getRemainingSpace_view, getActiveSize_view, List.take_length, List.drop_length,
    List.length_nil, List.length_drop]
  rw [if_pos (by omega), if_pos trivial]
  rfl

/-- A chunk that holds all that the payload lacks. -/
theorem readPayload_whole (hread : s.readBuffer = view done x junk)
    (hpacket : s.packetBuffer = filled d j) (hx : j.length ≤ x.length) :
    s.readPayload process = deliver process { s with
      packetBuffer := filled (d ++ x.take j.length) []
      readBuffer := view (done ++ x.take j.length) (x.drop j.length) junk } := by
  unfold readPayload
  rw [hread, hpacket, getRemainingSpace_view, getActiveSize_view, active_view]
  by_cases hj : 0 < j.length
  · have htake : (x.take j.length).length = j.length := by
      rw [List.length_take]
      omega
    rw [if_pos hj, Nat.min_eq_right hx]
    dsimp only
    rw [write_view _ _ _ _ (by omega), Option.bind_eq_bind, Option.bind_some,
      readCompleted_view _ _ _ hx, htake]
    simp only [getRemainingSpace_view, List.drop_length, List.length_nil]
    rw [if_neg (by omega)]
  · have hnil : j = [] := List.length_eq_zero_iff.mp (by omega)
    subst hnil
    rw [if_neg hj]
    simp only [List.length_nil, List.take_zero, List.drop_zero, List.append_nil, ← hread, ← hpacket]

/-- A chunk that ends within the header. -/
theorem readTurn_header_part (hread : s.readBuffer = view done x junk)
    (hheader : s.headerBuffer = filled d j) (hx : x.length < j.length) :
    s.readTurn process = some (.broken { s with
      headerBuffer := filled (d ++ x) (j.drop x.length)
      readBuffer := view (done ++ x) [] junk }) := by
  unfold readTurn
  rw [hread, hheader, getRemainingSpace_view, getActiveSize_view, active_view, if_pos (by omega),
    Nat.min_eq_left (by omega)]
  dsimp only
  rw [List.take_length, write_view _ _ _ _ (by omega), Option.bind_eq_bind, Option.bind_some,
    readCompleted_view _ _ _ le_rfl]
  simp only [getRemainingSpace_view, getActiveSize_view, List.take_length, List.drop_length,
    List.length_nil, List.length_drop]
  rw [if_pos (by omega), if_pos trivial]
  rfl

/-- A chunk that holds all that the header lacks. -/
theorem readTurn_header_whole (hread : s.readBuffer = view done x junk)
    (hheader : s.headerBuffer = filled d j) (hj : 0 < j.length) (hx : j.length ≤ x.length) :
    s.readTurn process = (readHeaderHandler { s with
      headerBuffer := filled (d ++ x.take j.length) []
      readBuffer := view (done ++ x.take j.length) (x.drop j.length) junk }).bind fun r =>
        if ¬r.2 then some (.left r.1.closeSocket) else r.1.readPayload process := by
  have htake : (x.take j.length).length = j.length := by
    rw [List.length_take]
    omega
  unfold readTurn
  rw [hread, hheader, getRemainingSpace_view, getActiveSize_view, active_view, if_pos hj,
    Nat.min_eq_right hx]
  dsimp only
  rw [write_view _ _ _ _ (by omega), Option.bind_eq_bind, Option.bind_some,
    readCompleted_view _ _ _ hx, htake]
  simp only [getRemainingSpace_view, List.drop_length, List.length_nil]
  rw [if_neg (by omega)]
  rfl

theorem readTurn_payload (hheader : s.headerBuffer = filled d []) :
    s.readTurn process = s.readPayload process := by
  unfold readTurn
  rw [hheader, getRemainingSpace_view, if_neg (by simp)]

end

/-! ## What stands at the start of a stream with a complete header -/

section

variable {h : List UInt8}

theorem nextFrame_of_malformed (t : List UInt8) (hlen : h.length = HEADER_SIZE)
    (hsize : (TS_MESSAGE.ofBytes h).size.toNat < HEADER_SIZE ∨
      4098 < (TS_MESSAGE.ofBytes h).size.toNat) :
    nextFrame (h ++ t) = .malformed (TS_MESSAGE.ofBytes h).size := by
  unfold nextFrame
  rw [TS_MESSAGE.ofBytes_append (by omega), List.length_append]
  dsimp only
  rw [if_neg (by omega), if_pos hsize]

theorem nextFrame_of_part {d : List UInt8} (hlen : h.length = HEADER_SIZE)
    (hd : d.length + HEADER_SIZE < (TS_MESSAGE.ofBytes h).size.toNat)
    (hsize : (TS_MESSAGE.ofBytes h).size.toNat ≤ 4098) : nextFrame (h ++ d) = .part := by
  unfold nextFrame
  rw [TS_MESSAGE.ofBytes_append (by omega), List.length_append]
  dsimp only
  rw [if_neg (by omega), if_neg (by omega), if_pos (by omega)]

theorem nextFrame_of_whole {payload : List UInt8} (t : List UInt8) (hlen : h.length = HEADER_SIZE)
    (hpayload : payload.length + HEADER_SIZE = (TS_MESSAGE.ofBytes h).size.toNat)
    (hsize : (TS_MESSAGE.ofBytes h).size.toNat ≤ 4098) :
    nextFrame (h ++ payload ++ t) = .whole ⟨(TS_MESSAGE.ofBytes h).id, payload⟩ t := by
  have hall : (h ++ payload).length = (TS_MESSAGE.ofBytes h).size.toNat := by
    rw [List.length_append]
    omega
  unfold nextFrame
  rw [List.append_assoc, TS_MESSAGE.ofBytes_append (by omega), ← List.append_assoc]
  dsimp only
  rw [if_neg (by rw [List.length_append]; omega), if_neg (by omega),
    if_neg (by rw [List.length_append]; omega), ← hall, List.take_left, List.drop_left, ← hlen,
    List.drop_left]

end

/-! ## Sockets between two chunks -/

/-- The socket has the header `h` and the part `d` of the payload, both raw; `c` was the cipher before
them. -/
structure AtPayload (s : XSocket σ) (c : RC4Cipher) (h d : List UInt8) : Prop where
  complete : h.length = HEADER_SIZE
  header : s.headerBuffer = filled ((wire s.isEncrypted).out c h) []
  decryption : s.decryption = (wire s.isEncrypted).after c h
  packet : ∃ j, s.packetBuffer = filled d j ∧ d.length + j.length + HEADER_SIZE =
    (TS_MESSAGE.ofBytes ((wire s.isEncrypted).out c h)).size.toNat
  size : (TS_MESSAGE.ofBytes ((wire s.isEncrypted).out c h)).size.toNat ≤ 4098

/-- The socket waits with the bytes `raw` of a packet; `c` was the cipher before them. -/
inductive Waiting (s : XSocket σ) (c : RC4Cipher) : List UInt8 → Prop
  | header {raw hj pj : List UInt8} (header : s.headerBuffer = filled raw hj)
      (part : raw.length + hj.length = HEADER_SIZE) (more : 0 < hj.length)
      (packet : s.packetBuffer = filled [] pj) (small : pj.length ≤ 4096)
      (decryption : s.decryption = c) : Waiting s c raw
  | payload {h d : List UInt8} (at_payload : AtPayload s c h d)
      (more : d.length + HEADER_SIZE <
        (TS_MESSAGE.ofBytes ((wire s.isEncrypted).out c h)).size.toNat) : Waiting s c (h ++ d)

/-- What a turn leaves of the socket apart from its buffers and the cipher. -/
structure Kept (s s' : XSocket σ) : Prop where
  session : s'.session = s.session
  closed : s'.closed = s.closed
  received : s'.received = s.received
  isEncrypted : s'.isEncrypted = s.isEncrypted
  reading : s'.reading = s.reading

/-- The packet has been handed to its handler. -/
structure Took (process : σ → XPacket → Handled σ) (s s' : XSocket σ) (packet : XPacket) : Prop where
  session : s'.session = (process s.session packet).session
  closed : s'.closed = (s.closed || (process s.session packet).closes)
  received : s'.received = s.received ++ [packet]
  isEncrypted : s'.isEncrypted = s.isEncrypted
  reading : s'.reading = s.reading

/-- What a turn does, by the header: it is still not complete, it has a size that no packet has, or the
turn goes on with the payload, of which some bytes may have been there before. A size below that of the
header wraps around and is taken for that of a huge payload. -/
inductive Dispatched (process : σ → XPacket → Handled σ) (s : XSocket σ) (c : RC4Cipher)
    (raw done x junk : List UInt8) : Prop
  | part (s' : XSocket σ) (short : raw.length + x.length < HEADER_SIZE)
      (turn : s.readTurn process = some (.broken s')) (waiting : s'.Waiting c (raw ++ x))
      (readBuffer : s'.readBuffer = view (done ++ x) [] junk) (kept : s.Kept s')
  | big (h y : List UInt8) (s' : XSocket σ) (split : raw ++ x = h ++ y)
      (complete : h.length = HEADER_SIZE)
      (size : 4098 < (TS_MESSAGE.ofBytes ((wire s.isEncrypted).out c h)).size.toNat)
      (turn : s.readTurn process = some (.left s')) (closed : s'.closed = true)
      (session : s'.session = s.session) (received : s'.received = s.received)
      (isEncrypted : s'.isEncrypted = s.isEncrypted) (reading : s'.reading = s.reading)
      (packet : s'.packetBuffer = s.packetBuffer)
  | small (h y z j : List UInt8) (t : XSocket σ) (split : raw ++ x = h ++ y)
      (complete : h.length = HEADER_SIZE)
      (size : (TS_MESSAGE.ofBytes ((wire s.isEncrypted).out c h)).size.toNat < HEADER_SIZE)
      (turn : s.readTurn process = t.readPayload process)
      (readBuffer : t.readBuffer = view z y junk) (packet : t.packetBuffer = filled [] j)
      (wrapped : 4098 < j.length) (received : t.received = s.received)
  | payload (h d pre y : List UInt8) (t : XSocket σ) (split : x = pre ++ y)
      (header : raw ++ pre = h ++ d) (at_payload : t.AtPayload c h d)
      (readBuffer : t.readBuffer = view (done ++ pre) y junk)
      (turn : s.readTurn process = t.readPayload process) (kept : s.Kept t)

section

variable {s : XSocket σ} {c : RC4Cipher} {raw done x junk h d : List UInt8}

theorem Waiting.small (hw : s.Waiting c raw) : s.packetBuffer.getBufferSize ≤ 4096 := by
  cases hw with
  | header _ _ _ hpacket hsmall _ =>
    rw [hpacket, getBufferSize_view]
    simpa using hsmall
  | payload hat _ =>
    obtain ⟨j, hj, hlen⟩ := hat.packet
    have := hat.size
    rw [hj, getBufferSize_view]
    unfold HEADER_SIZE at hlen
    simp only [List.length_nil]
    omega

/-- What a socket waits for is in its two buffers and its cipher. -/
theorem Waiting.congr (hw : s.Waiting c raw) {t : XSocket σ} (he : t.isEncrypted = s.isEncrypted)
    (hh : t.headerBuffer = s.headerBuffer) (hp : t.packetBuffer = s.packetBuffer)
    (hd : t.decryption = s.decryption) : t.Waiting c raw := by
  cases hw with
  | header header part more packet small decryption =>
    exact .header (hh.trans header) part more (hp.trans packet) small (hd.trans decryption)
  | payload hat more =>
    rw [← he] at more
    refine .payload ⟨hat.complete, ?_, ?_, ?_, ?_⟩ more
    · rw [hh, he, hat.header]
    · rw [hd, he, hat.decryption]
    · rw [hp, he]
      exact hat.packet
    · rw [he]
      exact hat.size

/-- A socket that waits has part of a packet. -/
theorem Waiting.nextFrame (hw : s.Waiting c raw) :
    nextFrame ((wire s.isEncrypted).out c raw) = .part := by
  cases hw with
  | header _ hpart hmore _ _ _ =>
    unfold Shared.nextFrame
    dsimp only
    rw [Mealy.length_out, if_pos (by omega)]
  | payload hat hmore =>
    rw [Mealy.out_append]
    exact nextFrame_of_part (by rw [Mealy.length_out, hat.complete]) (by rwa [Mealy.length_out])
      hat.size

variable (process) in
/-- A turn that does not complete the payload. -/
theorem AtPayload.part (hat : s.AtPayload c h d) (hread : s.readBuffer = view done x junk)
    (hx : d.length + x.length + HEADER_SIZE <
      (TS_MESSAGE.ofBytes ((wire s.isEncrypted).out c h)).size.toNat) :
    ∃ s', s.readPayload process = some (.broken s') ∧ s'.Waiting c (h ++ (d ++ x)) ∧
      s'.readBuffer = view (done ++ x) [] junk ∧ s.Kept s' := by
  obtain ⟨j, hj, hlen⟩ := hat.packet
  refine ⟨_, readPayload_part hread hj (by omega), ?_, rfl, ⟨rfl, rfl, rfl, rfl, rfl⟩⟩
  refine .payload ⟨hat.complete, hat.header, hat.decryption, ⟨_, rfl, ?_⟩, hat.size⟩ ?_
  · show (d ++ x).length + (j.drop x.length).length + HEADER_SIZE =
      (TS_MESSAGE.ofBytes ((wire s.isEncrypted).out c h)).size.toNat
    rw [List.length_append, List.length_drop]
    omega
  · rw [List.length_append]
    exact hx

variable (process) in
/-- A turn that completes the payload hands the packet at the start of the stream to its handler, and
leaves the socket waiting with the rest. -/
theorem AtPayload.whole (hat : s.AtPayload c h d) (hread : s.readBuffer = view done x junk)
    (hx : (TS_MESSAGE.ofBytes ((wire s.isEncrypted).out c h)).size.toNat ≤
      d.length + x.length + HEADER_SIZE) :
    ∃ packet used x' s', x = used ++ x' ∧
      nextFrame ((wire s.isEncrypted).out c (h ++ (d ++ x))) =
        .whole packet ((wire s.isEncrypted).out
          ((wire s.isEncrypted).after c (h ++ (d ++ used))) x') ∧
      s.readPayload process =
        some (if (process s.session packet).result ≠ .ok then .left s' else .again s') ∧
      s'.Waiting ((wire s.isEncrypted).after c (h ++ (d ++ used))) [] ∧
      s'.readBuffer = view (done ++ used) x' junk ∧ s.Took process s' packet := by
  obtain ⟨j, hj, hlen⟩ := hat.packet
  have hsize := hat.size
  have htake : (x.take j.length).length = j.length := by
    rw [List.length_take]
    omega
  set w := wire s.isEncrypted with hw
  set t : XSocket σ := { s with
    packetBuffer := filled (d ++ x.take j.length) []
    readBuffer := view (done ++ x.take j.length) (x.drop j.length) junk } with ht
  have hid : t.header = TS_MESSAGE.ofBytes (w.out c h) := by
    show TS_MESSAGE.ofBytes s.headerBuffer.atReadPointer = _
    rw [hat.header, atReadPointer_view, List.append_nil]
  have hpacket : t.packetOf (d ++ x.take j.length) =
      ⟨(TS_MESSAGE.ofBytes (w.out c h)).id, w.out (w.after c h) (d ++ x.take j.length)⟩ := by
    unfold packetOf
    rw [hid]
    show XPacket.mk _ (w.out s.decryption _) = _
    rw [hat.decryption]
  have hafter : w.after c (h ++ (d ++ x.take j.length)) =
      w.after (w.after c h) (d ++ x.take j.length) := Mealy.after_append ..
  refine ⟨t.packetOf (d ++ x.take j.length), x.take j.length, x.drop j.length,
    t.afterPacket process (d ++ x.take j.length), (List.take_append_drop ..).symm, ?_, ?_, ?_, rfl,
    ⟨rfl, rfl, rfl, rfl, rfl⟩⟩
  · have hplain : w.out c (h ++ (d ++ x)) = w.out c h ++
        w.out (w.after c h) (d ++ x.take j.length) ++
          w.out (w.after c (h ++ (d ++ x.take j.length))) (x.drop j.length) := by
      rw [hafter, List.append_assoc, ← Mealy.out_append, ← Mealy.out_append, List.append_assoc,
        List.take_append_drop]
    rw [hplain, hpacket]
    refine nextFrame_of_whole _ (by rw [Mealy.length_out, hat.complete]) ?_ hsize
    rw [Mealy.length_out, List.length_append, htake]
    omega
  · rw [readPayload_whole hread hj (by omega)]
    refine deliver_eq ?_ rfl
    rw [List.length_append, htake]
    omega
  · refine @Waiting.header _ _ _ _ (w.out c h) _ ?_ ?_ ?_ rfl (Nat.zero_le _) ?_
    · show s.headerBuffer.reset = _
      rw [hat.header, reset_view]
      simp [w]
    · rw [Mealy.length_out, hat.complete]
      exact Nat.zero_add _
    · rw [Mealy.length_out, hat.complete]
      decide
    · show w.after s.decryption _ = _
      rw [hafter, hat.decryption]

/-- An accepted header is not malformed. -/
theorem AtPayload.ne_malformed (hat : s.AtPayload c h d) (x : List UInt8) {size : UInt32} :
    nextFrame ((wire s.isEncrypted).out c (h ++ (d ++ x))) ≠ .malformed size := by
  obtain ⟨j, -, hlen⟩ := hat.packet
  have hsize := hat.size
  unfold nextFrame
  rw [Mealy.out_append, TS_MESSAGE.ofBytes_append (by rw [Mealy.length_out, hat.complete])]
  dsimp only
  split_ifs <;> first | omega | exact nofun

variable (process) in
/-- The turn that completes a header of an acceptable size goes on with the payload. -/
theorem readTurn_accept {hj pj : List UInt8} (hread : s.readBuffer = view done x junk)
    (hheader : s.headerBuffer = filled raw hj) (hpart : raw.length + hj.length = HEADER_SIZE)
    (hmore : 0 < hj.length) (hpacket : s.packetBuffer = filled [] pj) (hc : s.decryption = c)
    (hx : hj.length ≤ x.length) :
    let w := wire s.isEncrypted
    let h := raw ++ x.take hj.length
    let m := TS_MESSAGE.ofBytes (w.out c h)
    let bytes := (m.size - UInt32.ofNat HEADER_SIZE).toNat
    let t : XSocket σ := { s with
      decryption := w.after c h
      headerBuffer := filled (w.out c h) []
      packetBuffer := filled [] (pj.takeD bytes 0)
      readBuffer := view (done ++ x.take hj.length) (x.drop hj.length) junk }
    h.length = HEADER_SIZE ∧
    (m.size.toNat ≤ 4098 → s.readTurn process = t.readPayload process) ∧
    (4098 < m.size.toNat → ∃ s', s.readTurn process = some (.left s') ∧
      s'.closed = true ∧ s'.session = s.session ∧ s'.received = s.received ∧
      s'.isEncrypted = s.isEncrypted ∧ s'.reading = s.reading ∧
      s'.packetBuffer = s.packetBuffer) := by
  subst hc
  intro w h m bytes t
  have hlen : h.length = HEADER_SIZE := by
    show (raw ++ x.take hj.length).length = _
    rw [List.length_append, List.length_take]
    omega
  have hread' := readHeaderHandler_eq (s := { s with
    headerBuffer := filled h []
    readBuffer := view (done ++ x.take hj.length) (x.drop hj.length) junk }) hlen rfl
  dsimp only at hread'
  refine ⟨hlen, fun hle => ?_, fun hlt => ?_⟩
  · rw [if_neg (by rw [UInt32.lt_iff_toNat_lt]; exact not_lt.mpr hle)] at hread'
    rw [readTurn_header_whole hread hheader hmore hx, hread', hpacket]
    rfl
  · rw [if_pos (by rw [UInt32.lt_iff_toNat_lt]; exact hlt)] at hread'
    rw [readTurn_header_whole hread hheader hmore hx, hread']
    exact ⟨_, rfl, rfl, rfl, rfl, rfl, rfl, rfl⟩

theorem Waiting.dispatch (process : σ → XPacket → Handled σ) (hw : s.Waiting c raw)
    (hread : s.readBuffer = view done x junk) : s.Dispatched process c raw done x junk := by
  cases hw with
  | @header _ hj pj hheader hpart hmore hpacket hsmall hc =>
    by_cases hx : hj.length ≤ x.length
    · obtain ⟨hlen, haccept, hreject⟩ :=
        readTurn_accept process hread hheader hpart hmore hpacket hc hx
      have happ : raw ++ x = raw ++ x.take hj.length ++ x.drop hj.length := by
        rw [List.append_assoc, List.take_append_drop]
      by_cases hbig : 4098 <
          (TS_MESSAGE.ofBytes ((wire s.isEncrypted).out c (raw ++ x.take hj.length))).size.toNat
      · obtain ⟨s', hturn, hclosed, hsession, hreceived, hencrypted, hreading, hbuffer⟩ :=
          hreject hbig
        exact .big _ _ s' happ hlen hbig hturn hclosed hsession hreceived hencrypted hreading hbuffer
      · by_cases hsmall' : (TS_MESSAGE.ofBytes
            ((wire s.isEncrypted).out c (raw ++ x.take hj.length))).size.toNat < HEADER_SIZE
        · refine .small _ _ _ _ _ happ hlen hsmall' (haccept (by omega)) rfl rfl ?_ rfl
          -- the size of the payload wraps around
          rw [List.takeD_length, UInt32.toNat_sub]
          have h7 : (UInt32.ofNat HEADER_SIZE).toNat = 7 := rfl
          unfold HEADER_SIZE at hsmall'
          rw [h7]
          omega
        · refine .payload _ [] _ _ _ (List.take_append_drop hj.length x).symm
            (List.append_nil _).symm ?_ rfl (haccept (by omega)) ⟨rfl, rfl, rfl, rfl, rfl⟩
          refine ⟨hlen, rfl, rfl, ⟨_, rfl, ?_⟩, not_lt.mp hbig⟩
          have hle : UInt32.ofNat HEADER_SIZE ≤ (TS_MESSAGE.ofBytes
              ((wire s.isEncrypted).out c (raw ++ x.take hj.length))).size := by
            rw [UInt32.le_iff_toNat_le]
            exact not_lt.mp hsmall'
          rw [List.takeD_length, UInt32.toNat_sub_of_le _ _ hle, List.length_nil, Nat.zero_add]
          exact Nat.sub_add_cancel (not_lt.mp hsmall')
    · refine .part _ (by omega) (readTurn_header_part hread hheader (by omega)) ?_ rfl
        ⟨rfl, rfl, rfl, rfl, rfl⟩
      refine .header rfl ?_ ?_ hpacket hsmall hc
      · rw [List.length_append, List.length_drop]
        omega
      · rw [List.length_drop]
        omega
  | @payload h d hat hmore =>
    refine .payload h d [] x s rfl (List.append_nil _) hat ?_ (readTurn_payload hat.header)
      ⟨rfl, rfl, rfl, rfl, rfl⟩
    rw [List.append_nil]
    exact hread

variable (process) in
/-- A turn on a stream that is still part of a packet. -/
theorem Waiting.turn_part (hw : s.Waiting c raw) (hread : s.readBuffer = view done x junk)
    (hf : Shared.nextFrame ((wire s.isEncrypted).out c (raw ++ x)) = .part) :
    ∃ s', s.readTurn process = some (.broken s') ∧ s'.Waiting c (raw ++ x) ∧
      s'.readBuffer = view (done ++ x) [] junk ∧ s.Kept s' := by
  cases hw.dispatch process hread with
  | part s' _ hturn hw' hb hkept => exact ⟨s', hturn, hw', hb, hkept⟩
  | big h y s' happ hlen hsize =>
    rw [happ, Mealy.out_append, nextFrame_of_malformed _ (by rw [Mealy.length_out, hlen])
      (.inr hsize)] at hf
    cases hf
  | small h y z j t happ hlen hsize =>
    rw [happ, Mealy.out_append, nextFrame_of_malformed _ (by rw [Mealy.length_out, hlen])
      (.inl hsize)] at hf
    cases hf
  | payload h d pre y t hx happ hat htread hturn hkept =>
    subst hx
    have hwire : wire s.isEncrypted = wire t.isEncrypted := by rw [hkept.isEncrypted]
    rw [← List.append_assoc, happ, List.append_assoc, hwire] at hf
    by_cases hx : d.length + y.length + HEADER_SIZE <
        (TS_MESSAGE.ofBytes ((wire t.isEncrypted).out c h)).size.toNat
    · obtain ⟨s', hp, hw', hb, hk⟩ := hat.part process htread hx
      refine ⟨s', hturn.trans hp, ?_, ?_, ?_⟩
      · rw [← List.append_assoc, happ, List.append_assoc]
        exact hw'
      · rw [hb, List.append_assoc]
      · exact ⟨hk.session.trans hkept.session, hk.closed.trans hkept.closed,
          hk.received.trans hkept.received, hk.isEncrypted.trans hkept.isEncrypted,
          hk.reading.trans hkept.reading⟩
    · obtain ⟨_, _, _, _, _, hn, _⟩ := hat.whole process htread (not_lt.mp hx)
      rw [hn] at hf
      cases hf

variable (process) in
/-- A turn on a stream that starts with a complete packet. -/
theorem Waiting.turn_whole (hw : s.Waiting c raw) (hread : s.readBuffer = view done x junk)
    {packet : XPacket} {rest : List UInt8}
    (hf : Shared.nextFrame ((wire s.isEncrypted).out c (raw ++ x)) = .whole packet rest) :
    ∃ used x' s', x = used ++ x' ∧
      rest = (wire s.isEncrypted).out ((wire s.isEncrypted).after c (raw ++ used)) x' ∧
      s.readTurn process =
        some (if (process s.session packet).result ≠ .ok then .left s' else .again s') ∧
      s'.Waiting ((wire s.isEncrypted).after c (raw ++ used)) [] ∧
      s'.readBuffer = view (done ++ used) x' junk ∧ s.Took process s' packet := by
  cases hw.dispatch process hread with
  | part _ hlt =>
    unfold Shared.nextFrame at hf
    dsimp only at hf
    rw [Mealy.length_out, List.length_append, if_pos hlt] at hf
    cases hf
  | big h y s' happ hlen hsize =>
    rw [happ, Mealy.out_append, nextFrame_of_malformed _ (by rw [Mealy.length_out, hlen])
      (.inr hsize)] at hf
    cases hf
  | small h y z j t happ hlen hsize =>
    rw [happ, Mealy.out_append, nextFrame_of_malformed _ (by rw [Mealy.length_out, hlen])
      (.inl hsize)] at hf
    cases hf
  | payload h d pre y t hx happ hat htread hturn hkept =>
    subst hx
    have hwire : wire s.isEncrypted = wire t.isEncrypted := by rw [hkept.isEncrypted]
    rw [hwire] at hf ⊢
    rw [← List.append_assoc, happ, List.append_assoc] at hf
    by_cases hx : d.length + y.length + HEADER_SIZE <
        (TS_MESSAGE.ofBytes ((wire t.isEncrypted).out c h)).size.toNat
    · rw [Mealy.out_append, nextFrame_of_part (by rw [Mealy.length_out, hat.complete])
        (by rw [Mealy.length_out, List.length_append]; exact hx) hat.size] at hf
      cases hf
    · obtain ⟨packet', used, x', s', rfl, hn, hp, hw', hb, htook⟩ :=
        hat.whole process htread (not_lt.mp hx)
      rw [hn] at hf
      obtain ⟨rfl, rfl⟩ := NextFrame.whole.inj hf
      have hraw : raw ++ (pre ++ used) = h ++ (d ++ used) := by
        rw [← List.append_assoc, happ, List.append_assoc]
      refine ⟨pre ++ used, x', s', (List.append_assoc ..).symm, by rw [hraw], ?_, by rwa [hraw],
        by rw [hb, List.append_assoc], ?_⟩
      · rw [hturn, hp, hkept.session]
      · exact ⟨htook.session.trans (by rw [hkept.session]),
          htook.closed.trans (by rw [hkept.session, hkept.closed]),
          htook.received.trans (by rw [hkept.received]),
          htook.isEncrypted.trans hkept.isEncrypted, htook.reading.trans hkept.reading⟩

/-- A turn that takes a packet has read something, since the socket was waiting for it. -/
theorem Waiting.used_pos (hw : s.Waiting c raw) {packet : XPacket} {used x' : List UInt8}
    (hf : Shared.nextFrame ((wire s.isEncrypted).out c (raw ++ (used ++ x'))) =
      .whole packet ((wire s.isEncrypted).out ((wire s.isEncrypted).after c (raw ++ used)) x')) :
    0 < used.length := by
  apply List.length_pos_iff.mpr
  rintro rfl
  rw [List.nil_append, Mealy.out_append, List.append_nil] at hf
  exact nextFrame_ne_part hf hw.nextFrame

variable (process) in
/-- A turn on a stream that starts with a header of a size above the limit closes the socket. -/
theorem Waiting.turn_malformed (hw : s.Waiting c raw) (hread : s.readBuffer = view done x junk)
    {size : UInt32}
    (hf : Shared.nextFrame ((wire s.isEncrypted).out c (raw ++ x)) = .malformed size)
    (hsize : HEADER_SIZE ≤ size.toNat) :
    ∃ s', s.readTurn process = some (.left s') ∧ s'.closed = true ∧ s'.session = s.session ∧
      s'.received = s.received ∧ s'.isEncrypted = s.isEncrypted ∧ s'.reading = s.reading ∧
      s'.packetBuffer = s.packetBuffer := by
  cases hw.dispatch process hread with
  | part _ hlt =>
    unfold Shared.nextFrame at hf
    dsimp only at hf
    rw [Mealy.length_out, List.length_append, if_pos hlt] at hf
    cases hf
  | big h y s' happ hlen hbig hturn hclosed hsession hreceived hencrypted hreading hpacket =>
    exact ⟨s', hturn, hclosed, hsession, hreceived, hencrypted, hreading, hpacket⟩
  | small h y z j t happ hlen hsmall =>
    rw [happ, Mealy.out_append, nextFrame_of_malformed _ (by rw [Mealy.length_out, hlen])
      (.inl hsmall)] at hf
    rw [← NextFrame.malformed.inj hf] at hsize
    omega
  | payload h d pre y t hx happ hat htread hturn hkept =>
    subst hx
    have hwire : wire s.isEncrypted = wire t.isEncrypted := by rw [hkept.isEncrypted]
    rw [← List.append_assoc, happ, List.append_assoc, hwire] at hf
    exact absurd hf (hat.ne_malformed y)

variable (process) in
/-- A turn on a stream that starts with a header of a size below that of the header itself goes on with
a huge payload. -/
theorem Waiting.turn_short (hw : s.Waiting c raw) (hread : s.readBuffer = view done x junk)
    {size : UInt32}
    (hf : Shared.nextFrame ((wire s.isEncrypted).out c (raw ++ x)) = .malformed size)
    (hsize : size.toNat < HEADER_SIZE) :
    ∃ (y z j : List UInt8) (t : XSocket σ), s.readTurn process = t.readPayload process ∧
      t.readBuffer = view z y junk ∧ t.packetBuffer = filled [] j ∧ 4098 < j.length ∧
      t.received = s.received := by
  cases hw.dispatch process hread with
  | part _ hlt =>
    unfold Shared.nextFrame at hf
    dsimp only at hf
    rw [Mealy.length_out, List.length_append, if_pos hlt] at hf
    cases hf
  | big h y s' happ hlen hbig =>
    rw [happ, Mealy.out_append, nextFrame_of_malformed _ (by rw [Mealy.length_out, hlen])
      (.inr hbig)] at hf
    rw [← NextFrame.malformed.inj hf] at hsize
    unfold HEADER_SIZE at hsize
    omega
  | small h y z j t happ hlen hsmall hturn hb hp hj hr => exact ⟨y, z, j, t, hturn, hb, hp, hj, hr⟩
  | payload h d pre y t hx happ hat htread hturn hkept =>
    subst hx
    have hwire : wire s.isEncrypted = wire t.isEncrypted := by rw [hkept.isEncrypted]
    rw [← List.append_assoc, happ, List.append_assoc, hwire] at hf
    exact absurd hf (hat.ne_malformed y)

end

/-! ## The loop over a chunk -/

/-- Whether some packet of a framing closes the socket. -/
def closes (f : Framing σ) : Bool := f.packets.any Prod.snd

/-- What a chunk leaves of a socket with a read buffer of `bufferSize` bytes: `c` and `raw` are the
cipher and the bytes of the packet it was collecting with the chunk, and `f` is the framing of that. -/
structure Delivered (bufferSize : Nat) (s s' : XSocket σ) (c : RC4Cipher) (raw : List UInt8)
    (f : Framing σ) : Prop where
  received : s'.received = s.received ++ f.packets.map Prod.fst
  session : s'.session = f.session
  isEncrypted : s'.isEncrypted = s.isEncrypted
  closed : s'.closed = (s.closed || closes f || match f.ending with | .malformed _ => true | _ => false)
  reading : s'.reading = (!s'.closed && match f.ending with | .incomplete _ => true | _ => false)
  small : s'.packetBuffer.getBufferSize ≤ 4096
  readBuffer : s'.reading = true → ∃ junk, s'.readBuffer = filled [] junk ∧ junk.length = bufferSize
  waiting : ∀ rest, f.ending = .incomplete rest → ∃ c' raw', s'.Waiting c' raw' ∧
    (wire s.isEncrypted).out c' raw' = rest ∧
    (wire s.isEncrypted).after c' raw' = (wire s.isEncrypted).after c raw

/-- The end of the loop: the next read starts, unless the socket is closed. -/
theorem asyncRead_delivered {s : XSocket σ} {c : RC4Cipher} {raw done junk : List UInt8}
    (hw : s.Waiting c raw) (hread : s.readBuffer = view done [] junk) (hreading : s.reading = false) :
    Delivered (done.length + junk.length) s s.asyncRead c raw
      ⟨[], .incomplete ((wire s.isEncrypted).out c raw), s.session⟩ := by
  by_cases ho : s.isOpen
  · have hclosed : s.closed = false := by simpa [isOpen] using ho
    have heq : s.asyncRead = { s with readBuffer := filled [] (done ++ junk), reading := true } := by
      unfold asyncRead
      rw [if_neg (not_not.mpr ho), hread, normalize_view, ensureFreeSpace_filled]
    rw [heq]
    refine ⟨(List.append_nil _).symm, rfl, rfl, ?_, ?_, hw.small,
      fun _ => ⟨_, rfl, List.length_append⟩, ?_⟩
    · simp [hclosed, closes]
    · simp [hclosed]
    · rintro rest ⟨⟩
      exact ⟨c, raw, hw.congr rfl rfl rfl rfl, rfl, rfl⟩
  · have hclosed : s.closed = true := by simpa [isOpen] using ho
    have heq : s.asyncRead = s := if_pos ho
    rw [heq]
    refine ⟨(List.append_nil _).symm, rfl, rfl, ?_, ?_, hw.small, ?_, ?_⟩
    · simp [hclosed, closes]
    · simp [hclosed, hreading]
    · rw [hreading]
      intro h
      cases h
    · rintro rest ⟨⟩
      exact ⟨c, raw, hw, rfl, rfl⟩

/-! Each way in which a turn ends, and what the rest of the loop leaves after it. -/

/-- The turn has collected a part of a packet, and the loop ends. -/
theorem Kept.delivered {s s' : XSocket σ} {c : RC4Cipher} {raw done junk : List UInt8} (hkept : s.Kept s')
    (hw : s'.Waiting c raw) (hread : s'.readBuffer = view done [] junk) (hreading : s.reading = false) :
    Delivered (done.length + junk.length) s s'.asyncRead c raw
      ⟨[], .incomplete ((wire s.isEncrypted).out c raw), s.session⟩ := by
  have hd := asyncRead_delivered hw hread (hkept.reading.trans hreading)
  rw [hkept.isEncrypted, hkept.session] at hd
  refine ⟨by rw [hd.received, hkept.received], hd.session, hd.isEncrypted.trans hkept.isEncrypted,
    by rw [hd.closed, hkept.closed], hd.reading, hd.small, hd.readBuffer, fun rest hrest => ?_⟩
  obtain ⟨c', raw', hw', hout, hafter⟩ := hd.waiting rest hrest
  rw [hkept.isEncrypted] at hout hafter
  exact ⟨c', raw', hw', hout, hafter⟩

/-- The handler has refused the packet of the turn, and the loop ends. -/
theorem Took.delivered_refused {s s' : XSocket σ} {c c' : RC4Cipher} {raw raw' : List UInt8} {packet : XPacket}
    {bufferSize : Nat} (htook : s.Took process s' packet) (hw : s'.Waiting c' raw') (hreading : s.reading = false) :
    Delivered bufferSize s s' c raw
      ⟨[(packet, (process s.session packet).closes)], .refused, (process s.session packet).session⟩ := by
  refine ⟨htook.received, htook.session, htook.isEncrypted, ?_, ?_, hw.small, ?_, nofun⟩
  · simp [htook.closed, closes]
  · simp [htook.reading, hreading]
  · rw [htook.reading, hreading]
    intro h
    cases h

/-- The packet of the turn stands before those that the rest of the loop delivers. -/
theorem Took.delivered {s s' s'' : XSocket σ} {c : RC4Cipher} {raw x : List UInt8} {packet : XPacket}
    {bufferSize : Nat} {f : Framing σ} (htook : s.Took process s' packet)
    (hd : Delivered bufferSize s' s'' ((wire s.isEncrypted).after c raw) x f) :
    Delivered bufferSize s s'' c (raw ++ x)
      { f with packets := (packet, (process s.session packet).closes) :: f.packets } := by
  refine ⟨?_, hd.session, hd.isEncrypted.trans htook.isEncrypted, ?_, hd.reading, hd.small, hd.readBuffer,
    fun rest hrest => ?_⟩
  · rw [hd.received, htook.received, List.append_assoc]
    rfl
  · rw [hd.closed, htook.closed]
    simp only [closes, List.any_cons, Bool.or_assoc]
  · obtain ⟨c', raw', hw', hout, hafter⟩ := hd.waiting rest hrest
    rw [htook.isEncrypted] at hout hafter
    refine ⟨c', raw', hw', hout, ?_⟩
    rw [hafter, ← Mealy.after_append]

variable (process) in
/-- **The loop delivers the frames** of the bytes it has, as long as it meets no header of a size below
that of the header itself. Each turn either ends the loop or takes a packet and leaves a shorter
chunk. -/
theorem readLoop_delivered (fuel : Nat) :
    ∀ {s : XSocket σ} {c : RC4Cipher} {raw done x junk : List UInt8}, x.length < fuel →
      s.Waiting c raw → s.readBuffer = view done x junk → s.reading = false →
      (∀ size, (frames process s.session ((wire s.isEncrypted).out c (raw ++ x))).ending =
        .malformed size → HEADER_SIZE ≤ size.toNat) →
      ∃ s', s.readLoop process fuel = some s' ∧
        Delivered (done.length + x.length + junk.length) s s' c (raw ++ x)
          (frames process s.session ((wire s.isEncrypted).out c (raw ++ x))) := by
  induction fuel with
  | zero =>
    intro s c raw done x junk hx
    omega
  | succ fuel ih =>
    intro s c raw done x junk hx hw hread hreading hshort
    by_cases hpos : 0 < x.length
    · have hactive : 0 < s.readBuffer.getActiveSize := by rwa [hread, getActiveSize_view]
      cases hf : nextFrame ((wire s.isEncrypted).out c (raw ++ x)) with
      | part =>
        obtain ⟨s', hturn, hw', hread', hkept⟩ := hw.turn_part process hread hf
        refine ⟨s'.asyncRead, by rw [readLoop, if_pos hactive, hturn]; rfl, ?_⟩
        rw [frames_part hf, ← List.length_append]
        exact hkept.delivered hw' hread' hreading
      | malformed size =>
        have hsize := hshort size (congrArg Framing.ending (frames_malformed hf))
        obtain ⟨s', hturn, hclosed, hsession, hreceived, hencrypted, hreading', hpacket⟩ :=
          hw.turn_malformed process hread hf hsize
        refine ⟨s', by rw [readLoop, if_pos hactive, hturn]; rfl, ?_⟩
        rw [frames_malformed hf]
        refine ⟨by rw [hreceived]; exact (List.append_nil _).symm, hsession, hencrypted, ?_, ?_,
          by rw [hpacket]; exact hw.small, ?_, nofun⟩
        · simp [hclosed]
        · simp [hreading', hreading]
        · rw [hreading', hreading]
          intro h
          cases h
      | whole packet rest =>
        obtain ⟨used, x', s', rfl, rfl, hturn, hw', hread', htook⟩ :=
          hw.turn_whole process hread hf
        have hpos' := hw.used_pos hf
        by_cases hok : (process s.session packet).result = .ok
        · rw [frames_whole hf hok] at hshort ⊢
          rw [if_neg (not_not.mpr hok)] at hturn
          have hwire : wire s'.isEncrypted = wire s.isEncrypted := by rw [htook.isEncrypted]
          obtain ⟨s'', hloop, hd⟩ := ih (by rw [List.length_append] at hx; omega) hw' hread'
            (htook.reading.trans hreading) (by rw [hwire, htook.session]; exact hshort)
          rw [hwire, htook.session, List.nil_append, List.length_append, Nat.add_assoc done.length] at hd
          refine ⟨s'', by rw [readLoop, if_pos hactive, hturn]; exact hloop, ?_⟩
          rw [List.length_append, ← List.append_assoc]
          exact htook.delivered hd
        · rw [frames_refused hf hok]
          rw [if_pos hok] at hturn
          exact ⟨s', by rw [readLoop, if_pos hactive, hturn]; rfl, htook.delivered_refused hw' hreading⟩
    · have hnil : x = [] := List.length_eq_zero_iff.mp (by omega)
      subst hnil
      have hstop : s.readLoop process (fuel + 1) = some s.asyncRead := by
        rw [readLoop, hread, getActiveSize_view, if_neg hpos]
      rw [List.append_nil, frames_part hw.nextFrame]
      exact ⟨_, hstop, asyncRead_delivered hw hread hreading⟩

/-! ## The run over the chunks -/

/-- The socket has a read outstanding into an empty buffer of `bufferSize` bytes. -/
structure Ready (bufferSize : Nat) (s : XSocket σ) (c : RC4Cipher) (raw : List UInt8) : Prop where
  opened : s.closed = false
  reading : s.reading = true
  waiting : s.Waiting c raw
  readBuffer : ∃ junk, s.readBuffer = filled [] junk ∧ junk.length = bufferSize

theorem ready_started (session : σ) (encrypted : Bool) (c : RC4Cipher) (bufferSize : Nat) :
    (started session encrypted c bufferSize).Ready bufferSize c [] := by
  have hbuffer : (MessageBuffer.ofSize bufferSize).normalize.ensureFreeSpace =
      filled [] (List.replicate bufferSize 0) := by
    rw [ofSize_eq, normalize_view, ensureFreeSpace_filled]
    rfl
  refine ⟨rfl, rfl, ?_, _, hbuffer, List.length_replicate⟩
  refine @Waiting.header _ _ _ [] ((List.replicate 4096 0).takeD HEADER_SIZE 0)
    (List.replicate 4096 0) rfl ?_ ?_ rfl (Nat.le_of_eq List.length_replicate) rfl
  · rw [List.takeD_length, List.length_nil, Nat.zero_add]
  · rw [List.takeD_length]
    decide

variable (process) in
/-- A chunk that arrives at a socket with a read outstanding. -/
theorem Ready.receive {bufferSize : Nat} {s : XSocket σ} {c : RC4Cipher} {raw chunk : List UInt8}
    (hs : s.Ready bufferSize c raw) (hfit : chunk.length ≤ bufferSize)
    (hshort : ∀ size, (frames process s.session ((wire s.isEncrypted).out c (raw ++ chunk))).ending =
      .malformed size → HEADER_SIZE ≤ size.toNat) :
    ∃ s', s.receive process chunk = some s' ∧ Delivered bufferSize s s' c (raw ++ chunk)
      (frames process s.session ((wire s.isEncrypted).out c (raw ++ chunk))) := by
  obtain ⟨junk, hbuffer, hlen⟩ := hs.readBuffer
  set t : XSocket σ := { s with
    readBuffer := view [] chunk (junk.drop chunk.length), reading := false } with ht
  have hw : t.Waiting c raw := hs.waiting.congr rfl rfl rfl rfl
  obtain ⟨s', hloop, hd⟩ := readLoop_delivered process (chunk.length + 1) (s := t)
    (Nat.lt_succ_self _) hw rfl rfl hshort
  have hsize : ([] : List UInt8).length + chunk.length + (junk.drop chunk.length).length =
      bufferSize := by
    rw [List.length_drop, List.length_nil]
    omega
  rw [hsize] at hd
  refine ⟨s', ?_, hd.received, hd.session, hd.isEncrypted, hd.closed, hd.reading, hd.small,
    hd.readBuffer, hd.waiting⟩
  have hopen : t.isOpen = true := by simp [isOpen, ht, hs.opened]
  unfold XSocket.receive
  rw [if_neg (not_not.mpr hs.reading), hbuffer, write_view _ _ _ _ (by omega)]
  show t.readHandler process = some s'
  unfold readHandler
  rw [if_neg (not_not.mpr hopen), getActiveSize_view]
  exact hloop

variable (process) in
/-- Without a read outstanding nothing more is delivered. -/
theorem receiveAll_of_not_reading {s : XSocket σ} (h : s.reading = false)
    (chunks : List (List UInt8)) : s.receiveAll process chunks = some s := by
  induction chunks with
  | nil => rfl
  | cons k ks ih =>
    have hstep : s.receive process k = some s := by
      unfold XSocket.receive
      rw [if_pos (by rw [h]; decide)]
    unfold receiveAll at ih ⊢
    rw [List.foldlM_cons, hstep]
    exact ih

end XSocket

end RZEmulator.Shared
