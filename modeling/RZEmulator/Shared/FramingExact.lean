import RZEmulator.Shared.Receive

/-!
# When the cuts of a stream make no difference

A socket delivers the frames of a stream, however it is cut and whatever the size of the read buffer,
exactly if the stream has no header with a size below that of the header itself and no handler closes
the socket before the last packet (`deliversFrames_iff`).
-/

namespace RZEmulator.Shared

open Lib MessageBuffer

namespace XSocket

variable {σ : Type} {process : σ → XPacket → Handled σ}

/-- However the stream is cut into chunks that fit the read buffer: no assertion fails, the packets
handed to their handlers are the frames of the plain stream, the socket is closed if they end at a
malformed header, and the payload buffer has not been made larger than it was at the start. -/
def DeliversFrames (process : σ → XPacket → Handled σ) (session : σ) (encrypted : Bool)
    (c : RC4Cipher) (stream : List UInt8) : Prop :=
  ∀ (bufferSize : Nat) (chunks : List (List UInt8)), chunks.flatten = stream →
    (∀ k ∈ chunks, k.length ≤ bufferSize) →
      ∃ s, (started session encrypted c bufferSize).receiveAll process chunks = some s ∧
        s.received =
          (frames process session ((wire encrypted).out c stream)).packets.map Prod.fst ∧
        (∀ size, (frames process session ((wire encrypted).out c stream)).ending =
          .malformed size → s.closed = true) ∧
        s.packetBuffer.getBufferSize ≤ 4096

/-- No header of the stream has a size below that of the header. -/
def NoShortHeader (f : Framing σ) : Prop :=
  ∀ size, f.ending = .malformed size → HEADER_SIZE ≤ size.toNat

/-- No handler but that of the last packet closes the socket. -/
def ClosesLast (f : Framing σ) : Prop := ∀ p ∈ f.packets.dropLast, p.2 = false

/-! ## The condition is enough -/

/-- The last part of a framing closes at its last packet as well. -/
theorem ClosesLast.right {f g : Framing σ} {l} (hlast : ClosesLast f) (hf : f.packets = l ++ g.packets) : ClosesLast g := by
  intro p hp
  have hne : g.packets ≠ [] := by
    intro h
    rw [h] at hp
    cases hp
  refine hlast p ?_
  rw [hf, List.dropLast_append_of_ne_nil hne]
  exact List.mem_append_right _ hp

/-- Nothing comes after a packet that closes the socket. -/
theorem ClosesLast.eq_nil {f f₁ : Framing σ} {l} (hlast : ClosesLast f) (hf : f.packets = f₁.packets ++ l)
    (hcloses : closes f₁ = true) : l = [] := by
  by_contra hne
  obtain ⟨p, hp, hpc⟩ := List.any_eq_true.mp hcloses
  have hopen : p.2 = false := by
    refine hlast p ?_
    rw [hf, List.dropLast_append_of_ne_nil hne]
    exact List.mem_append_left _ hp
  rw [hpc] at hopen
  cases hopen

/-- What a socket has handed on when the frames of `f` have arrived. -/
structure Drained (s s' : XSocket σ) (f : Framing σ) : Prop where
  received : s'.received = s.received ++ f.packets.map Prod.fst
  closed : ∀ size, f.ending = .malformed size → s'.closed = true
  small : s'.packetBuffer.getBufferSize ≤ 4096

section

variable {bufferSize : Nat} {s s₁ s' : XSocket σ} {c : RC4Cipher} {raw : List UInt8} {f f₁ g : Framing σ}

/-- The socket reads on exactly while it is open and the frames of the chunk end within a packet. -/
theorem Delivered.incomplete_of_reading (hd : Delivered bufferSize s s₁ c raw f₁) (h : s₁.reading = true) :
    s₁.closed = false ∧ ∃ rest, f₁.ending = .incomplete rest := by
  have hreading := hd.reading
  rw [h] at hreading
  obtain ⟨hopen, hending⟩ := (Bool.and_eq_true _ _).mp hreading.symm
  refine ⟨(Bool.not_eq_true' _).mp hopen, ?_⟩
  cases hend : f₁.ending with
  | incomplete rest => exact ⟨rest, rfl⟩
  | malformed size =>
    rw [hend] at hending
    cases hending
  | refused =>
    rw [hend] at hending
    cases hending

/-- The framing of the chunk and of what follows is that of the chunk and then that of what is collected with what follows. -/
theorem Delivered.split (hd : Delivered bufferSize s s₁ c raw (frames process s.session ((wire s.isEncrypted).out c raw)))
    {rest : List UInt8} (hend : (frames process s.session ((wire s.isEncrypted).out c raw)).ending = .incomplete rest)
    (next : List UInt8) :
    ∃ c' raw', s₁.Waiting c' raw' ∧
      let g := frames process s₁.session ((wire s₁.isEncrypted).out c' (raw' ++ next))
      frames process s.session ((wire s.isEncrypted).out c (raw ++ next)) =
        { g with packets := (frames process s.session ((wire s.isEncrypted).out c raw)).packets ++ g.packets } := by
  obtain ⟨c', raw', hw', hout, hafter⟩ := hd.waiting rest hend
  refine ⟨c', raw', hw', ?_⟩
  rw [hd.isEncrypted, hd.session, Mealy.out_append, Mealy.out_append, hout, hafter]
  exact frames_append_of_incomplete process _ s.session _ hend

/-- A socket that has stopped reading hands nothing more on. -/
theorem Delivered.stopped (hd : Delivered bufferSize s s₁ c raw f₁) (hstop : s₁.reading = false) (hf : f.packets = f₁.packets)
    (hclosed : ∀ size, f.ending = .malformed size → s₁.closed = true) (chunks : List (List UInt8)) :
    ∃ s', s₁.receiveAll process chunks = some s' ∧ Drained s s' f :=
  ⟨s₁, receiveAll_of_not_reading process hstop chunks, by rw [hf]; exact hd.received, hclosed, hd.small⟩

theorem Drained.after (h : Drained s₁ s' g) (hd : Delivered bufferSize s s₁ c raw f₁)
    (hf : f = { g with packets := f₁.packets ++ g.packets }) : Drained s s' f := by
  subst hf
  refine ⟨?_, h.closed, h.small⟩
  rw [h.received, hd.received, List.map_append, List.append_assoc]

/-- A chunk after which the socket reads no more has all packets: the frames have ended, or the handler of the last packet has
closed the socket. -/
theorem Delivered.last (hs : s.closed = false)
    (hd : Delivered bufferSize s s₁ c raw (frames process s.session ((wire s.isEncrypted).out c raw))) (hstop : s₁.reading = false)
    (next : List UInt8) (hlast : ClosesLast (frames process s.session ((wire s.isEncrypted).out c (raw ++ next)))) :
    let f := frames process s.session ((wire s.isEncrypted).out c (raw ++ next))
    f.packets = (frames process s.session ((wire s.isEncrypted).out c raw)).packets ∧
      ∀ size, f.ending = .malformed size → s₁.closed = true := by
  intro f
  have hwhole : (∀ rest, (frames process s.session ((wire s.isEncrypted).out c raw)).ending ≠ .incomplete rest) →
      f = frames process s.session ((wire s.isEncrypted).out c raw) := by
    intro h
    show frames process s.session ((wire s.isEncrypted).out c (raw ++ next)) = _
    rw [Mealy.out_append]
    exact frames_append_of_ended _ _ _ h
  have hclosed := hd.closed
  have hreading := hd.reading
  rw [hs, Bool.false_or] at hclosed
  cases hend : (frames process s.session ((wire s.isEncrypted).out c raw)).ending with
  | incomplete rest =>
    obtain ⟨c', raw', -, hsplit⟩ := hd.split hend next
    rw [hstop, hend, Bool.and_true] at hreading
    rw [hend, Bool.or_false] at hclosed
    have hisClosed : s₁.closed = true := (Bool.not_eq_false' _).mp hreading.symm
    have hnil := hlast.eq_nil (congrArg Framing.packets hsplit) (hclosed.symm.trans hisClosed)
    refine ⟨(congrArg Framing.packets hsplit).trans ?_, fun _ _ => hisClosed⟩
    rw [hnil, List.append_nil]
  | malformed size =>
    rw [hwhole (by rw [hend]; nofun)]
    rw [hend, Bool.or_true] at hclosed
    exact ⟨rfl, fun _ _ => hclosed⟩
  | refused =>
    rw [hwhole (by rw [hend]; nofun)]
    refine ⟨rfl, fun size h => ?_⟩
    rw [hend] at h
    cases h

end

variable (process) in
theorem receiveAll_delivers (bufferSize : Nat) (chunks : List (List UInt8)) :
    ∀ {s : XSocket σ} {c : RC4Cipher} {raw : List UInt8}, s.Ready bufferSize c raw →
      (∀ k ∈ chunks, k.length ≤ bufferSize) →
      let f := frames process s.session ((wire s.isEncrypted).out c (raw ++ chunks.flatten))
      NoShortHeader f → ClosesLast f → ∃ s', s.receiveAll process chunks = some s' ∧ Drained s s' f := by
  induction chunks with
  | nil =>
    intro s c raw hs _ f _ _
    have hf : f = ⟨[], .incomplete ((wire s.isEncrypted).out c raw), s.session⟩ := by
      show frames process s.session ((wire s.isEncrypted).out c (raw ++ [])) = _
      rw [List.append_nil, frames_part hs.waiting.nextFrame]
    rw [hf]
    exact ⟨s, rfl, (List.append_nil _).symm, nofun, hs.waiting.small⟩
  | cons k ks ih =>
    intro s c raw hs hfit f hshort hlast
    have hf : f = frames process s.session ((wire s.isEncrypted).out c (raw ++ k ++ ks.flatten)) := by
      rw [List.append_assoc, ← List.flatten_cons]
    have hshort₁ : NoShortHeader (frames process s.session ((wire s.isEncrypted).out c (raw ++ k))) := by
      intro size hsize
      refine hshort size ?_
      rw [hf, Mealy.out_append, frames_append_of_ended _ _ _ (by rw [hsize]; nofun), hsize]
    obtain ⟨s₁, hs₁, hd⟩ := hs.receive process (hfit k List.mem_cons_self) hshort₁
    have hrun : s.receiveAll process (k :: ks) = s₁.receiveAll process ks := by
      unfold receiveAll
      rw [List.foldlM_cons, hs₁]
      rfl
    rw [hrun]
    by_cases hgo : s₁.reading = true
    · obtain ⟨hopen, rest, hend⟩ := hd.incomplete_of_reading hgo
      obtain ⟨c', raw', hw', hsplit⟩ := hd.split hend ks.flatten
      rw [← hf] at hsplit
      have hready : s₁.Ready bufferSize c' raw' := ⟨hopen, hgo, hw', hd.readBuffer hgo⟩
      obtain ⟨s', hrun', hdrained⟩ := ih hready (fun k' hk' => hfit k' (List.mem_cons_of_mem _ hk'))
        (fun size h => hshort size ((congrArg Framing.ending hsplit).trans h)) (hlast.right (congrArg Framing.packets hsplit))
      exact ⟨s', hrun', hdrained.after hd hsplit⟩
    · rw [Bool.not_eq_true] at hgo
      obtain ⟨hpackets, hclosed⟩ := hd.last hs.opened hgo ks.flatten (hf ▸ hlast)
      rw [← hf] at hpackets hclosed
      exact hd.stopped hgo hpackets hclosed ks

/-! ## A short header is taken for that of a huge packet -/

/-- The state that a turn leaves. -/
def Turn.state : Turn σ → XSocket σ
  | .again s => s
  | .broken s => s
  | .left s => s

theorem deliver_received {s : XSocket σ} {t : Turn σ} (h : s.deliver process = some t) :
    t.state.received.length = s.received.length + 1 := by
  unfold deliver readDataHandler at h
  simp only [Option.bind_eq_bind, Option.bind_eq_some_iff, Option.pure_def] at h
  obtain ⟨⟨s', result⟩, ⟨⟨dec, buf⟩, -, hs'⟩, ht⟩ := h
  have hlen : s'.received.length = s.received.length + 1 := by
    obtain ⟨rfl, -⟩ := Prod.mk.inj (Option.some.inj hs')
    exact List.length_append
  split_ifs at ht <;> cases ht <;> exact hlen

theorem readPayload_received {s : XSocket σ} {t : Turn σ} (h : s.readPayload process = some t) :
    s.received.length ≤ t.state.received.length := by
  unfold readPayload at h
  split_ifs at h
  · simp only [Option.bind_eq_bind, Option.bind_eq_some_iff] at h
    obtain ⟨buf, -, h⟩ := h
    split_ifs at h
    · cases h
      exact le_rfl
    · rw [deliver_received h]
      exact Nat.le_succ _
  · rw [deliver_received h]
    exact Nat.le_succ _

theorem readTurn_received {s : XSocket σ} {t : Turn σ} (h : s.readTurn process = some t) :
    s.received.length ≤ t.state.received.length := by
  unfold readTurn at h
  split_ifs at h
  · simp only [Option.bind_eq_bind, Option.bind_eq_some_iff] at h
    obtain ⟨buf, -, h⟩ := h
    split_ifs at h
    · cases h
      exact le_rfl
    · obtain ⟨⟨s', accepted⟩, hheader, h⟩ := Option.bind_eq_some_iff.mp h
      have hsame : s'.received = s.received := by
        unfold readHeaderHandler at hheader
        simp only [Option.bind_eq_bind, Option.bind_eq_some_iff, Option.pure_def] at hheader
        obtain ⟨⟨dec, buf'⟩, -, hheader⟩ := hheader
        split_ifs at hheader <;> obtain ⟨rfl, -⟩ := Prod.mk.inj (Option.some.inj hheader) <;> rfl
      rw [← hsame]
      cases accepted with
      | true => exact readPayload_received h
      | false =>
        cases h
        exact le_rfl
  · exact readPayload_received h

theorem readLoop_received (fuel : Nat) :
    ∀ {s s' : XSocket σ}, s.readLoop process fuel = some s' →
      s.received.length ≤ s'.received.length := by
  induction fuel with
  | zero =>
    intro s s' h
    cases h
  | succ fuel ih =>
    intro s s' h
    rw [readLoop] at h
    split_ifs at h
    · obtain ⟨t, ht, h⟩ := Option.bind_eq_some_iff.mp h
      have hle := readTurn_received ht
      cases t with
      | again t => exact Nat.le_trans hle (ih h)
      | broken t =>
        cases h
        rwa [asyncRead_received]
      | left t =>
        cases h
        exact hle
    · cases h
      rw [asyncRead_received]

/-- The payload of a huge packet either fills a huge buffer or is handed on as a packet. -/
theorem readLoop_wrapped {fuel : Nat} {s s' t : XSocket σ} {y z j junk : List UInt8}
    (hpos : 0 < s.readBuffer.getActiveSize) (hturn : s.readTurn process = t.readPayload process)
    (hread : t.readBuffer = view z y junk) (hpacket : t.packetBuffer = filled [] j)
    (hj : 4098 < j.length) (h : s.readLoop process (fuel + 1) = some s') :
    4096 < s'.packetBuffer.getBufferSize ∨ t.received.length < s'.received.length := by
  rw [readLoop, if_pos hpos, hturn] at h
  by_cases hy : y.length < j.length
  · left
    rw [readPayload_part hread hpacket hy] at h
    cases h
    rw [asyncRead_packetBuffer, getBufferSize_view, List.length_drop, List.length_append, List.length_nil]
    omega
  · right
    rw [readPayload_whole hread hpacket (not_lt.mp hy)] at h
    obtain ⟨u, hu, h⟩ := Option.bind_eq_some_iff.mp h
    have hlt : t.received.length < u.state.received.length := by
      rw [deliver_received hu]
      exact Nat.lt_succ_self _
    cases u with
    | again u => exact Nat.lt_of_lt_of_le hlt (readLoop_received fuel h)
    | broken u =>
      cases h
      rwa [asyncRead_received]
    | left u =>
      cases h
      exact hlt

/-- A chunk with a short header leaves a buffer that has grown, or more packets than there are. -/
theorem readLoop_short (fuel : Nat) :
    ∀ {s s' : XSocket σ} {c : RC4Cipher} {raw done x junk : List UInt8} {size : UInt32},
      x.length < fuel → s.Waiting c raw → s.readBuffer = view done x junk →
      (frames process s.session ((wire s.isEncrypted).out c (raw ++ x))).ending = .malformed size →
      size.toNat < HEADER_SIZE → s.readLoop process fuel = some s' →
      4096 < s'.packetBuffer.getBufferSize ∨ s.received.length +
        (frames process s.session ((wire s.isEncrypted).out c (raw ++ x))).packets.length <
          s'.received.length := by
  induction fuel with
  | zero =>
    intro s s' c raw done x junk size hx
    omega
  | succ fuel ih =>
    intro s s' c raw done x junk size hx hw hread hend hsize hloop
    have hpos : 0 < x.length := by
      by_contra hnil
      rw [List.length_eq_zero_iff.mp (Nat.le_zero.mp (not_lt.mp hnil)), List.append_nil,
        frames_part hw.nextFrame] at hend
      cases hend
    have hactive : 0 < s.readBuffer.getActiveSize := by rwa [hread, getActiveSize_view]
    cases hf : nextFrame ((wire s.isEncrypted).out c (raw ++ x)) with
    | part =>
      rw [frames_part hf] at hend
      cases hend
    | malformed size' =>
      rw [frames_malformed hf] at hend ⊢
      cases hend
      obtain ⟨y, z, j, t, hturn, hb, hp, hj, hr⟩ := hw.turn_short process hread hf hsize
      exact hr ▸ readLoop_wrapped hactive hturn hb hp hj hloop
    | whole packet rest =>
      obtain ⟨used, x', s₁, rfl, rfl, hturn, hw', hread', htook⟩ :=
        hw.turn_whole process hread hf
      have hpos' := hw.used_pos hf
      by_cases hok : (process s.session packet).result = .ok
      · rw [frames_whole hf hok] at hend ⊢
        rw [readLoop, if_pos hactive, hturn, if_neg (not_not.mpr hok)] at hloop
        have hwire : wire s₁.isEncrypted = wire s.isEncrypted := by rw [htook.isEncrypted]
        have hrec := ih (x := x') (by rw [List.length_append] at hx; omega) hw' hread'
          (by rw [hwire, htook.session]; exact hend) hsize hloop
        rw [hwire, htook.session, htook.received, List.nil_append, List.length_append] at hrec
        refine hrec.imp_right fun h => ?_
        simp only [List.length_cons, List.length_nil] at h ⊢
        omega
      · rw [frames_refused hf hok] at hend
        cases hend

/-- A stream with a short header is not delivered, already when it arrives in one piece. -/
theorem not_deliversFrames_of_short {session : σ} {encrypted : Bool} {c : RC4Cipher}
    {stream : List UInt8} {size : UInt32}
    (hend : (frames process session ((wire encrypted).out c stream)).ending = .malformed size)
    (hsize : size.toNat < HEADER_SIZE) : ¬DeliversFrames process session encrypted c stream := by
  intro hall
  obtain ⟨s', hrun, hrec, -, hsmall⟩ := hall stream.length [stream] (List.append_nil _)
    (fun k hk => Nat.le_of_eq (congrArg _ (List.mem_singleton.mp hk)))
  obtain ⟨hopen, hreading, hw, junk, hbuffer, hlen⟩ := ready_started session encrypted c stream.length
  set s₀ := started session encrypted c stream.length with hs₀
  set t : XSocket σ := { s₀ with
    readBuffer := view [] stream (junk.drop stream.length), reading := false } with ht
  have hloop : t.readLoop process (stream.length + 1) = some s' := by
    have hisOpen : t.isOpen = true := by simp [isOpen, ht, hopen]
    unfold receiveAll at hrun
    rw [List.foldlM_cons] at hrun
    obtain ⟨s'', hreceive, hnil⟩ := Option.bind_eq_some_iff.mp hrun
    cases hnil
    unfold XSocket.receive at hreceive
    rw [if_neg (not_not.mpr hreading), hbuffer, write_view _ _ _ _ (by omega)] at hreceive
    change t.readHandler process = some s' at hreceive
    unfold readHandler at hreceive
    rwa [if_neg (not_not.mpr hisOpen), getActiveSize_view] at hreceive
  have hbad := readLoop_short (stream.length + 1) (Nat.lt_succ_self _)
    (hw.congr (t := t) rfl rfl rfl rfl) rfl hend hsize hloop
  have hnone : t.received.length = 0 := rfl
  rw [hrec, List.length_map, hnone, Nat.zero_add] at hbad
  rcases hbad with hbig | hmore
  · omega
  · exact Nat.lt_irrefl _ hmore

/-! ## A handler that closes the socket -/

/-- The packets of a stream up to one that is not the last are the frames of a part of the stream. -/
theorem exists_frames_eq (session : σ) (plain : List UInt8) :
    ∀ l z : List (XPacket × Bool), (frames process session plain).packets = l ++ z → z ≠ [] →
      ∃ a b, plain = a ++ b ∧ (frames process session a).packets = l ∧
        (frames process session a).ending = .incomplete [] := by
  induction session, plain using frames.induct process with
  | case1 session plain h =>
    intro l z hl hz
    rw [frames_part h] at hl
    exact absurd (List.append_eq_nil_iff.mp hl.symm).2 hz
  | case2 session plain size h =>
    intro l z hl hz
    rw [frames_malformed h] at hl
    exact absurd (List.append_eq_nil_iff.mp hl.symm).2 hz
  | case3 session plain packet rest h r _ hr =>
    intro l z hl hz
    rw [frames_refused h hr] at hl
    cases l with
    | nil => exact ⟨[], plain, rfl, by rw [frames_part rfl], by rw [frames_part rfl]⟩
    | cons x l => exact absurd (List.append_eq_nil_iff.mp (List.cons.inj hl).2.symm).2 hz
  | case4 session plain packet rest h r _ hr ih =>
    intro l z hl hz
    have hok : (process session packet).result = .ok := not_not.mp hr
    cases l with
    | nil => exact ⟨[], plain, rfl, by rw [frames_part rfl], by rw [frames_part rfl]⟩
    | cons x l =>
      rw [frames_whole h hok] at hl
      obtain ⟨hx, hl⟩ := List.cons.inj hl
      obtain ⟨a, b, hab, hpackets, hending⟩ := ih _ _ hl hz
      obtain ⟨front, hfront, hwhole⟩ := exists_nextFrame_append h
      refine ⟨front ++ a, b, by rw [List.append_assoc, ← hab, ← hfront], ?_, ?_⟩
      · rw [frames_whole (hwhole a) hok, ← hx]
        exact congrArg _ hpackets
      · rw [frames_whole (hwhole a) hok]
        exact hending

/-- A stream with a packet behind one whose handler closes the socket is not delivered when it is cut
between the two. -/
theorem not_deliversFrames_of_closes {session : σ} {encrypted : Bool} {c : RC4Cipher}
    {stream : List UInt8}
    (hclose : ¬ClosesLast (frames process session ((wire encrypted).out c stream))) :
    ¬DeliversFrames process session encrypted c stream := by
  intro hall
  set f := frames process session ((wire encrypted).out c stream) with hf
  unfold ClosesLast at hclose
  push Not at hclose
  obtain ⟨p, hp, hpc⟩ := hclose
  rw [ne_eq, Bool.not_eq_false] at hpc
  -- the packets after the one that closes the socket
  have hne : f.packets ≠ [] := by
    intro h
    rw [h] at hp
    cases hp
  have hpackets : f.packets = f.packets.dropLast ++ [f.packets.getLast hne] :=
    (List.dropLast_concat_getLast hne).symm
  obtain ⟨a, b, hab, ha, hend⟩ := exists_frames_eq session _ _ _ hpackets (List.cons_ne_nil _ _)
  -- the stream is cut there
  have hcut : (wire encrypted).out c (stream.take a.length) = a := by
    have hout := Mealy.out_append (wire encrypted) c (stream.take a.length) (stream.drop a.length)
    rw [List.take_append_drop, hab] at hout
    have hlen : a.length = ((wire encrypted).out c (stream.take a.length)).length := by
      have := congrArg List.length hab
      rw [Mealy.length_out, List.length_append] at this
      rw [Mealy.length_out, List.length_take]
      omega
    exact (List.append_inj hout hlen).1.symm
  obtain ⟨s', hrun, hrec, -⟩ := hall stream.length [stream.take a.length, stream.drop a.length]
    (by simp) (by simp [Nat.min_le_right])
  have hready := ready_started session encrypted c stream.length
  set s₀ := started session encrypted c stream.length with hs₀
  have hframes : frames process s₀.session ((wire s₀.isEncrypted).out c ([] ++ stream.take a.length)) =
      frames process session a := by
    show frames process session ((wire encrypted).out c (stream.take a.length)) = _
    rw [hcut]
  obtain ⟨s₁, hs₁, hd⟩ := hready.receive process
    (show (stream.take a.length).length ≤ _ by rw [List.length_take]; exact Nat.min_le_right ..)
    (by rw [hframes, hend]; exact fun _ h => nomatch h)
  rw [hframes] at hd
  have hclosed : s₁.closed = true := by
    have hany : closes (frames process session a) = true :=
      List.any_eq_true.mpr ⟨p, ha ▸ hp, hpc⟩
    rw [hd.closed, hany]
    simp
  have hstop : s'.received = s₁.received := by
    have hreading : s₁.reading = false := by
      rw [hd.reading, hclosed]
      rfl
    have hrest := receiveAll_of_not_reading process hreading [stream.drop a.length]
    unfold receiveAll at hrun hrest
    rw [List.foldlM_cons, hs₁] at hrun
    change List.foldlM _ s₁ _ = _ at hrun
    rw [hrest] at hrun
    rw [Option.some.inj hrun]
  rw [hstop, hd.received, ha] at hrec
  have hlen := congrArg List.length hrec
  have hnone : s₀.received = [] := rfl
  rw [hnone, List.nil_append, List.length_map, List.length_map, List.length_dropLast] at hlen
  have := List.length_pos_iff.mpr hne
  rw [← hf] at hlen
  omega

/-- **The read handlers deliver the frames of a stream, however it is cut, exactly if** it has no header
with a size below that of the header and no handler but that of the last packet closes the socket. -/
theorem deliversFrames_iff (process : σ → XPacket → Handled σ) (session : σ) (encrypted : Bool)
    (c : RC4Cipher) (stream : List UInt8) :
    DeliversFrames process session encrypted c stream ↔
      NoShortHeader (frames process session ((wire encrypted).out c stream)) ∧
        ClosesLast (frames process session ((wire encrypted).out c stream)) := by
  constructor
  · intro hall
    constructor
    · intro size hend
      by_contra hsize
      exact not_deliversFrames_of_short hend (not_le.mp hsize) hall
    · by_contra hclose
      exact not_deliversFrames_of_closes hclose hall
  · rintro ⟨hshort, hlast⟩ bufferSize chunks hflat hfit
    obtain ⟨s, hrun, hdrained⟩ := receiveAll_delivers process bufferSize chunks
      (ready_started session encrypted c bufferSize) hfit (by rw [hflat]; exact hshort)
      (by rw [hflat]; exact hlast)
    rw [hflat] at hdrained
    exact ⟨s, hrun, hdrained.received, hdrained.closed, hdrained.small⟩

/-- The header of a packet of six bytes, sent alone on a plain socket. -/
theorem not_deliversFrames_six :
    ¬DeliversFrames (fun _ _ => ⟨(), false, .ok⟩) () false ⟨0, 0, .replicate 256 0⟩
      [6, 0, 0, 0, 0, 0, 6] :=
  have hend : nextFrame ((wire false).out ⟨0, 0, .replicate 256 0⟩ [6, 0, 0, 0, 0, 0, 6]) =
      .malformed 6 := by decide
  not_deliversFrames_of_short (by rw [frames_malformed hend]) (by decide)

end XSocket

end RZEmulator.Shared
