import GeonServer.PacketRun
import GeonServer.RecvRun
/-!
# WireRoundTrip — every packet reaches its handler

What one side makes with `MakeSendBuffer` the other side hands to the handler of the message: the buffers keep what
was stored (`Encoded.kept`), the packets are frames, the framing does not depend on the fragmentation, and the two
generated headers agree on ids and layout (`transmits_template`).
-/
namespace Geon

open Frames Lts Function

/-! ## Any `OnRecvPacket` -/

section

variable {β : Type*} {onRecvPacket : List BYTE → Nat → β} {g : List BYTE → β}

theorem processRecv_eq_map {junk : Nat → BYTE} {s s' : RecvSession} {bytes : List BYTE} {wsaRecv : WsaResult}
    {calls : List (List BYTE)} (h : processRecv packetBytes junk s bytes wsaRecv = some (s', calls))
    (hg : ∀ p ∈ calls, ∀ rest, onRecvPacket (p ++ rest) p.length = g p) :
    processRecv onRecvPacket junk s bytes wsaRecv = some (s', calls.map g) := by
  unfold processRecv at h ⊢
  dsimp only at h ⊢
  by_cases h0 : bytes.length = 0
  · rw [if_pos h0] at h ⊢
    cases h
    rfl
  · rw [if_neg h0] at h ⊢
    generalize (s.complete bytes).recvBuffer.onWrite bytes.length = w at h ⊢
    obtain ⟨_ | _, b⟩ := w
    · cases h
      rfl
    · dsimp only at h ⊢
      cases hon : onRecv packetBytes b.data with
      | none => rw [hon] at h; cases h
      | some r =>
        obtain ⟨ps, q⟩ := r
        rw [hon] at h
        dsimp only at h
        have hcalls : calls = ps := by
          split at h
          · cases h; rfl
          · split at h <;> cases h <;> rfl
        subst hcalls
        have hmap : onRecv onRecvPacket b.data = some (calls.map g, q) :=
          onRecvLoop_eq_map onRecvPacket b.data _ 0 calls q hon hg
        rw [hmap]
        dsimp only
        by_cases hq : (q : Int) < 0 ∨ b.dataSize < q
        · rw [if_pos hq] at h ⊢
          cases h
          rfl
        · rw [if_neg hq] at h ⊢
          generalize b.onRead q = o at h ⊢
          obtain ⟨_ | _, b'⟩ := o <;> cases h <;> rfl

theorem processRecvs_eq_map {junk : Nat → BYTE} : ∀ (chunks : List (List BYTE)) (s s' : RecvSession)
    (calls : List (List BYTE)), processRecvs packetBytes junk s chunks = some (s', calls) →
      (∀ p ∈ calls, ∀ rest, onRecvPacket (p ++ rest) p.length = g p) →
      processRecvs onRecvPacket junk s chunks = some (s', calls.map g)
  | [], s, s', calls, h, _ => by
    cases h
    rfl
  | c :: cs, s, s', calls, h, hg => by
    simp only [processRecvs] at h ⊢
    cases hp : processRecv packetBytes junk s c .success with
    | none => rw [hp] at h; cases h
    | some r =>
      obtain ⟨s₁, calls₁⟩ := r
      rw [hp] at h
      simp only [Option.map_eq_some_iff, Prod.mk.injEq, Prod.exists] at h
      obtain ⟨s', calls₂, hrest, rfl, rfl⟩ := h
      rw [processRecv_eq_map hp (fun p hp => hg p (List.mem_append_left _ hp))]
      simp only [processRecvs_eq_map cs s₁ s' calls₂ hrest (fun p hp => hg p (List.mem_append_right _ hp)),
        Option.map_some, List.map_append]

end

/-! ## A packet on the wire -/

theorem uint16_bytes {n : Nat} (h : n < 65536) : uint16 (UInt8.ofNat (n % 256)) (UInt8.ofNat (n / 256 % 256)) = n := by
  simp only [uint16, UInt8.toNat_ofNat']
  omega

theorem readHeader_bytes {header : PacketHeader} (hsize : header.size < 65536) (hid : header.id < 65536)
    (rest : List BYTE) : readHeader (header.bytes ++ rest) = some header := by
  simp only [PacketHeader.bytes, uint16Bytes, List.cons_append, List.nil_append, readHeader, uint16_bytes hsize,
    uint16_bytes hid]

theorem readHeader_packetOf {pktId : Nat} {bytes : List BYTE} (hfit : bytes.length ≤ 65531) (hid : pktId < UINT16_MAX)
    (rest : List BYTE) :
    readHeader (packetOf pktId bytes ++ rest) = some ⟨(packetOf pktId bytes).length, pktId⟩ := by
  rw [packetOf, List.append_assoc, readHeader_bytes]
  · rw [List.length_append, length_headerBytes, Nat.add_comm, sizeofPacketHeader]
  · simp only [sizeofPacketHeader]
    omega
  · exact Nat.lt_trans hid (by decide)

theorem head_packetOf {pktId : Nat} {bytes : List BYTE} (hfit : bytes.length ≤ 65531) (hid : pktId < UINT16_MAX)
    (rest : List BYTE) : packets.head (packetOf pktId bytes ++ rest) = some (packetOf pktId bytes).length :=
  (packetHead_eq_some _ _).2 ⟨_, readHeader_packetOf hfit hid rest, rfl, by
    rw [List.length_append]; exact Nat.le_add_right _ _⟩

variable {Tid : Type} [Fintype Tid] [DecidableEq Tid] {Packet Call : Type}

/-- **The bytes carry the packet**: they are one frame, the peer hands the message to its handler, and `make` returns a
send buffer that holds them, as it does whenever the thread has none open. -/
structure Transmits (make : Tid → BufferState Tid → Packet → Option (BufferState Tid × Nat))
    (handle : PacketHandlerFunc Call) (call : Packet → Call) (pkt : Packet) (bytes : List BYTE) : Prop where
  frame : ∀ rest, packets.head (bytes ++ rest) = some bytes.length
  handled : ∀ rest, handle (bytes ++ rest) bytes.length = .called (call pkt)
  made : ∀ t s s' i, BufferInv s → make t s pkt = some (s', i) → i = s.buffers.length ∧
    (∀ s₀, Reach bufferStep ByOpener s₀ s → Reach bufferStep ByOpener s₀ s') ∧
    ∃ b, s'.buffers = s.buffers ++ [b] ∧ b.closed = true ∧ s'.written b = bytes
  returns : ∀ t s, BufferInv s → Ready s t → ∃ s' i, make t s pkt = some (s', i) ∧ Ready s' t

omit [Fintype Tid] in
theorem handlePacket_packetOf {table : Nat → PacketHandlerFunc Call} {α : Type} {M : Message α} {func : α → Call}
    {pktId : Nat} (htable : table pktId = handlePacketAs M func) (hid : pktId < UINT16_MAX) {pkt : α}
    {bytes : List BYTE} (hfit : bytes.length ≤ 65531)
    (hparse : ∀ rest, M.parseFromArray (bytes ++ rest) bytes.length = some pkt) (rest : List BYTE) :
    handlePacket table (packetOf pktId bytes ++ rest) (packetOf pktId bytes).length = .called (func pkt) := by
  have hbody : (packetOf pktId bytes ++ rest).drop sizeofPacketHeader = bytes ++ rest := rfl
  have hsize : (((packetOf pktId bytes).length : Nat) : Int) - (sizeofPacketHeader : Nat) = bytes.length := by
    rw [length_packetOf, sizeofPacketHeader]
    omega
  simp only [handlePacket, readHeader_packetOf hfit hid, if_pos hid, htable, handlePacketAs, hbody, hsize, hparse]

/-- The message fits into a packet, and protobuf keeps its promise for it. -/
def Message.Fits {α : Type} (M : Message α) (pkt : α) : Prop := M.byteSizeLong pkt ≤ 5996 ∧ M.RoundTrips pkt

/-- **The template transmits**: where the table of the peer has the message's own handler at its id. -/
theorem transmits_template {table : Nat → PacketHandlerFunc Call} {α : Type} {M : Message α} (func : α → Call)
    (pktId : Nat) (htable : table pktId = handlePacketAs M func) (hid : pktId < UINT16_MAX) {pkt : α}
    (h : M.Fits pkt) {make : Tid → BufferState Tid → Packet → Option (BufferState Tid × Nat)} {packet : Packet}
    (hmake : ∀ t s, make t s packet = makeSendBuffer M pkt pktId t s) {call : Packet → Call}
    (hcall : call packet = func pkt) : ∃ bytes, Transmits make (handlePacket table) call packet bytes := by
  obtain ⟨hsize, bytes, hlen, hser, hparse⟩ := h
  have hfit : bytes.length ≤ 5996 := by omega
  refine ⟨packetOf pktId bytes, head_packetOf (by omega) hid, fun rest => ?_, fun t s s' i hI he => ?_, fun t s hI hr => ?_⟩
  · rw [handlePacket_packetOf htable hid (by omega) hparse, hcall]
  · rw [hmake] at he
    obtain ⟨s₁, b, he₁, -, hreach, hbuf, hcl, hw⟩ :=
      makeSendBuffer_spec hI (ready_of_makeSendBuffer he) hlen hfit hser pktId
    rw [he] at he₁
    cases he₁
    exact ⟨rfl, hreach, b, hbuf, hcl, hw⟩
  · obtain ⟨s', -, he, hr', -⟩ := makeSendBuffer_spec hI hr hlen hfit hser pktId
    exact ⟨s', _, (hmake t s).trans he, hr'⟩

/-! ## Packets one after another -/

/-- The packets made one after another, each by some thread, and their send buffers.  In between, anything may be done
with send buffers. -/
inductive Encoded (make : Tid → BufferState Tid → Packet → Option (BufferState Tid × Nat)) :
    BufferState Tid → List (Packet × Nat) → Prop
  | start : Encoded make bufferState₀ []
  | made {s s' : BufferState Tid} {sent : List (Packet × Nat)} {t : Tid} {pkt : Packet} {i : Nat} :
      Encoded make s sent → make t s pkt = some (s', i) → Encoded make s' (sent ++ [(pkt, i)])
  | other {s s' : BufferState Tid} {sent : List (Packet × Nat)} {a : BufferAct Tid} :
      Encoded make s sent → bufferStep s a = some s' → ByOpener s a s' → Encoded make s' sent

def Held (s : BufferState Tid) (i : Nat) : Prop := ∃ b, s.buffers[i]? = some b ∧ b.refs ≠ 0

def BufferState.concat (s : BufferState Tid) (is : List Nat) : List BYTE :=
  is.flatMap (fun i => match s.buffers[i]? with
    | none => []
    | some b => s.written b)

variable {make : Tid → BufferState Tid → Packet → Option (BufferState Tid × Nat)} {handle : PacketHandlerFunc Call}
  {call : Packet → Call} {s : BufferState Tid} {sent : List (Packet × Nat)}

def Holds (s : BufferState Tid) (i : Nat) (bytes : List BYTE) : Prop :=
  ∃ b, s.buffers[i]? = some b ∧ b.closed = true ∧ (b.refs ≠ 0 → s.written b = bytes)

theorem Holds.later {s' : BufferState Tid} {i : Nat} {bytes : List BYTE} (hI : BufferInv s) (h : Holds s i bytes)
    (hr : Reach bufferStep ByOpener s s') : Holds s' i bytes := by
  obtain ⟨b, hi, hcl, hw⟩ := h
  obtain ⟨b', hi', hcl', hkept⟩ := (closed_bytes_kept_run hI hr).2 i b hi hcl
  exact ⟨b', hi', hcl', fun hr' => (hkept hr').2.trans (hw (hkept hr').1)⟩

/-- **Every send buffer made holds its packet**, through whatever came later. -/
theorem Encoded.kept (h : Encoded make s sent) (hsent : ∀ p ∈ sent, ∃ bytes, Transmits make handle call p.1 bytes) :
    BufferReach s ∧ ∀ p ∈ sent, ∃ bytes, Transmits make handle call p.1 bytes ∧ Holds s p.2 bytes := by
  induction h with
  | start => exact ⟨.start, fun p hp => by cases hp⟩
  | @made s s' sent t pkt i _ he ih =>
    obtain ⟨hr, hkept⟩ := ih (fun p hp => hsent p (List.mem_append_left _ hp))
    obtain ⟨bytes, htr⟩ := hsent (pkt, i) (List.mem_append_right _ List.mem_cons_self)
    obtain ⟨rfl, hreach, b, hbuf, hcl, hw⟩ := htr.made t s s' i hr.inv he
    refine ⟨hreach _ hr, fun p hp => ?_⟩
    rcases List.mem_append.1 hp with hp | hp
    · obtain ⟨bytes, htr, hholds⟩ := hkept p hp
      exact ⟨bytes, htr, hholds.later hr.inv (hreach s .start)⟩
    · rw [List.mem_singleton] at hp
      subst hp
      exact ⟨bytes, htr, b, by rw [hbuf, List.getElem?_concat_length], hcl, fun _ => hw⟩
  | other _ he hok ih =>
    obtain ⟨hr, hkept⟩ := ih hsent
    refine ⟨hr.next he hok, fun p hp => ?_⟩
    obtain ⟨bytes, htr, hholds⟩ := hkept p hp
    exact ⟨bytes, htr, hholds.later hr.inv (.next .start he hok)⟩

/-- A packet and what is behind it: the packet is a frame, and `HandlePacket` sees only the packet. -/
structure Separate (handle : PacketHandlerFunc Call) (w : List BYTE) : Prop where
  frame : ∀ rest, packets.head (w ++ rest) = some w.length
  handled : ∀ rest, handle (w ++ rest) w.length = handle w w.length

theorem concat_eq_flatten : ∀ (sent : List (Packet × Nat)),
    (∀ p ∈ sent, ∃ bytes, Transmits make handle call p.1 bytes ∧ Holds s p.2 bytes) →
    (∀ p ∈ sent, Held s p.2) →
    ∃ ws : List (List BYTE), s.concat (sent.map Prod.snd) = ws.flatten ∧ (∀ w ∈ ws, Separate handle w) ∧
      ws.map (fun w => handle w w.length) = sent.map (fun p => .called (call p.1))
  | [], _, _ => ⟨[], rfl, by simp, rfl⟩
  | p :: sent, h, hheld => by
    obtain ⟨ws, hcat, hsep, hcalls⟩ := concat_eq_flatten sent (fun q hq => h q (List.mem_cons_of_mem _ hq))
      (fun q hq => hheld q (List.mem_cons_of_mem _ hq))
    obtain ⟨w, htr, b, hi, -, hw⟩ := h p List.mem_cons_self
    obtain ⟨b', hi', hr⟩ := hheld p List.mem_cons_self
    cases hi.symm.trans hi'
    have hself : handle w w.length = .called (call p.1) := by
      rw [← htr.handled [], List.append_nil]
    refine ⟨w :: ws, ?_, fun v hv => ?_, by rw [List.map_cons, List.map_cons, hcalls, hself]⟩
    · rw [List.map_cons, List.flatten_cons, ← hcat, ← hw hr]
      simp only [BufferState.concat, List.flatMap_cons, hi]
    · rcases List.mem_cons.1 hv with rfl | hv
      · exact ⟨htr.frame, fun rest => (htr.handled rest).trans hself.symm⟩
      · exact hsep v hv

/-- **The peer dispatches what was made**, in whatever pieces it arrives. -/
theorem Encoded.dispatched (h : Encoded make s sent)
    (hsent : ∀ p ∈ sent, ∃ bytes, Transmits make handle call p.1 bytes) (hheld : ∀ p ∈ sent, Held s p.2)
    (junk : Nat → BYTE) {chunks : List (List BYTE)} (hne : ∀ c ∈ chunks, c ≠ [])
    (hchunks : chunks.flatten = s.concat (sent.map Prod.snd))
    (hfit : fitsPosted junk (recvSession₀ .success) chunks = true) :
    ∃ r, processRecvs handle junk (recvSession₀ .success) chunks = some (r, sent.map (fun p => .called (call p.1))) ∧
      r.recvBuffer.data = [] ∧ r.disconnects = [] := by
  obtain ⟨ws, hcat, hsep, hcalls⟩ := concat_eq_flatten sent (h.kept hsent).2 hheld
  have hcut : Done packets chunks.flatten ws [] := by
    rw [hchunks, hcat]
    exact ⟨Cut.of_flatten ws (fun w hw => (hsep w hw).frame), head_nil⟩
  have hdata : (recvSession₀ .success).recvBuffer.data = [] := rfl
  obtain ⟨r, ps, hr, hfed, hdis⟩ := processRecvs_fed junk chunks _ (recvInv_start .success) rfl hne hfit
    (by rw [hdata]; exact hcut.positive)
  rw [hdata] at hfed
  -- the frames cut off on arrival are the packets made
  obtain ⟨rfl, hrest⟩ := (hfed.done_of_head head_nil).unique hcut
  exact ⟨r, by rw [processRecvs_eq_map chunks _ r ps hr (fun p hp => (hsep p hp).handled), hcalls], hrest, hdis⟩

/-! ## The two directions -/

/-- **Wire round trip** from the `MakeSendBuffer` of one side to the `HandlePacket` of the other: `MakeSendBuffer`
returns for every thread with no send buffer open, and however the send buffers made one after another arrive, they
cause exactly the calls of their handlers, in order, with nothing left over. -/
def WireRoundTrip (Tid : Type) [DecidableEq Tid]
    (make : Tid → BufferState Tid → Packet → Option (BufferState Tid × Nat)) (handle : PacketHandlerFunc Call)
    (call : Packet → Call) (Fits : Packet → Prop) : Prop :=
  (∀ (s : BufferState Tid) (sent : List (Packet × Nat)) (t : Tid) (pkt : Packet), Encoded make s sent →
    (∀ p ∈ sent, Fits p.1) → Fits pkt → Ready s t → ∃ s' i, make t s pkt = some (s', i) ∧ Ready s' t) ∧
  ∀ (s : BufferState Tid) (sent : List (Packet × Nat)) (junk : Nat → BYTE) (chunks : List (List BYTE)),
    Encoded make s sent → (∀ p ∈ sent, Fits p.1) → (∀ p ∈ sent, Held s p.2) → (∀ c ∈ chunks, c ≠ []) →
    chunks.flatten = s.concat (sent.map Prod.snd) → fitsPosted junk (recvSession₀ .success) chunks = true →
    ∃ r, processRecvs handle junk (recvSession₀ .success) chunks = some (r, sent.map (fun p => .called (call p.1))) ∧
      r.recvBuffer.data = [] ∧ r.disconnects = []

theorem wireRoundTrip_of_transmits {Fits : Packet → Prop}
    (h : ∀ pkt, Fits pkt → ∃ bytes, Transmits make handle call pkt bytes) :
    WireRoundTrip Tid make handle call Fits := by
  refine ⟨fun s sent t pkt he hsent hfits hready => ?_, fun s sent junk chunks he hsent hheld hne hcat hfit => ?_⟩
  · obtain ⟨bytes, htr⟩ := h pkt hfits
    exact htr.returns t s (he.kept (fun p hp => h p.1 (hsent p hp))).1.inv hready
  · exact he.dispatched (fun p hp => h p.1 (hsent p hp)) hheld junk hne hcat hfit

/-- The message fits into a packet, and protobuf keeps its promise for it. -/
def ClientPacket.Fits (pb : Protobuf) : ClientPacket → Prop
  | .C_LOGIN pkt => pb.C_LOGIN.Fits pkt
  | .C_ENTER_GAME pkt => pb.C_ENTER_GAME.Fits pkt
  | .C_CHAT pkt => pb.C_CHAT.Fits pkt

def ServerPacket.Fits (pb : Protobuf) : ServerPacket → Prop
  | .S_LOGIN pkt => pb.S_LOGIN.Fits pkt
  | .S_ENTER_GAME pkt => pb.S_ENTER_GAME.Fits pkt
  | .S_CHAT pkt => pb.S_CHAT.Fits pkt

def ClientPacket.handler : ClientPacket → ClientPacketHandler.Call
  | .C_LOGIN pkt => .Handle_C_LOGIN pkt
  | .C_ENTER_GAME pkt => .Handle_C_ENTER_GAME pkt
  | .C_CHAT pkt => .Handle_C_CHAT pkt

def ServerPacket.handler : ServerPacket → ServerPacketHandler.Call
  | .S_LOGIN pkt => .Handle_S_LOGIN pkt
  | .S_ENTER_GAME pkt => .Handle_S_ENTER_GAME pkt
  | .S_CHAT pkt => .Handle_S_CHAT pkt

theorem ClientPacket.transmits {pb : Protobuf} {pkt : ClientPacket} (h : pkt.Fits pb) :
    ∃ bytes, Transmits (ServerPacketHandler.makeSendBuffer pb : Tid → _) (handlePacket (ClientPacketHandler.init pb))
      ClientPacket.handler pkt bytes := by
  cases pkt with
  | C_LOGIN pkt =>
    refine transmits_template ClientPacketHandler.Call.Handle_C_LOGIN PKT_C_LOGIN rfl (by decide) h (fun _ _ => ?_) ?_
      <;> rfl
  | C_ENTER_GAME pkt =>
    refine transmits_template ClientPacketHandler.Call.Handle_C_ENTER_GAME PKT_C_ENTER_GAME rfl (by decide) h (fun _ _ => ?_) ?_
      <;> rfl
  | C_CHAT pkt =>
    refine transmits_template ClientPacketHandler.Call.Handle_C_CHAT PKT_C_CHAT rfl (by decide) h (fun _ _ => ?_) ?_
      <;> rfl

theorem ServerPacket.transmits {pb : Protobuf} {pkt : ServerPacket} (h : pkt.Fits pb) :
    ∃ bytes, Transmits (ClientPacketHandler.makeSendBuffer pb : Tid → _) (handlePacket (ServerPacketHandler.init pb))
      ServerPacket.handler pkt bytes := by
  cases pkt with
  | S_LOGIN pkt =>
    refine transmits_template ServerPacketHandler.Call.Handle_S_LOGIN PKT_S_LOGIN rfl (by decide) h (fun _ _ => ?_) ?_
      <;> rfl
  | S_ENTER_GAME pkt =>
    refine transmits_template ServerPacketHandler.Call.Handle_S_ENTER_GAME PKT_S_ENTER_GAME rfl (by decide) h (fun _ _ => ?_) ?_
      <;> rfl
  | S_CHAT pkt =>
    refine transmits_template ServerPacketHandler.Call.Handle_S_CHAT PKT_S_CHAT rfl (by decide) h (fun _ _ => ?_) ?_
      <;> rfl

/-- **Every packet reaches its handler**, from the client to the server and from the server to the client. -/
theorem wire_round_trip (Tid : Type) [Fintype Tid] [DecidableEq Tid] (pb : Protobuf) :
    WireRoundTrip Tid (ServerPacketHandler.makeSendBuffer pb) (handlePacket (ClientPacketHandler.init pb))
      ClientPacket.handler (ClientPacket.Fits pb) ∧
    WireRoundTrip Tid (ClientPacketHandler.makeSendBuffer pb) (handlePacket (ServerPacketHandler.init pb))
      ServerPacket.handler (ServerPacket.Fits pb) :=
  ⟨wireRoundTrip_of_transmits (fun _ => ClientPacket.transmits),
    wireRoundTrip_of_transmits (fun _ => ServerPacket.transmits)⟩

/-- The class of a message of which only one value is used, with its bytes. -/
def onlyMessage {α : Type} (pkt : α) (bytes : List BYTE) : Message α where
  byteSizeLong _ := bytes.length
  serializeToArray _ size := if bytes.length ≤ size then some bytes else none
  parseFromArray memory size := if size = bytes.length ∧ memory.take bytes.length = bytes then some pkt else none

theorem onlyMessage_parses {α : Type} (pkt : α) (bytes rest : List BYTE) :
    (onlyMessage pkt bytes).parseFromArray (bytes ++ rest) bytes.length = some pkt :=
  if_pos ⟨rfl, List.take_left⟩

theorem onlyMessage_fits {α : Type} (pkt : α) {bytes : List BYTE} (h : bytes.length ≤ 5996) :
    (onlyMessage pkt bytes).Fits pkt :=
  ⟨h, bytes, rfl, fun _ hsize => if_pos hsize, onlyMessage_parses pkt bytes⟩

/-- A login, a chat message "Hi", a first character chosen, and the answers. -/
def somePackets : Protobuf where
  C_LOGIN := onlyMessage ⟨⟩ []
  S_LOGIN := onlyMessage ⟨true, []⟩ [0x08, 0x01]
  C_ENTER_GAME := onlyMessage ⟨1⟩ [0x08, 0x01]
  S_ENTER_GAME := onlyMessage ⟨true⟩ [0x08, 0x01]
  C_CHAT := onlyMessage ⟨[0x48, 0x69]⟩ [0x0a, 0x02, 0x48, 0x69]
  S_CHAT := onlyMessage ⟨0, [0x48, 0x69]⟩ [0x12, 0x02, 0x48, 0x69]

theorem wire_round_trip_hi : ∃ r,
    processRecvs (handlePacket (ClientPacketHandler.init somePackets)) (fun _ => 0) (recvSession₀ .success)
        [[4, 0, 0xe8], [3, 8, 0, 0xec, 3, 0x0a], [2, 0x48, 0x69]] =
      some (r, [.called (.Handle_C_LOGIN ⟨⟩), .called (.Handle_C_CHAT ⟨[0x48, 0x69]⟩)]) ∧
    r.recvBuffer.data = [] ∧ r.disconnects = [] := by
  obtain ⟨make, hmake⟩ : ∃ make : Fin 1 → _, make = ServerPacketHandler.makeSendBuffer somePackets := ⟨_, rfl⟩
  have hrun : ((make 0 bufferState₀ (.C_LOGIN ⟨⟩)).bind (fun r => (make 0 r.1 (.C_CHAT ⟨[0x48, 0x69]⟩)).map (fun q =>
      (r.2, q.2, q.1.concat [0, 1], q.1.buffers.map (·.refs))))) =
      some (0, 1, [4, 0, 0xe8, 3, 8, 0, 0xec, 3, 0x0a, 2, 0x48, 0x69], [1, 1]) := by
    rw [hmake]
    decide
  obtain ⟨⟨s₁, i⟩, h₁, hrun⟩ := Option.bind_eq_some_iff.1 hrun
  obtain ⟨⟨s, j⟩, h₂, hs⟩ := Option.map_eq_some_iff.1 hrun
  simp only [Prod.mk.injEq] at hs
  obtain ⟨rfl, rfl, hcat, hrefs⟩ := hs
  have hsent : Encoded make s [(.C_LOGIN ⟨⟩, 0), (.C_CHAT ⟨[0x48, 0x69]⟩, 1)] := (Encoded.start.made h₁).made h₂
  have hheld : ∀ i, (s.buffers.map (·.refs))[i]? = some 1 → Held s i := by
    intro i hi
    obtain ⟨b, hb, h1⟩ := Option.map_eq_some_iff.1 ((List.getElem?_map ..).symm.trans hi)
    exact ⟨b, hb, by omega⟩
  rw [hmake] at hsent
  obtain ⟨r, hr, hrest⟩ := (wire_round_trip (Fin 1) somePackets).1.2 s _ (fun _ => 0)
    [[4, 0, 0xe8], [3, 8, 0, 0xec, 3, 0x0a], [2, 0x48, 0x69]] hsent
    (by
      intro p hp
      rcases List.mem_pair.1 hp with rfl | rfl
      · exact onlyMessage_fits _ (by decide)
      · exact onlyMessage_fits _ (by decide))
    (by
      intro p hp
      rcases List.mem_pair.1 hp with rfl | rfl
      · exact hheld 0 (by rw [hrefs]; rfl)
      · exact hheld 1 (by rw [hrefs]; rfl))
    (by decide) hcat.symm (by decide)
  exact ⟨r, hr, hrest⟩

end Geon
