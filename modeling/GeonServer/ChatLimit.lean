import GeonServer.WireRoundTrip
/-!
# ChatLimit — the longest chat message that is answered

`Handle_C_CHAT` puts its answer into one send buffer, and a send buffer is a piece of one chunk.  A packet may be as
long as its size field can say, which is ten times a chunk: with a longer message `SendBufferManager::Open` pops a new
chunk, and the first assertion of `SendBufferChunk::Open` fails (`open_crashes`).  With every other message the handler
returns, whatever is left of the thread's chunk: a thread that opens send buffers in `MakeSendBuffer` only has closed
each of them before the next (`Serves.ready`).
-/
namespace Geon

open Frames Lts Function

variable {Tid : Type} [DecidableEq Tid] {s s' : BufferState Tid}

/-! ## Asking for more than a chunk -/

theorem Runs.trans {t : Tid} {n m : Nat} {s₁ : BufferState Tid} (h : Runs t n s s₁) (h' : Runs t m s₁ s') :
    ∃ k, Runs t k s s' := by
  induction h with
  | refl => exact ⟨m, h'⟩
  | next hrun hpc he _ ih =>
    obtain ⟨k, hk⟩ := ih h'
    exact ⟨k + 1, .next hrun hpc he hk⟩

/-- Thread `t` comes to an assertion that fails, by its own steps. -/
def Crashes (s : BufferState Tid) (t : Tid) : Prop :=
  ∃ n s', Runs t n s s' ∧ s'.crashed = true ∧ (s'.threads t).pc ≠ .idle

theorem Crashes.before {t : Tid} {n : Nat} (h : Crashes s' t) (hr : Runs t n s s') : Crashes s t := by
  obtain ⟨m, s₁, hruns, hcr, hpc⟩ := h
  obtain ⟨k, hk⟩ := hr.trans hruns
  exact ⟨k, s₁, hk, hcr, hpc⟩

theorem runThread_crashed {t : Tid} (h : Crashes s t) : ∀ m, runThread t m s = none := by
  obtain ⟨n, s', hruns, hcr, hpc⟩ := h
  induction hruns with
  | refl =>
    intro m
    cases m with
    | zero => rfl
    | succ m => simp [runThread, hpc, bufferStep, hcr]
  | next hrun hne he _ ih =>
    intro m
    cases m with
    | zero => rfl
    | succ m => rw [runThread_succ m hrun hne he, ih hcr hpc]

theorem crashes_second {t : Tid} {size : Nat} (hsize : SEND_BUFFER_CHUNK_SIZE < size) (hrun : s.crashed = false)
    (hpc : (s.threads t).pc = .pop size true) : Crashes s t := by
  obtain ⟨k, s₁, c, -, hruns, hrun₁, -, hreset, hc⟩ := runs_to_reset 4 s (.of_pop hrun hpc)
  rw [hpc, BufferPc.isSecond] at hreset
  obtain ⟨s₂, hs₂, -, -, he⟩ := next_reset hreset hc
  have hcrash : s₂.chunkOpen t c size = s₂.crash := by
    rw [BufferState.chunkOpen, if_pos (Nat.not_le.2 hsize)]
  rw [if_pos rfl, hcrash] at he
  have hpc₂ : (s₂.crash.threads t).pc ≠ .idle := by
    rw [hs₂]
    simp [BufferState.crash, hreset]
  exact Crashes.before ⟨1, s₂.crash, .next hrun₁ (by simp [hreset]) he .refl, rfl, hpc₂⟩ hruns

theorem managerOpen_too_long {t : Tid} {c size : Nat} (hsize : SEND_BUFFER_CHUNK_SIZE < size)
    (hopen : (s.chunks c).isOpen = false) : s.managerOpen t c size = s.goto t (.pop size true) := by
  have hfree : (s.chunks c).freeSize ≤ SEND_BUFFER_CHUNK_SIZE := Nat.sub_le _ _
  rw [BufferState.managerOpen, if_neg (by simp [hopen]), if_pos (Nat.lt_of_le_of_lt hfree hsize)]

/-- **`Open` crashes when it is asked for more than a chunk**: it pops a chunk that is empty after `Reset`, finds too
little in it, pops a second one, and `SendBufferChunk::Open` refuses. -/
theorem open_crashes {t : Tid} {size : Nat} (h : Ready s t) (hsize : SEND_BUFFER_CHUNK_SIZE < size) :
    ∃ s₁, bufferStep s (.openCall t size) = some s₁ ∧ Crashes s₁ t := by
  obtain ⟨hrun, hidle, hclosed⟩ := h
  cases hc : (s.threads t).chunk with
  | none =>
    refine ⟨s.goto t (.pop size false), by simp [bufferStep, hrun, hidle, hc], ?_⟩
    have hpc : ((s.goto t (.pop size false)).threads t).pc = .pop size false := by simp [BufferState.goto]
    obtain ⟨k, s₁, c, -, hruns, hrun₁, -, hreset, hc₁⟩ := runs_to_reset 4 (s.goto t _) (.of_pop hrun hpc)
    rw [hpc, BufferPc.isSecond] at hreset
    obtain ⟨s₂, hs₂, hopen, -, he⟩ := next_reset hreset hc₁
    rw [if_neg Bool.false_ne_true, managerOpen_too_long hsize hopen] at he
    have hsecond : Crashes (s₂.goto t (.pop size true)) t :=
      crashes_second hsize (by rw [hs₂]; exact hrun₁) (by simp [BufferState.goto])
    exact (hsecond.before (.next hrun₁ (by simp [hreset]) he .refl)).before hruns
  | some c =>
    have he : bufferStep s (.openCall t size) = some (s.managerOpen t c size) := by
      simp [bufferStep, hrun, hidle, hc]
    rw [managerOpen_too_long hsize (hclosed c hc)] at he
    exact ⟨_, he, crashes_second hsize hrun (by simp [BufferState.goto])⟩

theorem openSendBuffer_too_long {t : Tid} {size : Nat} (h : Ready s t) (hsize : SEND_BUFFER_CHUNK_SIZE < size) :
    openSendBuffer s t size = none := by
  obtain ⟨s₁, he, hcrash⟩ := open_crashes h hsize
  simp [openSendBuffer, he, runThread_crashed hcrash]

/-! ## Threads that open send buffers in `MakeSendBuffer` only -/

/-- Thread `u` leaves the other threads alone, and their chunks closed. -/
structure Frame (u : Tid) (s s' : BufferState Tid) : Prop where
  threads : ∀ t, t ≠ u → s'.threads t = s.threads t
  closed : ∀ t c, t ≠ u → (s.threads t).chunk = some c → (s.chunks c).isOpen = false → (s'.chunks c).isOpen = false

theorem Frame.goto (s : BufferState Tid) (u : Tid) (pc : BufferPc) : Frame u s (s.goto u pc) where
  threads _ hne := update_of_ne hne ..
  closed _ _ _ _ hopen := hopen

omit [DecidableEq Tid] in
theorem Frame.trans {u : Tid} {s₁ : BufferState Tid} (h : Frame u s s₁) (h' : Frame u s₁ s') : Frame u s s' where
  threads t hne := (h'.threads t hne).trans (h.threads t hne)
  closed t c hne hc hopen := h'.closed t c hne (by rw [h.threads t hne]; exact hc) (h.closed t c hne hc hopen)

/-- Only the thread moves, and a chunk is opened only if no other thread has it. -/
theorem Frame.update {u : Tid} {th : BufferThread} {c : Nat} {chunk : SendBufferChunk}
    (hth : s'.threads = Function.update s.threads u th) (hch : s'.chunks = Function.update s.chunks c chunk)
    (hopen : (∀ t, t ≠ u → (s.threads t).chunk ≠ some c) ∨ chunk.isOpen = (s.chunks c).isOpen ∨ chunk.isOpen = false) :
    Frame u s s' where
  threads t hne := by rw [hth, update_of_ne hne]
  closed t d hne hd hclosed := by
    rw [hch]
    by_cases hdc : d = c
    · subst hdc
      rw [update_self]
      obtain hown | hsame | hshut := hopen
      · exact absurd hd (hown t hne)
      · rw [hsame, hclosed]
      · exact hshut
    · rw [update_of_ne hdc, hclosed]

theorem Frame.openStep {u : Tid} {c size : Nat} {second : Bool} (hown : ∀ t, t ≠ u → (s.threads t).chunk ≠ some c)
    (h : BufferState.OpenStep s u c size second s') : Frame u s s' := by
  cases h with
  | crash _ => exact ⟨fun _ _ => rfl, fun _ _ _ _ hopen => hopen⟩
  | popAgain _ _ _ | refused _ _ _ => exact .goto s u _
  | opened _ _ => exact .update rfl rfl (.inl hown)

theorem Frame.next [Fintype Tid] (h : BufferInv s) {u : Tid} (hstep : BufferState.NextStep s u s') : Frame u s s' := by
  cases hstep with
  | pop _ _ => exact ⟨fun t hne => update_of_ne hne .., fun _ _ _ _ hopen => hopen⟩
  | make _ _ => exact .update rfl rfl (.inr (.inr rfl))
  | release _ | recycle _ => exact .update rfl rfl (.inr (.inl rfl))
  | @reset _ c _ _ _ hc hopen =>
    have hown : ∀ t, t ≠ u → (s.threads t).chunk ≠ some c := fun t hne ht => hne (h.slot_unique ht hc)
    have hreset : Frame u s { s with chunks := Function.update s.chunks c (s.chunks c).reset } :=
      .update (update_eq_self ..).symm rfl (.inr (.inr rfl))
    exact hreset.trans (.openStep (by exact hown) hopen)

/-- The thread is not inside `Open`, and its chunk is closed. -/
structure Shut (s : BufferState Tid) (t : Tid) : Prop where
  outside : (s.threads t).pc = .idle ∨ ∃ c, (s.threads t).pc = .release c none ∨ (s.threads t).pc = .recycle c none
  closed : ∀ c, (s.threads t).chunk = some c → (s.chunks c).isOpen = false

omit [DecidableEq Tid] in
theorem Shut.framed {t u : Tid} (h : Shut s t) (hf : Frame u s s') (hne : t ≠ u) : Shut s' t where
  outside := by
    rw [hf.threads t hne]
    exact h.outside
  closed c hc := by
    rw [hf.threads t hne] at hc
    exact hf.closed t c hne hc (h.closed c hc)

omit [DecidableEq Tid] in
/-- No chunk is opened by a step that leaves the threads where they are. -/
theorem Shut.of_threads {t : Tid} (h : Shut s t) (hth : s'.threads = s.threads)
    (hopen : ∀ c, (s.chunks c).isOpen = false → (s'.chunks c).isOpen = false) : Shut s' t where
  outside := by
    rw [hth]
    exact h.outside
  closed c hc := by
    rw [hth] at hc
    exact hopen c (h.closed c hc)

theorem Shut.goto {t : Tid} (h : Shut s t) {pc : BufferPc}
    (hpc : pc = .idle ∨ ∃ c, pc = .release c none ∨ pc = .recycle c none)
    (hth : s'.threads = update s.threads t ⟨(s.threads t).chunk, pc⟩)
    (hopen : ∀ c, (s'.chunks c).isOpen = (s.chunks c).isOpen) : Shut s' t where
  outside := by
    rw [hth, update_self]
    exact hpc
  closed c hc := by
    rw [hth, update_self] at hc
    rw [hopen, h.closed c hc]

/-- Giving up the last reference to a chunk, a shut thread comes back from it. -/
theorem Shut.next {t : Tid} (h : Shut s t) (hstep : BufferState.NextStep s t s') : Shut s' t := by
  have hout := h.outside
  cases hstep with
  | pop hpc _ | make hpc _ | reset hpc _ _ => simp [hpc] at hout
  | @release c after hpc =>
    obtain rfl : after = none := by simpa [hpc] using hout
    refine h.goto ?_ rfl (fun d => apply_update_of_eq SendBufferChunk.isOpen s.chunks (by rfl) d)
    split
    · exact .inr ⟨c, .inr rfl⟩
    · exact .inl rfl
  | @recycle c after hpc =>
    obtain rfl : after = none := by simpa [hpc] using hout
    exact h.goto (.inl rfl) rfl (fun d => apply_update_of_eq SendBufferChunk.isOpen s.chunks (by rfl) d)

/-- **A thread that does not call `Open` stays shut**, whatever it and the others do otherwise. -/
theorem Shut.kept [Fintype Tid] {t : Tid} (h : BufferInv s) (hs : Shut s t) {a : BufferAct Tid}
    (he : bufferStep s a = some s') (ha : ∀ size, a ≠ .openCall t size) : Shut s' t := by
  cases bufferStep_effect he with
  | @pop u size _ _ => exact hs.framed (.goto s u _) (fun htu => ha size (by rw [htu]))
  | @openCall u size _ _ _ hc hopen =>
    exact hs.framed (.openStep (fun v hv hvc => hv (h.slot_unique hvc hc)) hopen) (fun htu => ha size (by rw [htu]))
  | @next u _ hstep =>
    by_cases hne : t = u
    · subst hne
      exact hs.next hstep
    · exact hs.framed (.next h hstep) hne
  | write _ _ _ =>
    refine hs.of_threads rfl (fun d hd => ?_)
    rw [← hd]
    exact apply_update_of_eq SendBufferChunk.isOpen s.chunks (by rfl) d
  | closeFails _ _ _ _ | copyRef _ _ => exact hs.of_threads rfl (fun d hd => hd)
  | @close _ _ _ b _ _ _ _ _ =>
    refine hs.of_threads rfl (fun d hd => ?_)
    show (update s.chunks b.owner _ d).isOpen = false
    rw [update_apply]
    split
    · rfl
    · exact hd
  | @dropRef u _ _ _ _ _ =>
    by_cases hne : t = u
    · subst hne
      refine hs.goto ?_ rfl (fun _ => rfl)
      split
      · exact .inr ⟨_, .inl rfl⟩
      · exact .inl rfl
    · refine hs.framed ⟨fun v hv => ?_, fun _ _ _ _ hopen => hopen⟩ hne
      exact update_of_ne hv ..

/-- The states in which thread `t` has called `Open` in `MakeSendBuffer` only.  The others may have done anything. -/
inductive Serves (pb : Protobuf) (t : Tid) : BufferState Tid → Prop
  | start : Serves pb t bufferState₀
  | made {s s' : BufferState Tid} {pkt : ServerPacket} {i : Nat} : Serves pb t s → pkt.Fits pb →
      ClientPacketHandler.makeSendBuffer pb t s pkt = some (s', i) → Serves pb t s'
  | other {s s' : BufferState Tid} {a : BufferAct Tid} : Serves pb t s → bufferStep s a = some s' → ByOpener s a s' →
      (∀ size, a ≠ .openCall t size) → Serves pb t s'

/-- **A thread that serves is ready again** each time it is out of the code. -/
theorem Serves.ready [Fintype Tid] {pb : Protobuf} {t : Tid} (h : Serves pb t s) :
    BufferReach s ∧ (s.crashed = false → (s.threads t).pc = .idle → Ready s t) := by
  suffices BufferReach s ∧ Shut s t from
    ⟨this.1, fun hrun hidle => ⟨hrun, hidle, this.2.closed⟩⟩
  induction h with
  | start => exact ⟨.start, .inl rfl, fun c hc => by cases hc⟩
  | @made s s' pkt i _ hfits he ih =>
    obtain ⟨hreach, -⟩ := ih
    have hr : Ready s t := by
      cases pkt with
      | S_LOGIN pkt | S_ENTER_GAME pkt | S_CHAT pkt => exact ready_of_makeSendBuffer he
    obtain ⟨bytes, htr⟩ : ∃ bytes, Transmits (ClientPacketHandler.makeSendBuffer pb : Tid → _)
        (handlePacket (ServerPacketHandler.init pb)) ServerPacket.handler pkt bytes := ServerPacket.transmits hfits
    obtain ⟨s₁, j, he₁, hr₁⟩ := htr.returns t s hreach.inv hr
    cases he.symm.trans he₁
    exact ⟨(htr.made t s s' i hreach.inv he).2.1 _ hreach, .inl hr₁.idle, hr₁.closed⟩
  | other _ he hok ha ih =>
    obtain ⟨hreach, hshut⟩ := ih
    exact ⟨hreach.next he hok, hshut.kept hreach.inv he ha⟩

/-! ## `Handle_C_CHAT` -/

/-- `Handle_C_CHAT` called by thread `t`, with the send buffer it pushes for `Room::BroadCast`; `none` when it
crashes. -/
def ClientPacketHandler.handle_C_CHAT (pb : Protobuf) (t : Tid) (s : BufferState Tid) (pkt : Protocol.C_CHAT) :
    Option (BufferState Tid × Nat) :=
  let chatPkt : Protocol.S_CHAT := ⟨0, pkt.msg⟩
  ClientPacketHandler.makeSendBuffer pb t s (.S_CHAT chatPkt)

/-- What protobuf promises for the chat messages: the field `msg` takes as much room in either, a message is not longer
than the bytes it was parsed from, and `SerializeToArray` succeeds given room, up to the size an `int` can say. -/
structure Protobuf.KeepsChat (pb : Protobuf) : Prop where
  sameSize : ∀ msg, pb.S_CHAT.byteSizeLong ⟨0, msg⟩ = pb.C_CHAT.byteSizeLong ⟨msg⟩
  parsed : ∀ (memory : List BYTE) (size : Int) (pkt : Protocol.C_CHAT),
    pb.C_CHAT.parseFromArray memory size = some pkt → (pb.C_CHAT.byteSizeLong pkt : Int) ≤ size
  serialized : ∀ msg, pb.S_CHAT.byteSizeLong ⟨0, msg⟩ < 2147483648 →
    ∃ bytes : List BYTE, bytes.length = pb.S_CHAT.byteSizeLong ⟨0, msg⟩ ∧
      ∀ size : Int, pb.S_CHAT.byteSizeLong ⟨0, msg⟩ ≤ size → pb.S_CHAT.serializeToArray ⟨0, msg⟩ size = some bytes

theorem init_cases (pb : Protobuf) (id : Nat) (buffer : List BYTE) (len : Nat) :
    let handled := ClientPacketHandler.init pb id buffer len
    handled = handlePacketAs pb.C_CHAT .Handle_C_CHAT buffer len ∨
      handled = handlePacketAs pb.C_ENTER_GAME .Handle_C_ENTER_GAME buffer len ∨
      handled = handlePacketAs pb.C_LOGIN .Handle_C_LOGIN buffer len ∨ handled = .called .Handle_INVALID := by
  rcases eq_or_ne id PKT_C_CHAT with rfl | hchat
  · exact .inl rfl
  rcases eq_or_ne id PKT_C_ENTER_GAME with rfl | henter
  · exact .inr (.inl rfl)
  rcases eq_or_ne id PKT_C_LOGIN with rfl | hlogin
  · exact .inr (.inr (.inl rfl))
  exact .inr (.inr (.inr (congrFun₂ (ClientPacketHandler.init_of_ne pb hchat henter hlogin) buffer len)))

theorem handlePacketAs_eq_called {α Call : Type} {M : Message α} {func : α → Call} {buffer : List BYTE} {len : Nat}
    {call : Call} (h : handlePacketAs M func buffer len = .called call) : ∃ pkt, func pkt = call ∧
      M.parseFromArray (buffer.drop sizeofPacketHeader) ((len : Int) - sizeofPacketHeader) = some pkt := by
  unfold handlePacketAs at h
  split at h
  · cases h
  · rename_i pkt hparse
    exact ⟨pkt, by simpa using h, hparse⟩

/-- A chat message that reaches its handler was parsed from what is behind the header. -/
theorem parsed_of_called {pb : Protobuf} {buffer : List BYTE} {len : Nat} {pkt : Protocol.C_CHAT}
    (h : handlePacket (ClientPacketHandler.init pb) buffer len = .called (.Handle_C_CHAT pkt)) :
    pb.C_CHAT.parseFromArray (buffer.drop sizeofPacketHeader) ((len : Int) - sizeofPacketHeader) = some pkt := by
  unfold handlePacket at h
  split at h
  · cases h
  split at h
  · obtain hc | hc | hc | hc := init_cases pb _ buffer len <;> rw [hc] at h
    · obtain ⟨pkt', hfunc, hparse⟩ := handlePacketAs_eq_called h
      cases hfunc
      exact hparse
    · obtain ⟨pkt', hfunc, -⟩ := handlePacketAs_eq_called h
      cases hfunc
    · obtain ⟨pkt', hfunc, -⟩ := handlePacketAs_eq_called h
      cases hfunc
    · cases h
  · cases h

/-- Neither of the two sizes is cut off by its `uint16`, so `Open` is asked for more than a chunk. -/
theorem handle_C_CHAT_too_long {pb : Protobuf} (hpb : pb.KeepsChat) {t : Tid} (hr : Ready s t)
    {pkt : Protocol.C_CHAT} (hlong : SEND_BUFFER_CHUNK_SIZE < pb.C_CHAT.byteSizeLong pkt + sizeofPacketHeader)
    (hpacket : pb.C_CHAT.byteSizeLong pkt + sizeofPacketHeader < 65536) :
    ClientPacketHandler.handle_C_CHAT pb t s pkt = none := by
  have hsize : pb.S_CHAT.byteSizeLong ⟨0, pkt.msg⟩ = pb.C_CHAT.byteSizeLong pkt := hpb.sameSize pkt.msg
  have hdata : toUInt16 (pb.S_CHAT.byteSizeLong ⟨0, pkt.msg⟩) = pb.C_CHAT.byteSizeLong pkt := by
    rw [hsize, toUInt16]
    omega
  have hwhole : toUInt16 (pb.C_CHAT.byteSizeLong pkt + sizeofPacketHeader) =
      pb.C_CHAT.byteSizeLong pkt + sizeofPacketHeader := Nat.mod_eq_of_lt hpacket
  unfold ClientPacketHandler.handle_C_CHAT ClientPacketHandler.makeSendBuffer makeSendBuffer
  simp only [hdata, hwhole, openSendBuffer_too_long hr hlong]
  rfl

/-- **A chat message is answered exactly when it fits into a chunk with the header**, whatever bytes the packet was
parsed from and whatever is left of the chunk of the thread that handles it. -/
theorem chat_answered_iff [Fintype Tid] {pb : Protobuf} (hpb : pb.KeepsChat) (h : BufferReach s) {t : Tid}
    (hr : Ready s t) {buffer : List BYTE} {len : Nat} (hhead : packets.head buffer = some len)
    {pkt : Protocol.C_CHAT}
    (hcall : handlePacket (ClientPacketHandler.init pb) buffer len = .called (.Handle_C_CHAT pkt)) :
    (∃ s' sendBuffer, ClientPacketHandler.handle_C_CHAT pb t s pkt = some (s', sendBuffer) ∧ s'.crashed = false) ↔
      pb.C_CHAT.byteSizeLong pkt + sizeofPacketHeader ≤ SEND_BUFFER_CHUNK_SIZE := by
  obtain ⟨header, hheader, rfl, -⟩ := (packetHead_eq_some _ _).1 hhead
  have hlen := readHeader_size_lt _ _ hheader
  have hparsed := hpb.parsed _ _ _ (parsed_of_called hcall)
  constructor
  · rintro ⟨s', sendBuffer, hmake, -⟩
    by_contra hlong
    rw [handle_C_CHAT_too_long hpb hr (Nat.not_le.1 hlong) (by omega)] at hmake
    cases hmake
  · intro hfit
    have hsize : pb.S_CHAT.byteSizeLong ⟨0, pkt.msg⟩ = pb.C_CHAT.byteSizeLong pkt := hpb.sameSize pkt.msg
    rw [sizeofPacketHeader, SEND_BUFFER_CHUNK_SIZE] at hfit
    obtain ⟨bytes, hbytes, hser⟩ := hpb.serialized pkt.msg (by omega)
    obtain ⟨s', b, hmake, hr', -⟩ := makeSendBuffer_spec h.inv hr hbytes (by omega) hser PKT_S_CHAT
    exact ⟨s', _, hmake, hr'.running⟩

omit [DecidableEq Tid] in
theorem ready₀ (t : Tid) : Ready (bufferState₀ : BufferState Tid) t := ⟨rfl, rfl, fun c hc => by cases hc⟩

theorem keepsChat_onlyMessage {pb : Protobuf} (msg bytes bytes' : List BYTE)
    (hc : pb.C_CHAT = onlyMessage ⟨msg⟩ bytes) (hs : pb.S_CHAT = onlyMessage ⟨0, msg⟩ bytes')
    (hlen : bytes'.length = bytes.length) : pb.KeepsChat where
  sameSize _ := by
    rw [hc, hs]
    exact hlen
  parsed memory size pkt h := by
    rw [hc] at h ⊢
    simp only [onlyMessage] at h ⊢
    split at h
    · rename_i hp
      exact Int.le_of_eq hp.1.symm
    · cases h
  serialized msg _ := by
    rw [hs]
    exact ⟨bytes', rfl, fun size hsize => if_pos hsize⟩

theorem chat_answered_hi : ∃ (s' : BufferState Two) (sendBuffer : Nat),
    ClientPacketHandler.handle_C_CHAT somePackets .one bufferState₀ ⟨[0x48, 0x69]⟩ = some (s', sendBuffer) ∧
      s'.crashed = false :=
  (chat_answered_iff
    (keepsChat_onlyMessage [0x48, 0x69] [0x0a, 2, 0x48, 0x69] [0x12, 2, 0x48, 0x69] rfl rfl rfl)
    .start (ready₀ Two.one) (show packets.head [8, 0, 0xec, 3, 0x0a, 2, 0x48, 0x69] = some 8 from rfl) rfl).2
    (by decide)

/-! ## A message one byte too long -/

def longMsg : List BYTE := List.replicate 5994 0x41

/-- The bytes of a chat message whose field `msg` has this tag. -/
def longBytes (tag : BYTE) : List BYTE := [tag, 0xea, 0x2e] ++ longMsg

theorem length_longBytes (tag : BYTE) : (longBytes tag).length = 5997 := by
  rw [longBytes, longMsg, List.length_append, List.length_replicate]
  rfl

def longChat : Protobuf :=
  { somePackets with
    C_CHAT := onlyMessage ⟨longMsg⟩ (longBytes 0x0a)
    S_CHAT := onlyMessage ⟨0, longMsg⟩ (longBytes 0x12) }

theorem onRecv_single {Call : Type} {handle : PacketHandlerFunc Call} {w : List BYTE} (h : Separate handle w) :
    onRecv handle w = some ([handle w w.length], w.length) := by
  have hdone : Done packets w [w] [] := by
    have hcut : Cut packets [w].flatten [w] [] :=
      Cut.of_flatten [w] (fun v hv => by rw [List.mem_singleton.1 hv]; exact h.frame)
    rw [List.flatten_singleton] at hcut
    exact ⟨hcut, head_nil⟩
  have hon : onRecv handle w = some ([w].map (fun p => handle p p.length), [w].flatten.length) :=
    onRecvLoop_eq_map handle w _ 0 [w] _ (onRecvLoop_of_done w hdone)
      (fun p hp rest => by rw [List.mem_singleton.1 hp]; exact h.handled rest)
  rw [List.flatten_singleton] at hon
  exact hon

theorem long_chat_crashes : longChat.KeepsChat ∧
    onRecv (handlePacket (ClientPacketHandler.init longChat)) (packetOf PKT_C_CHAT (longBytes 0x0a)) =
      some ([.called (.Handle_C_CHAT ⟨longMsg⟩)], 6001) ∧
    ¬ ∃ (s' : BufferState Two) (sendBuffer : Nat),
      ClientPacketHandler.handle_C_CHAT longChat .one bufferState₀ ⟨longMsg⟩ = some (s', sendBuffer) ∧
        s'.crashed = false := by
  have hkeeps : longChat.KeepsChat := keepsChat_onlyMessage longMsg (longBytes 0x0a) (longBytes 0x12) rfl rfl
    (by rw [length_longBytes, length_longBytes])
  have hsize : longChat.C_CHAT.byteSizeLong ⟨longMsg⟩ = 5997 := length_longBytes 0x0a
  have hfit : (longBytes 0x0a).length ≤ 65531 := by
    rw [length_longBytes]
    decide
  have hparse : ∀ rest, longChat.C_CHAT.parseFromArray (longBytes 0x0a ++ rest) (longBytes 0x0a).length =
      some ⟨longMsg⟩ := onlyMessage_parses _ _
  have hhandled : ∀ rest, handlePacket (ClientPacketHandler.init longChat)
      (packetOf PKT_C_CHAT (longBytes 0x0a) ++ rest) (packetOf PKT_C_CHAT (longBytes 0x0a)).length =
        .called (.Handle_C_CHAT ⟨longMsg⟩) :=
    handlePacket_packetOf rfl (by decide) hfit hparse
  have hself := hhandled []
  rw [List.append_nil] at hself
  have hsep : Separate (handlePacket (ClientPacketHandler.init longChat)) (packetOf PKT_C_CHAT (longBytes 0x0a)) :=
    ⟨head_packetOf hfit (by decide), fun rest => (hhandled rest).trans hself.symm⟩
  have hone := onRecv_single hsep
  rw [hself, length_packetOf, length_longBytes] at hone
  refine ⟨hkeeps, hone, ?_⟩
  have hnone : ClientPacketHandler.handle_C_CHAT longChat Two.one bufferState₀ ⟨longMsg⟩ = none :=
    handle_C_CHAT_too_long hkeeps (ready₀ Two.one) (by rw [hsize]; decide) (by rw [hsize]; decide)
  rintro ⟨s', sendBuffer, hmake, -⟩
  rw [hnone] at hmake
  cases hmake

end Geon
