import GeonServer.ChatLimit
/-!
# MakeSendBuffer — the sizes of a packet that is made

`MakeSendBuffer` narrows `ByteSizeLong()` to 16 bits, adds the header and narrows again, and asks for that many bytes.
A message whose size wraps around is stopped by `SerializeToArray`, unless the sum wraps around too: then the send
buffer is shorter than the header that is stored into it (`making_sizesOk_iff`).

`makingSendBuffer` is `makeSendBuffer` with what is stored and how it ends (`makeSendBuffer_eq_making`).
-/
namespace Geon

open Lts Function

variable {Tid : Type} [DecidableEq Tid] {s s' : BufferState Tid}

/-! ## `Open`, however it ends -/

/-- What comes of `SendBufferManager::Open`.  `running`: the thread is not where it can call it, or the fuel has run
out. -/
inductive OpenEnd (Tid : Type)
  | assertion
  | null
  | running
  | opened (s : BufferState Tid) (b : SendBuffer Tid)

/-- Thread `t` takes its next steps until it is out of the code or an assertion has failed. -/
def runToEnd (t : Tid) : Nat → BufferState Tid → BufferState Tid
  | 0, s => s
  | fuel + 1, s =>
    if s.crashed = true ∨ (s.threads t).pc = .idle then s
    else match s.next t with
      | none => s
      | some s' => runToEnd t fuel s'

/-- `SendBufferManager::Open` called by thread `t`.  It takes nine steps at most. -/
def openEnd (s : BufferState Tid) (t : Tid) (size : Nat) : OpenEnd Tid :=
  match bufferStep s (.openCall t size) with
  | none => .running
  | some s₁ =>
    let s₂ := runToEnd t 9 s₁
    if s₂.crashed = true then .assertion
    else if (s₂.threads t).pc ≠ .idle then .running
    else match s₂.buffers[s.buffers.length]? with
      | none => .null
      | some b => .opened s₂ b

/-- How many steps of the thread there are before it is out of the code, at most. -/
def BufferPc.rank : BufferPc → Nat
  | .idle => 0
  | .reset _ true | .recycle _ none => 1
  | .recycle _ (some (_, true)) | .release _ none => 2
  | .release _ (some (_, true)) => 3
  | .pop _ true => 4
  | .reset _ false => 5
  | .recycle _ (some (_, false)) => 6
  | .release _ (some (_, false)) => 7
  | .pop _ false => 8

theorem rank_le (pc : BufferPc) : pc.rank ≤ 8 := by
  unfold BufferPc.rank
  split <;> decide

theorem rank_openStep {t : Tid} {c size : Nat} {second : Bool} (h : BufferState.OpenStep s t c size second s')
    (hrun : s'.crashed = false) : ((s'.threads t).pc).rank < (BufferPc.reset size second).rank := by
  cases h with
  | crash _ => cases hrun
  | popAgain hfirst _ _ => simp [hfirst, BufferState.goto, BufferPc.rank]
  | refused _ _ _ | opened _ _ => cases second <;> simp [BufferState.goto, BufferPc.rank]

theorem next_rank {t : Tid} (he : s.next t = some s') (hrun : s'.crashed = false) :
    ((s'.threads t).pc).rank < ((s.threads t).pc).rank := by
  have hafter : ∀ size second, (BufferState.afterAssign size second (s.threads t).chunk).rank <
      (BufferPc.pop size second).rank := fun size second => by
    cases (s.threads t).chunk <;> cases second <;> simp [BufferState.afterAssign, BufferPc.rank]
  cases BufferState.next_effect he with
  | pop hpc _ | make hpc _ =>
    rw [hpc]
    simpa only [BufferState.assign, update_self] using hafter _ _
  | @release _ after hpc =>
    simp only [hpc, BufferState.goto, update_self]
    obtain _ | ⟨size, _ | _⟩ := after <;> split <;> simp [BufferState.afterRelease, BufferPc.rank]
  | @recycle _ after hpc =>
    simp only [hpc, BufferState.goto, update_self]
    obtain _ | ⟨size, _ | _⟩ := after <;> simp [BufferState.afterRelease, BufferPc.rank]
  | reset hpc _ hopen =>
    rw [hpc]
    exact rank_openStep hopen hrun

theorem Runs.le_rank {t : Tid} {n : Nat} (h : Runs t n s s') : n ≤ ((s.threads t).pc).rank + 1 := by
  induction h with
  | refl => exact Nat.zero_le _
  | @next n s s₁ s' hrun hpc he hruns ih =>
    by_cases hcr : s₁.crashed = false
    · have := next_rank he hcr
      omega
    · cases hruns with
      | refl => omega
      | next hrun₁ _ _ _ => exact absurd hrun₁ hcr

theorem Runs.runToEnd_eq {t : Tid} {n : Nat} (h : Runs t n s s')
    (hend : s'.crashed = true ∨ (s'.threads t).pc = .idle) : ∀ m, n ≤ m → runToEnd t m s = s' := by
  induction h with
  | refl =>
    intro m hm
    cases m with
    | zero => rfl
    | succ m => rw [runToEnd, if_pos hend]
  | next hrun hpc he _ ih =>
    intro m hm
    obtain ⟨m, rfl⟩ : ∃ k, m = k + 1 := ⟨m - 1, by omega⟩
    rw [runToEnd, if_neg (by simp [hrun, hpc]), he]
    exact ih hend m (by omega)

theorem runToEnd_of_runThread {t : Tid} : ∀ (n m : Nat) (s s' : BufferState Tid), n ≤ m → runThread t n s = some s' →
    runToEnd t m s = s'
  | 0, _, _, _, _, h => by cases h
  | n + 1, m, s, s', hm, h => by
    obtain ⟨m, rfl⟩ : ∃ k, m = k + 1 := ⟨m - 1, by omega⟩
    rw [runThread] at h
    split at h
    · rename_i hidle
      cases h
      rw [runToEnd, if_pos (.inr hidle)]
    · rename_i hpc
      obtain ⟨s₁, he, h⟩ := Option.bind_eq_some_iff.1 h
      have hrun : s.crashed = false := by
        rw [← Bool.not_eq_true]
        intro hcr
        simp [bufferStep, hcr] at he
      rw [bufferStep_next hrun] at he
      rw [runToEnd, if_neg (by simp [hrun, hpc]), he]
      exact runToEnd_of_runThread n m s₁ s' (by omega) h

/-- Thread `t` has been given send buffer `b`, the one with number `i`, and its chunk is open for it. -/
structure Given (s : BufferState Tid) (t : Tid) (i size : Nat) (b : SendBuffer Tid) : Prop where
  running : s.crashed = false
  idle : (s.threads t).pc = .idle
  made : s.buffers[i]? = some b
  live : b.refs ≠ 0
  allocSize : b.allocSize = size
  isOpen : (s.chunks b.owner).isOpen = true

theorem openEnd_given {t : Tid} {size : Nat} (h : Ready s t) (hsize : size ≤ SEND_BUFFER_CHUNK_SIZE) :
    ∃ s₁ b, openSendBuffer s t size = some (s₁, s.buffers.length) ∧ openEnd s t size = .opened s₁ b ∧
      Given s₁ t s.buffers.length size b := by
  obtain ⟨s₁, c, hopened, hat⟩ := openSendBuffer_atOpen h hsize
  obtain ⟨hrun, hidle, -⟩ := hat.opened
  have hmade : (s₁.chunkOpen t c size).buffers = s.buffers ++ [SendBuffer.new t c (s₁.chunks c).usedSize size] := by
    rw [chunkOpen_eq t hat.shut hat.fits, ← hat.buffers]
    rfl
  refine ⟨_, _, hopened, ?_, hrun, hidle, by rw [hmade, List.getElem?_concat_length], Nat.one_ne_zero, rfl, ?_⟩
  · simp only [openSendBuffer, Option.bind_eq_bind, Option.bind_eq_some_iff] at hopened
    obtain ⟨s₀, he, s₂, hthread, hlen⟩ := hopened
    split at hlen <;> cases hlen
    simp [openEnd, he, runToEnd_of_runThread 5 9 s₀ _ (by decide) hthread, hrun, hidle, hmade]
  · rw [chunkOpen_eq t hat.shut hat.fits]
    simp [BufferState.goto, SendBuffer.new]

theorem openEnd_too_long {t : Tid} {size : Nat} (h : Ready s t) (hsize : SEND_BUFFER_CHUNK_SIZE < size) :
    openEnd s t size = .assertion := by
  obtain ⟨s₁, he, n, s', hruns, hcr, -⟩ := open_crashes h hsize
  have hn := hruns.le_rank
  have hle := rank_le (s₁.threads t).pc
  simp [openEnd, he, hruns.runToEnd_eq (.inl hcr) 9 (by omega), hcr]

/-- **With the chunk of the thread open, the first assertion of `Open` fails.** -/
theorem openEnd_open {t : Tid} {c : Nat} (size : Nat) (hrun : s.crashed = false) (hidle : (s.threads t).pc = .idle)
    (hc : (s.threads t).chunk = some c) (hopen : (s.chunks c).isOpen = true) : openEnd s t size = .assertion := by
  have he : bufferStep s (.openCall t size) = some s.crash := by
    simp [bufferStep, hrun, hidle, hc, BufferState.managerOpen, hopen]
  have hend : runToEnd t 9 s.crash = s.crash := by
    rw [runToEnd, if_pos (.inl rfl)]
  simp only [openEnd, he, hend]
  exact if_pos rfl

theorem openEnd_running {t : Tid} (size : Nat) (h : s.crashed = true ∨ (s.threads t).pc ≠ .idle) :
    openEnd s t size = .running := by
  have he : bufferStep s (.openCall t size) = none := by
    unfold bufferStep
    split
    · rfl
    · rename_i hrun
      dsimp only
      split
      · exact absurd ‹_› (h.resolve_left hrun)
      · exact absurd ‹_› (h.resolve_left hrun)
      · rfl
  simp only [openEnd, he]

/-- Without a thread that is ready no send buffer is opened. -/
theorem openEnd_of_not_ready {t : Tid} (size : Nat) (h : ¬ Ready s t) :
    openEnd s t size = .assertion ∨ openEnd s t size = .running := by
  by_cases hout : s.crashed = true ∨ (s.threads t).pc ≠ .idle
  · exact .inr (openEnd_running size hout)
  · rw [not_or, Bool.not_eq_true, not_not] at hout
    obtain ⟨hrun, hidle⟩ := hout
    have hc : ∃ c, (s.threads t).chunk = some c ∧ (s.chunks c).isOpen = true := by
      by_contra hn
      exact h ⟨hrun, hidle, fun c hc => Bool.not_eq_true _ ▸ fun ho => hn ⟨c, hc, ho⟩⟩
    obtain ⟨c, hc, hopen⟩ := hc
    exact .inl (openEnd_open size hrun hidle hc hopen)

/-! ## `MakeSendBuffer`, however it ends -/

inductive MakeEnd
  | assertion
  /-- `Buffer()` is called on a `nullptr`. -/
  | nullPointer
  | running
  | returned
  deriving DecidableEq, Repr

/-- A call of `MakeSendBuffer`: the send buffer it opened, what it stored and where behind `Buffer()`, what is in memory
then, and how it ends. -/
structure Making (Tid : Type) where
  state : BufferState Tid
  sendBuffer : Option (SendBuffer Tid)
  stores : List (Nat × List BYTE)
  ending : MakeEnd

/-- `makeSendBuffer` with what it stores and how it ends. -/
def makingSendBuffer {α : Type} (M : Message α) (pkt : α) (pktId : Nat) (t : Tid) (s : BufferState Tid) : Making Tid :=
  let dataSize := toUInt16 (M.byteSizeLong pkt)
  let packetSize := toUInt16 (dataSize + sizeofPacketHeader)
  match openEnd s t packetSize with
  | .assertion => ⟨s, none, [], .assertion⟩
  | .null => ⟨s, none, [], .nullPointer⟩
  | .running => ⟨s, none, [], .running⟩
  | .opened s₁ b =>
    let header := PacketHeader.bytes ⟨packetSize, pktId⟩
    let s₂ := s₁.stored b 0 header
    match M.serializeToArray pkt dataSize with
    | none => ⟨s₂, some b, [(0, header)], .assertion⟩
    | some bytes =>
      let s₃ := s₂.stored b sizeofPacketHeader bytes
      match bufferStep s₃ (.close t s.buffers.length packetSize) with
      | none => ⟨s₃, some b, [(0, header), (sizeofPacketHeader, bytes)], .running⟩
      | some s₄ => ⟨s₄, some b, [(0, header), (sizeofPacketHeader, bytes)],
          if s₄.crashed = true then .assertion else .returned⟩

theorem making_of_assertion {α : Type} {M : Message α} {pkt : α} {t : Tid}
    (h : openEnd s t (toUInt16 (toUInt16 (M.byteSizeLong pkt) + sizeofPacketHeader)) = .assertion) (pktId : Nat) :
    makingSendBuffer M pkt pktId t s = ⟨s, none, [], .assertion⟩ := by
  simp only [makingSendBuffer, h]

/-- The state in which the send buffer has been closed. -/
def BufferState.closed (s : BufferState Tid) (b : SendBuffer Tid) (i n : Nat) : BufferState Tid :=
  { s with
    chunks := update s.chunks b.owner
      { s.chunks b.owner with isOpen := false, usedSize := (s.chunks b.owner).usedSize + n },
    buffers := s.buffers.set i { b with writeSize := n, closed := true } }

/-- **The call once a send buffer is given**: it returns what it is to return, and ends at the assertion about
`SerializeToArray` or not at all. -/
theorem making_of_given {α : Type} {M : Message α} {pkt : α} {t : Tid} {b : SendBuffer Tid} {dataSize packetSize : Nat}
    (hdata : dataSize = toUInt16 (M.byteSizeLong pkt))
    (hpacket : packetSize = toUInt16 (dataSize + sizeofPacketHeader))
    (hopened : openSendBuffer s t packetSize = some (s', s.buffers.length))
    (hend : openEnd s t packetSize = .opened s' b) (h : Given s' t s.buffers.length packetSize b) (pktId : Nat) :
    let header := PacketHeader.bytes ⟨packetSize, pktId⟩
    (M.serializeToArray pkt dataSize = none →
      makeSendBuffer M pkt pktId t s = none ∧
      makingSendBuffer M pkt pktId t s = ⟨s'.stored b 0 header, some b, [(0, header)], .assertion⟩) ∧
    ∀ bytes, M.serializeToArray pkt dataSize = some bytes → ∃ s₄,
      s₄ = ((s'.stored b 0 header).stored b sizeofPacketHeader bytes).closed b s.buffers.length packetSize ∧
      makeSendBuffer M pkt pktId t s = some (s₄, s.buffers.length) ∧
      makingSendBuffer M pkt pktId t s =
        ⟨s₄, some b, [(0, header), (sizeofPacketHeader, bytes)], .returned⟩ := by
  obtain ⟨hrun, hidle, hi, hr, halloc, hopen⟩ := h
  intro header
  have h₂ : bufferStep s' (.write t s.buffers.length 0 header) = some (s'.stored b 0 header) :=
    bufferStep_write s' 0 header hrun hidle hi hr
  refine ⟨fun hser => ?_, fun bytes hser => ⟨_, rfl, ?_⟩⟩
  · simp only [makeSendBuffer, makingSendBuffer, ← hdata, ← hpacket, hopened, hend, hser, Option.bind_eq_bind,
      Option.bind_some]
    rw [h₂]
    exact ⟨rfl, rfl⟩
  · have h₃ := bufferStep_write (s'.stored b 0 header) sizeofPacketHeader bytes hrun hidle hi hr
    have h₄ := bufferStep_close (s := (s'.stored b 0 header).stored b sizeofPacketHeader bytes) hrun hidle hi hr
      (Nat.le_of_eq halloc.symm) (by simpa [BufferState.stored] using hopen)
    simp only [makeSendBuffer, makingSendBuffer, ← hdata, ← hpacket, hopened, hend, hser, Option.bind_eq_bind,
      Option.bind_some]
    rw [h₂, h₄]
    simp only [Option.bind_some, h₃, h₄]
    have hcr : ((s'.stored b 0 header).stored b sizeofPacketHeader bytes).crashed = false := hrun
    refine ⟨rfl, ?_⟩
    rw [if_neg (by simp [hcr])]
    rfl

/-- **`makeSendBuffer` is the call that returns.** -/
theorem makeSendBuffer_eq_making {α : Type} (M : Message α) (pkt : α) (pktId : Nat) (t : Tid) (s : BufferState Tid) :
    makeSendBuffer M pkt pktId t s =
      if (makingSendBuffer M pkt pktId t s).ending = .returned
      then some ((makingSendBuffer M pkt pktId t s).state, s.buffers.length) else none := by
  obtain ⟨packetSize, hpacket⟩ :
      ∃ n, n = toUInt16 (toUInt16 (M.byteSizeLong pkt) + sizeofPacketHeader) := ⟨_, rfl⟩
  by_cases hr : Ready s t
  · by_cases hsize : packetSize ≤ SEND_BUFFER_CHUNK_SIZE
    · obtain ⟨s', b, hopened, hend, hgiven⟩ := openEnd_given hr hsize
      obtain ⟨hfails, hstores⟩ := making_of_given rfl hpacket hopened hend hgiven pktId
      cases hser : M.serializeToArray pkt (toUInt16 (M.byteSizeLong pkt)) with
      | none =>
        obtain ⟨hmake, hmaking⟩ := hfails hser
        rw [hmake, hmaking, if_neg (by simp)]
      | some bytes =>
        obtain ⟨s₄, -, hmake, hmaking⟩ := hstores bytes hser
        rw [hmake, hmaking, if_pos rfl]
    · have hlong := Nat.not_le.1 hsize
      rw [making_of_assertion (by rw [← hpacket]; exact openEnd_too_long hr hlong), if_neg (by simp)]
      simp only [makeSendBuffer, ← hpacket, openSendBuffer_too_long hr hlong]
      rfl
  · have hnone : makeSendBuffer M pkt pktId t s = none := by
      rw [Option.eq_none_iff_forall_not_mem]
      exact fun r hmake => hr (ready_of_makeSendBuffer (i := r.2) hmake)
    rw [hnone]
    obtain hend | hend := openEnd_of_not_ready packetSize hr <;>
      · rw [hpacket] at hend
        simp [makingSendBuffer, hend]

/-! ## The sizes -/

/-- All that is stored lies in the send buffer that was opened. -/
def Making.Inside (m : Making Tid) : Prop :=
  ∀ w ∈ m.stores, ∃ b ∈ m.sendBuffer, w.1 + w.2.length ≤ b.allocSize

/-- `header->size`, read through `Buffer()`. -/
def BufferState.headerSize (s : BufferState Tid) (b : SendBuffer Tid) : Nat :=
  uint16 ((s.chunks b.owner).buffer b.buffer) ((s.chunks b.owner).buffer (b.buffer + 1))

/-- **The sizes are right** for a message of `n` bytes: nothing is stored outside the send buffer, and if no assertion
stops the call it returns a send buffer of `n + 4` bytes whose header says so. -/
def Making.SizesOk (m : Making Tid) (n : Nat) : Prop :=
  m.Inside ∧ (m.ending = .assertion ∨
    m.ending = .returned ∧ ∃ b ∈ m.sendBuffer, b.allocSize = n + sizeofPacketHeader ∧
      m.state.headerSize b = n + sizeofPacketHeader)

/-- What protobuf promises for a message: `SerializeToArray` stores `ByteSizeLong` bytes when it is given room for just
so many, and returns false when it is given less. -/
def Message.Serializes {α : Type} (M : Message α) (pkt : α) : Prop :=
  (∃ bytes : List BYTE, bytes.length = M.byteSizeLong pkt ∧
    M.serializeToArray pkt (M.byteSizeLong pkt) = some bytes) ∧
  ∀ size : Int, size < M.byteSizeLong pkt → M.serializeToArray pkt size = none

omit [DecidableEq Tid] in
/-- What is stored behind the header does not change its size. -/
theorem headerSize_closed (b : SendBuffer Tid) {size : Nat} (hsize : size < 65536) (pktId i n : Nat)
    (bytes : List BYTE) :
    (((s.stored b 0 (PacketHeader.bytes ⟨size, pktId⟩)).stored b sizeofPacketHeader bytes).closed b i n).headerSize b =
      size := by
  have hlo : b.buffer < b.buffer + sizeofPacketHeader := by rw [sizeofPacketHeader]; omega
  have hhi : b.buffer + 1 < b.buffer + sizeofPacketHeader := by rw [sizeofPacketHeader]; omega
  simp only [BufferState.headerSize, BufferState.closed, BufferState.stored, update_self, Nat.add_zero]
  rw [storeAt_of_not_mem (.inl hlo), storeAt_of_not_mem (.inl hhi)]
  have h0 := storeAt_add (s.chunks b.owner).buffer b.buffer (PacketHeader.bytes ⟨size, pktId⟩)
    (show 0 < _ by rw [length_headerBytes]; decide)
  have h1 := storeAt_add (s.chunks b.owner).buffer b.buffer (PacketHeader.bytes ⟨size, pktId⟩)
    (show 1 < _ by rw [length_headerBytes]; decide)
  rw [Nat.add_zero] at h0
  rw [h0, h1]
  exact uint16_bytes hsize

omit [DecidableEq Tid] in
theorem sizesOk_of_assertion (s : BufferState Tid) (n : Nat) : Making.SizesOk ⟨s, none, [], .assertion⟩ n := by
  refine ⟨fun w hw => ?_, .inl rfl⟩
  cases hw

variable {α : Type} {M : Message α} {pkt : α}

/-- **The header fits**: what is stored is inside, and `SerializeToArray` stops a message that has been cut off. -/
theorem sizesOk_of_fits (hser : M.Serializes pkt) {t : Tid} (hr : Ready s t)
    (hwrap : M.byteSizeLong pkt % 65536 < 65532) (pktId : Nat) :
    (makingSendBuffer M pkt pktId t s).SizesOk (M.byteSizeLong pkt) := by
  obtain ⟨⟨bytes, hlen, hwhole⟩, hless⟩ := hser
  have hpacket : M.byteSizeLong pkt % 65536 + 4 = toUInt16 (toUInt16 (M.byteSizeLong pkt) + sizeofPacketHeader) := by
    simp only [toUInt16, sizeofPacketHeader]
    omega
  by_cases hsize : M.byteSizeLong pkt % 65536 + 4 ≤ SEND_BUFFER_CHUNK_SIZE
  · obtain ⟨s', b, hopened, hend, hgiven⟩ := openEnd_given hr hsize
    obtain ⟨hfails, hstores⟩ := making_of_given rfl hpacket hopened hend hgiven pktId
    by_cases hcut : M.byteSizeLong pkt < 65536
    · have hdata : toUInt16 (M.byteSizeLong pkt) = M.byteSizeLong pkt := Nat.mod_eq_of_lt hcut
      have hmod : M.byteSizeLong pkt % 65536 = M.byteSizeLong pkt := Nat.mod_eq_of_lt hcut
      rw [hmod] at hgiven hwrap hstores
      obtain ⟨s₄, rfl, -, hmaking⟩ := hstores bytes (by rw [hdata]; exact hwhole)
      rw [hmaking]
      refine ⟨fun w hw => ⟨b, rfl, ?_⟩, .inr ⟨rfl, b, rfl, hgiven.allocSize, headerSize_closed b (by omega) ..⟩⟩
      rw [hgiven.allocSize]
      simp only [List.mem_cons, List.not_mem_nil, or_false] at hw
      obtain rfl | rfl := hw
      · simp only [length_headerBytes]
        omega
      · simp only [sizeofPacketHeader, hlen]
        omega
    · have hdata : (toUInt16 (M.byteSizeLong pkt) : Int) < M.byteSizeLong pkt := by
        simp only [toUInt16]
        omega
      obtain ⟨-, hmaking⟩ := hfails (hless _ hdata)
      rw [hmaking]
      refine ⟨fun w hw => ⟨b, rfl, ?_⟩, .inl rfl⟩
      rw [List.mem_singleton] at hw
      subst hw
      rw [hgiven.allocSize, length_headerBytes]
      omega
  · rw [making_of_assertion (by rw [← hpacket]; exact openEnd_too_long hr (Nat.not_le.1 hsize))]
    exact sizesOk_of_assertion s _

/-- **The header does not fit**: the size with the header has wrapped around, and the header is stored into a send
buffer of three bytes at most. -/
theorem not_sizesOk_of_wrap {t : Tid} (hr : Ready s t) (hwrap : 65532 ≤ M.byteSizeLong pkt % 65536) (pktId : Nat) :
    ¬ (makingSendBuffer M pkt pktId t s).Inside := by
  obtain ⟨packetSize, hpacket⟩ :
      ∃ n, n = toUInt16 (toUInt16 (M.byteSizeLong pkt) + sizeofPacketHeader) := ⟨_, rfl⟩
  have hsize : packetSize < 4 := by
    rw [hpacket]
    simp only [toUInt16, sizeofPacketHeader]
    omega
  have hfits : packetSize ≤ SEND_BUFFER_CHUNK_SIZE := by
    rw [SEND_BUFFER_CHUNK_SIZE]
    omega
  obtain ⟨s', b, hopened, hend, hgiven⟩ := openEnd_given hr hfits
  obtain ⟨hfails, hstores⟩ := making_of_given rfl hpacket hopened hend hgiven pktId
  intro hin
  have hheader : (0, PacketHeader.bytes ⟨packetSize, pktId⟩) ∈ (makingSendBuffer M pkt pktId t s).stores ∧
      (makingSendBuffer M pkt pktId t s).sendBuffer = some b := by
    cases hser : M.serializeToArray pkt (toUInt16 (M.byteSizeLong pkt)) with
    | none =>
      rw [(hfails hser).2]
      exact ⟨List.mem_cons_self, rfl⟩
    | some bytes =>
      obtain ⟨s₄, -, -, hmaking⟩ := hstores bytes hser
      rw [hmaking]
      exact ⟨List.mem_cons_self, rfl⟩
  obtain ⟨b', hb', hle⟩ := hin _ hheader.1
  rw [hheader.2] at hb'
  cases hb'
  rw [hgiven.allocSize, length_headerBytes] at hle
  omega

/-- **The sizes of a packet are right exactly when the header does not wrap around**, or the thread has its chunk open
and the first assertion of `Open` stops it. -/
theorem making_sizesOk_iff (hser : M.Serializes pkt) (pktId : Nat) {t : Tid} (hrun : s.crashed = false)
    (hidle : (s.threads t).pc = .idle) :
    (makingSendBuffer M pkt pktId t s).SizesOk (M.byteSizeLong pkt) ↔
      M.byteSizeLong pkt % 65536 < 65532 ∨ ∃ c, (s.threads t).chunk = some c ∧ (s.chunks c).isOpen = true := by
  by_cases hopen : ∃ c, (s.threads t).chunk = some c ∧ (s.chunks c).isOpen = true
  · obtain ⟨c, hc, ho⟩ := hopen
    rw [making_of_assertion (openEnd_open _ hrun hidle hc ho)]
    exact ⟨fun _ => .inr ⟨c, hc, ho⟩, fun _ => sizesOk_of_assertion s _⟩
  · have hr : Ready s t := ⟨hrun, hidle, fun c hc => Bool.not_eq_true _ ▸ fun ho => hopen ⟨c, hc, ho⟩⟩
    rw [or_iff_left hopen]
    by_cases hwrap : M.byteSizeLong pkt % 65536 < 65532
    · exact ⟨fun _ => hwrap, fun _ => sizesOk_of_fits hser hr hwrap pktId⟩
    · exact ⟨fun h => absurd h.1 (not_sizesOk_of_wrap hr (Nat.not_lt.1 hwrap) pktId), fun h => absurd h hwrap⟩

theorem serializes_onlyMessage [DecidableEq α] (pkt : α) (bytes : List BYTE) :
    (onlyMessage pkt bytes).Serializes pkt := by
  refine ⟨⟨bytes, rfl, if_pos (Int.le_refl _)⟩, fun size hsize => ?_⟩
  exact if_neg (Int.not_le.2 hsize)

theorem making_sizesOk_iff_hi :
    (makingSendBuffer (onlyMessage (⟨0, [0x48, 0x69]⟩ : Protocol.S_CHAT) [0x12, 2, 0x48, 0x69]) ⟨0, [0x48, 0x69]⟩
      PKT_S_CHAT Two.one bufferState₀).SizesOk 4 :=
  (making_sizesOk_iff (serializes_onlyMessage _ _) PKT_S_CHAT rfl rfl).2 (.inl (by decide))

/-- A chat message whose size with the header is 65536. -/
def wrappingMsg : List BYTE := List.replicate 65528 0x41

def wrappingBytes : List BYTE := [0x12, 0xf8, 0xff, 0x03] ++ wrappingMsg

theorem length_wrappingBytes : wrappingBytes.length = 65532 := by
  rw [wrappingBytes, wrappingMsg, List.length_append, List.length_replicate]
  rfl

/-- `MakeSendBuffer` asks for no byte at all for a chat message of 65528 letters, and stores it behind the end. -/
theorem wrapping_chat_outside :
    (onlyMessage (⟨0, wrappingMsg⟩ : Protocol.S_CHAT) wrappingBytes).Serializes ⟨0, wrappingMsg⟩ ∧
    ¬ (makingSendBuffer (onlyMessage (⟨0, wrappingMsg⟩ : Protocol.S_CHAT) wrappingBytes) ⟨0, wrappingMsg⟩ PKT_S_CHAT
      Two.one bufferState₀).SizesOk 65532 := by
  refine ⟨serializes_onlyMessage _ _, fun h => ?_⟩
  have hsize : (onlyMessage (⟨0, wrappingMsg⟩ : Protocol.S_CHAT) wrappingBytes).byteSizeLong ⟨0, wrappingMsg⟩ = 65532 :=
    length_wrappingBytes
  exact not_sizesOk_of_wrap (ready₀ Two.one) (by rw [hsize]) PKT_S_CHAT h.1

end Geon
