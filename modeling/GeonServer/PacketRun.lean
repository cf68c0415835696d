import GeonServer.Packet
import GeonServer.SendBufferBytes
/-!
# PacketRun — what `MakeSendBuffer` leaves behind

A thread with no send buffer open gets one from `SendBufferManager::Open` whenever it asks for no more than a chunk
(`openSendBuffer_spec`), so `MakeSendBuffer` returns, and the buffer it returns holds the packet
(`makeSendBuffer_spec`).  What was made before keeps its bytes (`closed_bytes_kept_run`).
-/
namespace Geon

open Lts Function

variable {Tid : Type} [DecidableEq Tid] {s s' s₀ : BufferState Tid}

/-! ## `Open` -/

/-- The thread is out of the code and has no send buffer open. -/
structure Ready (s : BufferState Tid) (t : Tid) : Prop where
  running : s.crashed = false
  idle : (s.threads t).pc = .idle
  closed : ∀ c, (s.threads t).chunk = some c → (s.chunks c).isOpen = false

/-- Thread `t` has been given a new send buffer, the last one. -/
structure Opened (s s' : BufferState Tid) (t : Tid) (size : Nat) : Prop where
  running : s'.crashed = false
  idle : (s'.threads t).pc = .idle
  made : ∃ c offset, (s'.threads t).chunk = some c ∧
    s'.buffers = s.buffers ++ [SendBuffer.new t c offset size]

theorem chunkOpen_eq (t : Tid) {c size : Nat} (hopen : (s.chunks c).isOpen = false)
    (hfree : size ≤ (s.chunks c).freeSize) : s.chunkOpen t c size = BufferState.goto { s with
      chunks := update s.chunks c { s.chunks c with isOpen := true, useCount := (s.chunks c).useCount + 1 },
      buffers := s.buffers ++ [SendBuffer.new t c (s.chunks c).usedSize size] } t .idle := by
  have hsize : size ≤ SEND_BUFFER_CHUNK_SIZE := Nat.le_trans hfree (Nat.sub_le _ _)
  simp [BufferState.chunkOpen, hsize, hopen, Nat.not_lt.2 hfree]

theorem chunkOpen_opened (hrun : s.crashed = false) {t : Tid} {c size : Nat} (hc : (s.threads t).chunk = some c)
    (hopen : (s.chunks c).isOpen = false) (hfree : size ≤ (s.chunks c).freeSize) :
    Opened s (s.chunkOpen t c size) t size := by
  rw [chunkOpen_eq t hopen hfree]
  exact ⟨hrun, by simp [BufferState.goto], c, _, by simpa [BufferState.goto] using hc, rfl⟩

theorem managerOpen_eq_chunkOpen {c size : Nat} (hopen : (s.chunks c).isOpen = false)
    (hfree : size ≤ (s.chunks c).freeSize) (t : Tid) : s.managerOpen t c size = s.chunkOpen t c size := by
  rw [BufferState.managerOpen, if_neg (by simp [hopen]), if_neg (Nat.not_lt.2 hfree)]

/-- The thread is inside `Open`, asked for `size` bytes, and takes `n` more steps at most before it returns. -/
def BufferPc.opens (size : Nat) : BufferPc → Nat → Prop
  | .pop size' _, n => size' = size ∧ 4 ≤ n
  | .release _ (some (size', _)), n => size' = size ∧ 3 ≤ n
  | .recycle _ (some (size', _)), n => size' = size ∧ 2 ≤ n
  | .reset size' _, n => size' = size ∧ 1 ≤ n
  | _, _ => False

def BufferThread.assigned (th : BufferThread) : Prop := (∃ size second, th.pc = .pop size second) ∨ th.chunk.isSome

theorem bufferStep_next (hrun : s.crashed = false) (t : Tid) : bufferStep s (.next t) = s.next t := by
  simp [bufferStep, hrun]

theorem runThread_succ {t : Tid} (n : Nat) (hrun : s.crashed = false) (hpc : (s.threads t).pc ≠ .idle)
    (he : s.next t = some s') : runThread t (n + 1) s = runThread t n s' := by
  rw [runThread, if_neg hpc, bufferStep_next hrun, he, Option.bind_some]

theorem runThread_idle {t : Tid} (n : Nat) (hpc : (s.threads t).pc = .idle) : runThread t (n + 1) s = some s := by
  rw [runThread, if_pos hpc]

/-- Thread `t` takes `n` steps inside the code. -/
inductive Runs (t : Tid) : Nat → BufferState Tid → BufferState Tid → Prop
  | refl {s : BufferState Tid} : Runs t 0 s s
  | next {n : Nat} {s s₁ s' : BufferState Tid} : s.crashed = false → (s.threads t).pc ≠ .idle → s.next t = some s₁ →
      Runs t n s₁ s' → Runs t (n + 1) s s'

theorem Runs.runThread_eq {t : Tid} {n : Nat} (h : Runs t n s s') (m : Nat) :
    runThread t (m + n) s = runThread t m s' := by
  induction h with
  | refl => rfl
  | next hrun hpc he _ ih =>
    rw [← Nat.add_assoc, runThread_succ _ hrun hpc he]
    exact ih

/-- Which `Pop` of this `Open` it is. -/
def BufferPc.isSecond : BufferPc → Bool
  | .pop _ second | .release _ (some (_, second)) | .recycle _ (some (_, second)) | .reset _ second => second
  | _ => false

/-- Thread `t` is inside `Open`, and has a chunk unless it is about to pop one. -/
structure Opens (s : BufferState Tid) (t : Tid) (size n : Nat) : Prop where
  running : s.crashed = false
  opens : (s.threads t).pc.opens size n
  assigned : (s.threads t).assigned

theorem BufferPc.opens_pos {size n : Nat} {pc : BufferPc} (h : pc.opens size n) : pc ≠ .idle ∧ 0 < n := by
  unfold BufferPc.opens at h
  split at h <;> first | exact ⟨by simp, by omega⟩ | cases h

omit [DecidableEq Tid] in
theorem Opens.chunk_isSome {t : Tid} {size n : Nat} (h : Opens s t size n)
    (hpop : ∀ size second, (s.threads t).pc ≠ .pop size second) : (s.threads t).chunk.isSome := by
  obtain ⟨size', second, hpc⟩ | hchunk := h.assigned
  · exact absurd hpc (hpop size' second)
  · exact hchunk

omit [DecidableEq Tid] in
theorem Opens.of_pop {t : Tid} {size : Nat} {second : Bool} (hrun : s.crashed = false)
    (hpc : (s.threads t).pc = .pop size second) : Opens s t size 4 where
  running := hrun
  opens := by
    rw [hpc]
    exact ⟨rfl, Nat.le_refl _⟩
  assigned := .inl ⟨size, second, hpc⟩

theorem Opens.next {t : Tid} {size n : Nat} (h : Opens s t size (n + 1))
    (hpc : ∀ second, (s.threads t).pc ≠ .reset size second) : ∃ s₁, s.next t = some s₁ ∧ Opens s₁ t size n ∧
      s₁.buffers = s.buffers ∧ (s₁.threads t).pc.isSecond = (s.threads t).pc.isSecond := by
  have hopens := h.opens
  have hchunk := h.chunk_isSome
  cases hp : (s.threads t).pc with
  | idle => rw [hp] at hopens; cases hopens
  | pop size' second =>
    rw [hp] at hopens
    obtain ⟨rfl, hn⟩ := hopens
    have hafter : (BufferState.afterAssign size' second (s.threads t).chunk).opens size' n ∧
        (BufferState.afterAssign size' second (s.threads t).chunk).isSecond = second := by
      cases (s.threads t).chunk <;> exact ⟨⟨rfl, by omega⟩, rfl⟩
    simp only [BufferState.next, hp]
    split <;>
      exact ⟨_, rfl, ⟨h.running, by simpa [BufferState.assign] using hafter.1, .inr (by simp [BufferState.assign])⟩,
        rfl, by simpa [BufferState.assign, BufferPc.isSecond] using hafter.2⟩
  | release c after =>
    rw [hp] at hopens hchunk
    obtain _ | ⟨size', second⟩ := after
    · cases hopens
    obtain ⟨rfl, hn⟩ := hopens
    simp only [BufferState.next, hp]
    have hsome := hchunk (fun _ _ hpop => by cases hpop)
    refine ⟨_, rfl, ⟨h.running, ?_, .inr (by simpa [BufferState.goto] using hsome)⟩, rfl, ?_⟩
    · simp only [BufferState.goto, update_self]
      split <;> exact ⟨rfl, by omega⟩
    · simp only [BufferState.goto, update_self]
      split <;> rfl
  | recycle c after =>
    rw [hp] at hopens hchunk
    obtain _ | ⟨size', second⟩ := after
    · cases hopens
    obtain ⟨rfl, hn⟩ := hopens
    simp only [BufferState.next, hp]
    have hsome := hchunk (fun _ _ hpop => by cases hpop)
    refine ⟨_, rfl, ⟨h.running, ?_, .inr (by simpa [BufferState.goto] using hsome)⟩, rfl, ?_⟩
    · simp only [BufferState.goto, update_self]
      exact ⟨rfl, by omega⟩
    · simp only [BufferState.goto, update_self]
      rfl
  | reset size' second =>
    rw [hp] at hopens
    obtain ⟨rfl, -⟩ := hopens
    exact absurd hp (hpc second)

/-- **A popped chunk is about to be reset**, after what the thread had before is released. -/
theorem runs_to_reset {t : Tid} {size : Nat} : ∀ (n : Nat) (s : BufferState Tid), Opens s t size n →
    ∃ k s' c, k < n ∧ Runs t k s s' ∧ s'.crashed = false ∧ s'.buffers = s.buffers ∧
      (s'.threads t).pc = .reset size (s.threads t).pc.isSecond ∧ (s'.threads t).chunk = some c
  | 0, _, h => absurd (BufferPc.opens_pos h.opens).2 (Nat.lt_irrefl 0)
  | n + 1, s, h => by
    by_cases hpc : ∃ second, (s.threads t).pc = .reset size second
    · obtain ⟨second, hpc⟩ := hpc
      obtain ⟨c, hc⟩ := Option.isSome_iff_exists.1 (h.chunk_isSome (fun _ _ hpop => by rw [hpc] at hpop; cases hpop))
      exact ⟨0, s, c, Nat.succ_pos n, .refl, h.running, rfl, by rw [hpc]; rfl, hc⟩
    · obtain ⟨s₁, he, h₁, hbuf, hsec⟩ := h.next (not_exists.1 hpc)
      obtain ⟨k, s', c, hk, hruns, hrun', hbuf', hreset, hc⟩ := runs_to_reset n s₁ h₁
      exact ⟨k + 1, s', c, Nat.succ_lt_succ hk, .next h.running (BufferPc.opens_pos h.opens).1 he hruns, hrun',
        hbuf'.trans hbuf, by rw [hreset, hsec], hc⟩

/-- The step of `Reset`, and what follows it in `Open`. -/
theorem next_reset {t : Tid} {size c : Nat} {second : Bool} (hpc : (s.threads t).pc = .reset size second)
    (hc : (s.threads t).chunk = some c) :
    ∃ s₁, s₁ = { s with chunks := update s.chunks c (s.chunks c).reset } ∧ (s₁.chunks c).isOpen = false ∧
      (s₁.chunks c).freeSize = SEND_BUFFER_CHUNK_SIZE ∧
      s.next t = some (if second = true then s₁.chunkOpen t c size else s₁.managerOpen t c size) := by
  refine ⟨_, rfl, ?_, ?_, ?_⟩
  · simp [SendBufferChunk.reset]
  · simp [SendBufferChunk.reset, SendBufferChunk.freeSize]
  · simp only [BufferState.next, hpc, hc]

/-- Between `s` and `s₁` no send buffer was made, and in `s₁` thread `t` has a closed chunk with room for `size`
bytes. -/
structure AtOpen (s s₁ : BufferState Tid) (t : Tid) (c size : Nat) : Prop where
  running : s₁.crashed = false
  buffers : s₁.buffers = s.buffers
  chunk : (s₁.threads t).chunk = some c
  shut : (s₁.chunks c).isOpen = false
  fits : size ≤ (s₁.chunks c).freeSize

theorem AtOpen.opened {s₁ : BufferState Tid} {t : Tid} {c size : Nat} (h : AtOpen s s₁ t c size) :
    Opened s (s₁.chunkOpen t c size) t size := by
  obtain ⟨hrun, hidle, d, offset, hd, hmade⟩ : Opened s₁ (s₁.chunkOpen t c size) t size :=
    chunkOpen_opened h.running h.chunk h.shut h.fits
  exact ⟨hrun, hidle, d, offset, hd, by rw [hmade, h.buffers]⟩

/-- **`Open` comes to its end** in `SendBufferChunk::Open`: whichever chunk was popped, it is empty after `Reset`. -/
theorem runThread_atOpen {t : Tid} {size n : Nat} (h : Opens s t size n) (hsize : size ≤ SEND_BUFFER_CHUNK_SIZE) :
    ∃ s₁ c, runThread t (n + 1) s = some (s₁.chunkOpen t c size) ∧ AtOpen s s₁ t c size := by
  obtain ⟨k, s₁, c, hk, hruns, hrun₁, hbuf, hreset, hc⟩ := runs_to_reset n s h
  obtain ⟨s₂, hs₂, hopen, hfree, he⟩ := next_reset hreset hc
  have hat : AtOpen s s₂ t c size := by
    refine ⟨?_, ?_, ?_, hopen, by rw [hfree]; exact hsize⟩
    · rw [hs₂]
      exact hrun₁
    · rw [hs₂]
      exact hbuf
    · rw [hs₂]
      exact hc
  rw [managerOpen_eq_chunkOpen hopen hat.fits, ite_self] at he
  refine ⟨s₂, c, ?_, hat⟩
  obtain ⟨m, hm⟩ : ∃ m, n + 1 = m + 1 + 1 + k := ⟨n - 1 - k, by omega⟩
  rw [hm, hruns.runThread_eq, runThread_succ _ hrun₁ (by simp [hreset]) he, runThread_idle _ hat.opened.idle]

theorem openSendBuffer_atOpen {t : Tid} {size : Nat} (h : Ready s t) (hsize : size ≤ SEND_BUFFER_CHUNK_SIZE) :
    ∃ s₁ c, openSendBuffer s t size = some (s₁.chunkOpen t c size, s.buffers.length) ∧ AtOpen s s₁ t c size := by
  obtain ⟨hrun, hidle, hclosed⟩ := h
  suffices ∃ s₀ s₁ c, bufferStep s (.openCall t size) = some s₀ ∧ runThread t 5 s₀ = some (s₁.chunkOpen t c size) ∧
      AtOpen s s₁ t c size by
    obtain ⟨s₀, s₁, c, h₀, h₁, hat⟩ := this
    obtain ⟨d, offset, -, hmade⟩ := hat.opened.made
    refine ⟨s₁, c, ?_, hat⟩
    simp [openSendBuffer, h₀, h₁, hmade]
  -- `Pop` comes first if there is no chunk, or too little is left of it
  have hpop : ∀ second, ∃ s₁ c, runThread t 5 (s.goto t (.pop size second)) = some (s₁.chunkOpen t c size) ∧
      AtOpen s s₁ t c size := by
    intro second
    have hpc : ((s.goto t (.pop size second)).threads t).pc = .pop size second := by simp [BufferState.goto]
    obtain ⟨s₁, c, hs₁, hat⟩ := runThread_atOpen (.of_pop (s := s.goto t _) hrun hpc) hsize
    exact ⟨s₁, c, hs₁, hat.running, hat.buffers, hat.chunk, hat.shut, hat.fits⟩
  cases hc : (s.threads t).chunk with
  | none =>
    obtain ⟨s₁, c, hs₁, hat⟩ := hpop false
    exact ⟨_, s₁, c, by simp [bufferStep, hrun, hidle, hc], hs₁, hat⟩
  | some c =>
    have hopen := hclosed c hc
    have he : bufferStep s (.openCall t size) = some (s.managerOpen t c size) := by
      simp [bufferStep, hrun, hidle, hc]
    by_cases hfree : (s.chunks c).freeSize < size
    · obtain ⟨s₁, d, hs₁, hat⟩ := hpop true
      refine ⟨_, s₁, d, he, ?_, hat⟩
      rw [BufferState.managerOpen, if_neg (by simp [hopen]), if_pos hfree, hs₁]
    · have hat : AtOpen s s t c size := ⟨hrun, rfl, hc, hopen, Nat.not_lt.1 hfree⟩
      refine ⟨_, s, c, he, ?_, hat⟩
      rw [managerOpen_eq_chunkOpen hopen hat.fits, runThread_idle _ hat.opened.idle]

theorem openSendBuffer_opened {t : Tid} {size : Nat} (h : Ready s t) (hsize : size ≤ SEND_BUFFER_CHUNK_SIZE) :
    ∃ s', openSendBuffer s t size = some (s', s.buffers.length) ∧ Opened s s' t size := by
  obtain ⟨s₁, c, he, hat⟩ := openSendBuffer_atOpen h hsize
  exact ⟨_, he, hat.opened⟩

theorem runThread_reach {t : Tid} : ∀ (n : Nat) (s s' : BufferState Tid), runThread t n s = some s' →
    Reach bufferStep ByOpener s₀ s → Reach bufferStep ByOpener s₀ s'
  | 0, _, _, h, _ => by cases h
  | n + 1, s, s', h, hr => by
    rw [runThread] at h
    split at h
    · cases h; exact hr
    · obtain ⟨s₁, he, h⟩ := Option.bind_eq_some_iff.1 h
      exact runThread_reach n s₁ s' h (hr.next he trivial)

theorem openSendBuffer_reach {t : Tid} {size i : Nat} (h : openSendBuffer s t size = some (s', i))
    (hr : Reach bufferStep ByOpener s₀ s) : Reach bufferStep ByOpener s₀ s' := by
  simp only [openSendBuffer, Option.bind_eq_bind, Option.bind_eq_some_iff] at h
  obtain ⟨s₁, he, s₂, hrun, h⟩ := h
  split at h <;> cases h
  exact runThread_reach 5 s₁ s' hrun (hr.next he trivial)

/-- With its chunk open a thread gets no send buffer. -/
theorem ready_of_openSendBuffer {t : Tid} {size i : Nat} (h : openSendBuffer s t size = some (s', i)) : Ready s t := by
  simp only [openSendBuffer, Option.bind_eq_bind, Option.bind_eq_some_iff] at h
  obtain ⟨s₁, he, s₂, hrun, h⟩ := h
  have hrunning : s.crashed = false := by
    rw [← Bool.not_eq_true]
    intro hcr
    simp [bufferStep, hcr] at he
  have hcrashes : s₁ = s.crash → (s.threads t).pc ≠ .idle := by
    rintro rfl hidle
    have : (s.crash.threads t).pc = .idle := hidle
    rw [runThread_idle _ this] at hrun
    cases hrun
    simp [BufferState.crash] at h
  cases bufferStep_effect he with
  | pop hidle hnone =>
    refine ⟨hrunning, hidle, fun c hc => ?_⟩
    rw [hnone] at hc
    cases hc
  | openCall hidle hchunk hstep =>
    refine ⟨hrunning, hidle, fun c hc => ?_⟩
    cases hchunk.symm.trans hc
    cases hstep with
    | crash _ => exact absurd hidle (hcrashes rfl)
    | popAgain _ hclosed _ | refused _ hclosed _ | opened hclosed _ => exact hclosed

/-! ## `MakeSendBuffer` -/

theorem storeAt_add (m : Nat → BYTE) (pos : Nat) (bytes : List BYTE) {k : Nat} (hk : k < bytes.length) :
    storeAt m pos bytes (pos + k) = bytes[k] := by
  have hin : pos ≤ pos + k ∧ pos + k - pos < bytes.length := ⟨Nat.le_add_right _ _, by omega⟩
  rw [storeAt, dif_pos hin]
  simp only [List.get_eq_getElem, Nat.add_sub_cancel_left]

theorem map_storeAt (m : Nat → BYTE) (pos : Nat) (bytes : List BYTE) :
    (List.range bytes.length).map (fun k => storeAt m pos bytes (pos + k)) = bytes := by
  refine List.ext_getElem (by simp) (fun k hk _ => ?_)
  rw [List.getElem_map, List.getElem_range]
  exact storeAt_add m pos bytes (by simpa using hk)

theorem map_storeAt_append (m : Nat → BYTE) (pos : Nat) (xs ys : List BYTE) :
    (List.range (xs.length + ys.length)).map
      (fun k => storeAt (storeAt m pos xs) (pos + xs.length) ys (pos + k)) = xs ++ ys := by
  rw [List.range_add, List.map_append, List.map_map]
  congr 1
  · conv_rhs => rw [← map_storeAt m pos xs]
    refine List.map_congr_left (fun k hk => ?_)
    rw [List.mem_range] at hk
    exact storeAt_of_not_mem (.inl (by omega))
  · conv_rhs => rw [← map_storeAt (storeAt m pos xs) (pos + xs.length) ys]
    refine List.map_congr_left (fun k _ => ?_)
    simp only [Function.comp_apply, Nat.add_assoc]

/-- The packet of a message: the header, whose size counts the header too, and the serialised bytes. -/
def packetOf (pktId : Nat) (bytes : List BYTE) : List BYTE :=
  PacketHeader.bytes ⟨bytes.length + sizeofPacketHeader, pktId⟩ ++ bytes

theorem length_headerBytes (header : PacketHeader) : header.bytes.length = 4 := rfl

theorem length_packetOf (pktId : Nat) (bytes : List BYTE) : (packetOf pktId bytes).length = bytes.length + 4 := by
  rw [packetOf, List.length_append, length_headerBytes, Nat.add_comm]

def BufferState.stored (s : BufferState Tid) (b : SendBuffer Tid) (pos : Nat) (bytes : List BYTE) : BufferState Tid :=
  let chunk := s.chunks b.owner
  { s with
    chunks := update s.chunks b.owner { chunk with buffer := storeAt chunk.buffer (b.buffer + pos) bytes } }

theorem bufferStep_write (s : BufferState Tid) {t : Tid} {i : Nat} (pos : Nat) (bytes : List BYTE)
    {b : SendBuffer Tid} (hrun : s.crashed = false) (hidle : (s.threads t).pc = .idle)
    (hi : s.buffers[i]? = some b) (hr : b.refs ≠ 0) :
    bufferStep s (.write t i pos bytes) = some (s.stored b pos bytes) := by
  simp [bufferStep, hrun, BufferState.onBuffer, hi, hr, hidle, BufferState.stored]

theorem bufferStep_close {t : Tid} {i n : Nat} {b : SendBuffer Tid} (hrun : s.crashed = false)
    (hidle : (s.threads t).pc = .idle) (hi : s.buffers[i]? = some b) (hr : b.refs ≠ 0) (hn : n ≤ b.allocSize)
    (hopen : (s.chunks b.owner).isOpen = true) :
    bufferStep s (.close t i n) = some { s with
      chunks := update s.chunks b.owner
        { s.chunks b.owner with isOpen := false, usedSize := (s.chunks b.owner).usedSize + n },
      buffers := s.buffers.set i { b with writeSize := n, closed := true } } := by
  simp [bufferStep, hrun, BufferState.onBuffer, hi, hr, hidle, hn, hopen]

/-- **A thread stores two pieces through the send buffer it has opened and closes it**: the buffer holds them. -/
theorem write_close {t : Tid} {i : Nat} {b : SendBuffer Tid} (xs ys : List BYTE) (hrun : s.crashed = false)
    (hidle : (s.threads t).pc = .idle) (hi : s.buffers[i]? = some b) (hr : b.refs ≠ 0) (ho : b.opener = t)
    (hcl : b.closed = false) (hopen : (s.chunks b.owner).isOpen = true) (hlen : xs.length + ys.length = b.allocSize) :
    ∃ s₂ s₃ s₄ b', bufferStep s (.write t i 0 xs) = some s₂ ∧ bufferStep s₂ (.write t i xs.length ys) = some s₃ ∧
      bufferStep s₃ (.close t i b.allocSize) = some s₄ ∧
      (∀ s₀, Reach bufferStep ByOpener s₀ s → Reach bufferStep ByOpener s₀ s₄) ∧
      s₄.buffers = s.buffers.set i b' ∧ b'.closed = true ∧ s₄.written b' = xs ++ ys ∧
      s₄.crashed = false ∧ s₄.threads = s.threads ∧ (s₄.chunks b.owner).isOpen = false := by
  have hw₂ := bufferStep_write s 0 xs hrun hidle hi hr
  have hw₃ := bufferStep_write (s.stored b 0 xs) xs.length ys hrun hidle hi hr
  have hc := bufferStep_close (s := (s.stored b 0 xs).stored b xs.length ys) hrun hidle hi hr (Nat.le_refl _)
    (by simpa [BufferState.stored] using hopen)
  refine ⟨_, _, _, _, hw₂, hw₃, hc, fun s₀ hreach => ?_, rfl, rfl, ?_, hrun, rfl, by simp⟩
  · refine ((hreach.next hw₂ ?_).next hw₃ ?_).next hc ?_
    · intro b₁ hb₁
      cases hi.symm.trans hb₁
      exact ⟨ho, hcl, by omega⟩
    · intro b₁ hb₁
      cases hi.symm.trans hb₁
      exact ⟨ho, hcl, by omega⟩
    · intro b₁ hb₁
      cases hi.symm.trans hb₁
      exact ⟨ho, hcl, Nat.le_refl _⟩
  · simp only [BufferState.written, BufferState.stored, update_self, update_idem, ← hlen, Nat.add_zero]
    exact map_storeAt_append ..

/-- **`MakeSendBuffer` returns a send buffer that holds the packet**, for a thread with no send buffer open and a
message that fits into a chunk with its header. -/
theorem makeSendBuffer_spec [Fintype Tid] (h : BufferInv s) {t : Tid} (hr : Ready s t) {α : Type} {M : Message α}
    {pkt : α} {bytes : List BYTE} (hlen : bytes.length = M.byteSizeLong pkt) (hfit : bytes.length ≤ 5996)
    (hser : ∀ size : Int, M.byteSizeLong pkt ≤ size → M.serializeToArray pkt size = some bytes) (pktId : Nat) :
    ∃ s' b, makeSendBuffer M pkt pktId t s = some (s', s.buffers.length) ∧ Ready s' t ∧
      (∀ s₀, Reach bufferStep ByOpener s₀ s → Reach bufferStep ByOpener s₀ s') ∧
      s'.buffers = s.buffers ++ [b] ∧ b.closed = true ∧ s'.written b = packetOf pktId bytes := by
  have hdata : toUInt16 (M.byteSizeLong pkt) = bytes.length := by rw [toUInt16, ← hlen]; omega
  have hpacket : toUInt16 (bytes.length + sizeofPacketHeader) = bytes.length + 4 := by
    rw [toUInt16, sizeofPacketHeader]; omega
  obtain ⟨s₁, hs₁, hrun, hidle, c, offset, hc, hmade⟩ :=
    openSendBuffer_opened hr (show bytes.length + 4 ≤ SEND_BUFFER_CHUNK_SIZE by rw [SEND_BUFFER_CHUNK_SIZE]; omega)
  have hi : s₁.buffers[s.buffers.length]? = some (SendBuffer.new t c offset (bytes.length + 4)) := by
    rw [hmade, List.getElem?_concat_length]
  have hI : BufferInv s₁ := Reach.inv (P := BufferInv) (openSendBuffer_reach hs₁ .start) h
    (fun _ _ _ _ hI he hok => bufferStep_inv hI he hok)
  have hopen := (hI.regions.current _ _ hi Nat.one_ne_zero rfl).1
  obtain ⟨s₂, s₃, s₄, b, h₂, h₃, h₄, hreach, hbuf, hcl, hwritten, hrun₄, hth, hclosed⟩ :=
    write_close (PacketHeader.bytes ⟨bytes.length + 4, pktId⟩) bytes hrun hidle hi Nat.one_ne_zero rfl rfl
      hopen (by rw [length_headerBytes, Nat.add_comm]; rfl)
  refine ⟨s₄, b, ?_, ⟨hrun₄, by rw [hth]; exact hidle, fun d hd => ?_⟩,
    fun s₀ h₀ => hreach s₀ (openSendBuffer_reach hs₁ h₀), ?_, hcl, hwritten⟩
  · simp only [makeSendBuffer, hdata, hpacket, hs₁, Option.bind_eq_bind, Option.bind_some, h₂,
      hser bytes.length (by rw [hlen])]
    exact Option.bind_eq_some_iff.2 ⟨s₃, h₃, Option.bind_eq_some_iff.2 ⟨s₄, h₄, rfl⟩⟩
  · rw [hth, hc] at hd
    cases hd
    exact hclosed
  · rw [hbuf, hmade, List.set_append_right _ _ (Nat.le_refl _), Nat.sub_self, List.set_cons_zero]

theorem ready_of_makeSendBuffer {t : Tid} {α : Type} {M : Message α} {pkt : α} {pktId i : Nat}
    (h : makeSendBuffer M pkt pktId t s = some (s', i)) : Ready s t := by
  obtain ⟨⟨s₁, j⟩, hs₁, -⟩ := Option.bind_eq_some_iff.1 h
  exact ready_of_openSendBuffer hs₁

/-! ## What was made before -/

/-- **Closed send buffers keep their bytes in every run** as long as somebody holds them. -/
theorem closed_bytes_kept_run [Fintype Tid] (h : BufferInv s) (hr : Reach bufferStep ByOpener s s') :
    BufferInv s' ∧ ∀ (i : Nat) (b : SendBuffer Tid), s.buffers[i]? = some b → b.closed = true →
      ∃ b', s'.buffers[i]? = some b' ∧ b'.closed = true ∧
        (b'.refs ≠ 0 → b.refs ≠ 0 ∧ s'.written b' = s.written b) := by
  refine Reach.inv (P := fun x => BufferInv x ∧ ∀ (i : Nat) (b : SendBuffer Tid), s.buffers[i]? = some b →
    b.closed = true → ∃ b', x.buffers[i]? = some b' ∧ b'.closed = true ∧
      (b'.refs ≠ 0 → b.refs ≠ 0 ∧ x.written b' = s.written b)) hr
    ⟨h, fun i b hi hcl => ⟨b, hi, hcl, fun hr => ⟨hr, rfl⟩⟩⟩ (fun x y a _ ⟨hI, hk⟩ he hok => ?_)
  refine ⟨bufferStep_inv hI he hok, fun i b hi hcl => ?_⟩
  obtain ⟨b', hi', hcl', hkept⟩ := hk i b hi hcl
  obtain ⟨b'', hi'', hcl''⟩ := closed_stays he hi' hcl'
  refine ⟨b'', hi'', hcl'', fun hr'' => ?_⟩
  obtain ⟨hr', -, hw⟩ := closed_bytes_kept hI he hok hi' hcl' hi'' hr''
  obtain ⟨hr, hw'⟩ := hkept hr'
  exact ⟨hr, hw.trans hw'⟩

end Geon
