import GeonServer.SendBuffer
/-!
# SendBufferEffect — what a step of the send buffers can do

`bufferStep_effect` takes every step apart once.  `OpenStep` is the part of `Open` behind its first assertion, which is
run with the chunk the thread has, and again after each `Pop`.
-/
namespace Geon

open Function

variable {Tid : Type*} [DecidableEq Tid]

namespace BufferState

/-- **How `Open` of thread `t` goes on with chunk `c`** in `LSendBufferChunk`; after the second `Pop` it asks the chunk
at once. -/
inductive OpenStep (s : BufferState Tid) (t : Tid) (c size : Nat) (second : Bool) : BufferState Tid → Prop
  | crash : (s.chunks c).isOpen = true ∨ SEND_BUFFER_CHUNK_SIZE < size → OpenStep s t c size second s.crash
  | popAgain : second = false → (s.chunks c).isOpen = false → (s.chunks c).freeSize < size →
    OpenStep s t c size second (s.goto t (.pop size true))
  | refused : second = true → (s.chunks c).isOpen = false → (s.chunks c).freeSize < size →
    OpenStep s t c size second (s.goto t .idle)
  | opened : (s.chunks c).isOpen = false → size ≤ (s.chunks c).freeSize → OpenStep s t c size second ({ s with
    chunks := update s.chunks c { s.chunks c with isOpen := true, useCount := (s.chunks c).useCount + 1 },
    buffers := s.buffers ++ [SendBuffer.new t c (s.chunks c).usedSize size] }.goto t .idle)

/-- **The next step of thread `t`** inside `Open` or a destructor. -/
inductive NextStep (s : BufferState Tid) (t : Tid) : BufferState Tid → Prop
  | pop {size c : Nat} {second : Bool} : (s.threads t).pc = .pop size second → s.pool.getLast? = some c →
    NextStep s t ({ s with pool := s.pool.dropLast }.assign t c size second)
  | make {size : Nat} {second : Bool} : (s.threads t).pc = .pop size second → s.pool = [] →
    NextStep s t ({ s with
      chunks := update s.chunks s.numChunks .new, numChunks := s.numChunks + 1 }.assign t s.numChunks size second)
  | release {c : Nat} {after : Option (Nat × Bool)} : (s.threads t).pc = .release c after →
    NextStep s t ({ s with
      chunks := update s.chunks c { s.chunks c with useCount := (s.chunks c).useCount - 1 } }.goto t
      (if (s.chunks c).useCount = 1 then .recycle c after else afterRelease after))
  | recycle {c : Nat} {after : Option (Nat × Bool)} : (s.threads t).pc = .recycle c after →
    NextStep s t ({ s with
      chunks := update s.chunks c { s.chunks c with useCount := 1 }, pool := s.pool ++ [c] }.goto t
      (afterRelease after))
  | reset {size c : Nat} {second : Bool} {s' : BufferState Tid} : (s.threads t).pc = .reset size second →
    (s.threads t).chunk = some c →
    OpenStep { s with chunks := update s.chunks c (s.chunks c).reset } t c size second s' → NextStep s t s'

end BufferState

open BufferState

/-- **What a step can do.** -/
inductive BufferEffect (s : BufferState Tid) : BufferAct Tid → BufferState Tid → Prop
  | pop {t : Tid} {size : Nat} : (s.threads t).pc = .idle → (s.threads t).chunk = none →
    BufferEffect s (.openCall t size) (s.goto t (.pop size false))
  | openCall {t : Tid} {size c : Nat} {s' : BufferState Tid} : (s.threads t).pc = .idle →
    (s.threads t).chunk = some c → OpenStep s t c size false s' → BufferEffect s (.openCall t size) s'
  | next {t : Tid} {s' : BufferState Tid} : NextStep s t s' → BufferEffect s (.next t) s'
  | write {t : Tid} {i pos : Nat} {bytes : List BYTE} {b : SendBuffer Tid} : s.buffers[i]? = some b → b.refs ≠ 0 →
    (s.threads t).pc = .idle → BufferEffect s (.write t i pos bytes) { s with
      chunks := update s.chunks b.owner
        { s.chunks b.owner with buffer := storeAt (s.chunks b.owner).buffer (b.buffer + pos) bytes } }
  | closeFails {t : Tid} {i writeSize : Nat} {b : SendBuffer Tid} : s.buffers[i]? = some b → b.refs ≠ 0 →
    (s.threads t).pc = .idle → b.allocSize < writeSize ∨ (s.chunks b.owner).isOpen = false →
    BufferEffect s (.close t i writeSize) s.crash
  | close {t : Tid} {i writeSize : Nat} {b : SendBuffer Tid} : s.buffers[i]? = some b → b.refs ≠ 0 →
    (s.threads t).pc = .idle → writeSize ≤ b.allocSize → (s.chunks b.owner).isOpen = true →
    BufferEffect s (.close t i writeSize) { s with
      chunks := update s.chunks b.owner
        { s.chunks b.owner with isOpen := false, usedSize := (s.chunks b.owner).usedSize + writeSize },
      buffers := s.buffers.set i { b with writeSize := writeSize, closed := true } }
  | copyRef {i : Nat} {b : SendBuffer Tid} : s.buffers[i]? = some b → b.refs ≠ 0 →
    BufferEffect s (.copyRef i) { s with buffers := s.buffers.set i { b with refs := b.refs + 1 } }
  | dropRef {t : Tid} {i : Nat} {b : SendBuffer Tid} : s.buffers[i]? = some b → b.refs ≠ 0 →
    (s.threads t).pc = .idle → BufferEffect s (.dropRef t i)
      ({ s with buffers := s.buffers.set i { b with refs := b.refs - 1 } }.goto t
        (if b.refs = 1 then .release b.owner none else .idle))

variable {s s' : BufferState Tid} {t : Tid} {c size : Nat}

/-! ## `Open` -/

theorem chunkOpen_step {second : Bool} (hfree : second = false → size ≤ (s.chunks c).freeSize) :
    OpenStep s t c size second (s.chunkOpen t c size) := by
  unfold chunkOpen
  dsimp only
  split
  · rename_i hsize
    exact .crash (.inr (Nat.not_le.1 hsize))
  split
  · rename_i hopen
    exact .crash (.inl hopen)
  rename_i hopen
  have hclosed := Bool.of_not_eq_true hopen
  split
  · rename_i hless
    -- before the second `Pop` the chunk has been found to have room
    cases second with
    | true => exact .refused rfl hclosed hless
    | false => exact absurd (hfree rfl) (Nat.not_le.2 hless)
  · rename_i hless
    exact .opened hclosed (Nat.not_lt.1 hless)

theorem managerOpen_step : OpenStep s t c size false (s.managerOpen t c size) := by
  unfold managerOpen
  split
  · rename_i hopen
    exact .crash (.inl hopen)
  rename_i hopen
  split
  · rename_i hless
    exact .popAgain rfl (Bool.of_not_eq_true hopen) hless
  · rename_i hless
    exact chunkOpen_step (fun _ => Nat.not_lt.1 hless)

/-! ## Every step -/

theorem BufferState.next_effect (he : s.next t = some s') : NextStep s t s' := by
  unfold BufferState.next at he
  split at he
  · cases he
  · rename_i size second hpc
    split at he
    · rename_i c hlast
      cases he
      exact .pop hpc hlast
    · rename_i hnone
      cases he
      exact .make hpc (List.getLast?_eq_none_iff.1 hnone)
  · rename_i hpc
    cases he
    exact .release hpc
  · rename_i hpc
    cases he
    exact .recycle hpc
  · rename_i size second hpc
    split at he
    · cases he
    · rename_i c hc
      refine .reset hpc hc ?_
      cases second with
      | true =>
        cases he
        exact chunkOpen_step nofun
      | false =>
        cases he
        exact managerOpen_step

omit [DecidableEq Tid] in
theorem onBuffer_eq_some {i : Nat} {f : SendBuffer Tid → Option (BufferState Tid)}
    (he : s.onBuffer i f = some s') : ∃ b, s.buffers[i]? = some b ∧ b.refs ≠ 0 ∧ f b = some s' := by
  unfold BufferState.onBuffer at he
  split at he
  · cases he
  · rename_i b hi
    split at he
    · cases he
    · exact ⟨b, hi, ‹_›, he⟩

/-- **What a step can do**: the only place that takes `bufferStep` apart. -/
theorem bufferStep_effect {a : BufferAct Tid} (he : bufferStep s a = some s') : BufferEffect s a s' := by
  unfold bufferStep at he
  split at he
  · cases he
  cases a with
  | openCall t size =>
    simp only at he
    split at he
    · rename_i hpc hc
      cases he
      exact .pop hpc hc
    · rename_i c hpc hc
      cases he
      exact .openCall hpc hc managerOpen_step
    · cases he
  | next t => exact .next (BufferState.next_effect he)
  | write t i pos bytes =>
    obtain ⟨b, hi, hr, he⟩ := onBuffer_eq_some he
    split at he <;> cases he
    exact .write hi hr ‹_›
  | close t i writeSize =>
    obtain ⟨b, hi, hr, he⟩ := onBuffer_eq_some he
    split at he
    · rename_i hpc
      dsimp only at he
      split at he
      · rename_i hsize
        cases he
        exact .closeFails hi hr hpc (.inl (Nat.not_le.1 hsize))
      · rename_i hsize
        split at he
        · rename_i hopen
          cases he
          exact .closeFails hi hr hpc (.inr (Bool.of_not_eq_true hopen))
        · rename_i hopen
          cases he
          exact .close hi hr hpc (not_not.1 hsize) (not_not.1 hopen)
    · cases he
  | copyRef i =>
    obtain ⟨b, hi, hr, he⟩ := onBuffer_eq_some he
    cases he
    exact .copyRef hi hr
  | dropRef t i =>
    obtain ⟨b, hi, hr, he⟩ := onBuffer_eq_some he
    split at he <;> cases he
    exact .dropRef hi hr ‹_›

end Geon
