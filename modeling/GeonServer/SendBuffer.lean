import GeonServer.Lts
import GeonServer.RecvBuffer
/-!
# SendBuffer — chunks that are cut into send buffers and recycled

`SendBufferManager`, `SendBufferChunk` and `SendBuffer` of ServerCore/SendBuffer.cpp, with the reference counts of
their `shared_ptr`s.  A chunk is opened for one `SendBuffer` at a time, which takes a piece behind what is used; when
the last reference to a chunk goes, its deleter puts it back into the pool of `SendBufferManager`.

A step is one change of a reference count or one `WRITE_LOCK` section, with the reads and writes of the chunk in the
thread's own `LSendBufferChunk` next to it.  Chunks are named by the order of their `new`, send buffers by the order
of their `make_shared`.
-/
namespace Geon

open Lts Function

def SEND_BUFFER_CHUNK_SIZE : Nat := 6000

/-- `SendBufferChunk`; `useCount` is the number of `SendBufferChunkRef`s. -/
structure SendBufferChunk where
  buffer : Nat → BYTE
  isOpen : Bool
  usedSize : Nat
  useCount : Nat

/-- `new SendBufferChunk()` in its first `SendBufferChunkRef`. -/
def SendBufferChunk.new : SendBufferChunk := ⟨fun _ => 0, false, 0, 1⟩

def SendBufferChunk.freeSize (c : SendBufferChunk) : Nat := SEND_BUFFER_CHUNK_SIZE - c.usedSize

def SendBufferChunk.reset (c : SendBufferChunk) : SendBufferChunk := { c with isOpen := false, usedSize := 0 }

/-- `SendBuffer`: `buffer` is its offset in the chunk `owner`, `refs` the number of `SendBufferRef`s.  The history is
who opened it and whether `Close` was called. -/
structure SendBuffer (Tid : Type*) where
  owner : Nat
  buffer : Nat
  allocSize : Nat
  writeSize : Nat
  refs : Nat
  opener : Tid
  closed : Bool
  deriving DecidableEq, Repr

/-- `SendBuffer::SendBuffer` in its first `SendBufferRef`, made for `opener`. -/
def SendBuffer.new {Tid : Type*} (opener : Tid) (owner buffer allocSize : Nat) : SendBuffer Tid :=
  ⟨owner, buffer, allocSize, 0, 1, opener, false⟩

/-- Where a thread is in the code.  `second`: it is the second `Pop` of this `SendBufferManager::Open`. -/
inductive BufferPc
  | idle
  /-- `Open` is about to do `Pop` and to assign `LSendBufferChunk`. -/
  | pop (size : Nat) (second : Bool)
  /-- About to give up a reference to the chunk, and to go on with `Open` if this is `Open`. -/
  | release (chunk : Nat) (after : Option (Nat × Bool))
  /-- It was the last one: `PushGlobal` is about to put the chunk into the pool. -/
  | recycle (chunk : Nat) (after : Option (Nat × Bool))
  /-- `Open` is about to do `Reset`. -/
  | reset (size : Nat) (second : Bool)
  deriving DecidableEq, Repr

/-- A thread: its `LSendBufferChunk`, and where it is. -/
structure BufferThread where
  chunk : Option Nat
  pc : BufferPc
  deriving DecidableEq, Repr

/-- The chunks, the pool `_sendBufferChunks`, every send buffer made so far and the threads.  `crashed`: an
`ASSERT_CRASH` has failed. -/
structure BufferState (Tid : Type*) where
  chunks : Nat → SendBufferChunk
  numChunks : Nat
  pool : List Nat
  buffers : List (SendBuffer Tid)
  threads : Tid → BufferThread
  crashed : Bool

variable {Tid : Type*} [DecidableEq Tid]

namespace BufferState

def goto (s : BufferState Tid) (t : Tid) (pc : BufferPc) : BufferState Tid :=
  { s with threads := update s.threads t { s.threads t with pc := pc } }

def crash (s : BufferState Tid) : BufferState Tid := { s with crashed := true }

/-- `SendBufferChunk::Open`, called by thread `t` on its chunk; a request that does not fit gets `nullptr`. -/
def chunkOpen (s : BufferState Tid) (t : Tid) (c allocSize : Nat) : BufferState Tid :=
  let chunk := s.chunks c
  if ¬ allocSize ≤ SEND_BUFFER_CHUNK_SIZE then s.crash
  else if chunk.isOpen = true then s.crash
  else if allocSize > chunk.freeSize then s.goto t .idle
  else { s with
    chunks := update s.chunks c { chunk with isOpen := true, useCount := chunk.useCount + 1 },
    buffers := s.buffers ++ [SendBuffer.new t c chunk.usedSize allocSize] }.goto t .idle

/-- `SendBufferManager::Open` from its assertion on, with chunk `c` in `LSendBufferChunk`. -/
def managerOpen (s : BufferState Tid) (t : Tid) (c size : Nat) : BufferState Tid :=
  if (s.chunks c).isOpen = true then s.crash
  else if (s.chunks c).freeSize < size then s.goto t (.pop size true)
  else s.chunkOpen t c size

/-- What comes after `LSendBufferChunk` has been assigned: a chunk it had before is released. -/
def afterAssign (size : Nat) (second : Bool) : Option Nat → BufferPc
  | none => .reset size second
  | some old => .release old (some (size, second))

/-- `LSendBufferChunk` is assigned chunk `c`. -/
def assign (s : BufferState Tid) (t : Tid) (c size : Nat) (second : Bool) : BufferState Tid :=
  { s with threads := update s.threads t ⟨some c, afterAssign size second (s.threads t).chunk⟩ }

def afterRelease : Option (Nat × Bool) → BufferPc
  | none => .idle
  | some (size, second) => .reset size second

/-- The next step of thread `t` inside `Open` or a destructor. -/
def next (s : BufferState Tid) (t : Tid) : Option (BufferState Tid) :=
  match (s.threads t).pc with
  | .idle => none
  | .pop size second =>
    match s.pool.getLast? with
    | some c => some ({ s with pool := s.pool.dropLast }.assign t c size second)
    | none => some ({ s with chunks := update s.chunks s.numChunks .new, numChunks := s.numChunks + 1 }.assign
        t s.numChunks size second)
  | .release c after =>
    let chunk := s.chunks c
    some ({ s with chunks := update s.chunks c { chunk with useCount := chunk.useCount - 1 } }.goto t
      (if chunk.useCount = 1 then .recycle c after else afterRelease after))
  | .recycle c after =>
    some ({ s with
      chunks := update s.chunks c { s.chunks c with useCount := 1 }, pool := s.pool ++ [c] }.goto t
      (afterRelease after))
  | .reset size second =>
    match (s.threads t).chunk with
    | none => none
    | some c =>
      let s' := { s with chunks := update s.chunks c (s.chunks c).reset }
      some (if second = true then s'.chunkOpen t c size else s'.managerOpen t c size)

end BufferState

inductive BufferAct (Tid : Type*)
  /-- A thread calls `SendBufferManager::Open`. -/
  | openCall (t : Tid) (size : Nat)
  /-- A thread inside `Open` or a destructor takes its next step. -/
  | next (t : Tid)
  /-- A thread stores bytes through `Buffer()` of a send buffer. -/
  | write (t : Tid) (i pos : Nat) (bytes : List BYTE)
  /-- A thread calls `SendBuffer::Close`. -/
  | close (t : Tid) (i writeSize : Nat)
  /-- A `SendBufferRef` is copied. -/
  | copyRef (i : Nat)
  /-- A thread drops a `SendBufferRef`; with the last one the `SendBuffer` goes. -/
  | dropRef (t : Tid) (i : Nat)

/-- The bytes a `WSASend` of the send buffer reads: `WriteSize()` of them from `Buffer()` on. -/
def BufferState.written (s : BufferState Tid) (b : SendBuffer Tid) : List BYTE :=
  (List.range b.writeSize).map (fun k => (s.chunks b.owner).buffer (b.buffer + k))

def storeAt (m : Nat → BYTE) (pos : Nat) (bytes : List BYTE) : Nat → BYTE := fun i =>
  if h : pos ≤ i ∧ i - pos < bytes.length then bytes.get ⟨i - pos, h.2⟩ else m i

/-- A step on send buffer `i`, which somebody holds. -/
def BufferState.onBuffer (s : BufferState Tid) (i : Nat) (f : SendBuffer Tid → Option (BufferState Tid)) :
    Option (BufferState Tid) :=
  match s.buffers[i]? with
  | none => none
  | some b => if b.refs = 0 then none else f b

def bufferStep (s : BufferState Tid) (a : BufferAct Tid) : Option (BufferState Tid) :=
  if s.crashed = true then none
  else match a with
    | .openCall t size =>
      match (s.threads t).pc, (s.threads t).chunk with
      | .idle, none => some (s.goto t (.pop size false))
      | .idle, some c => some (s.managerOpen t c size)
      | _, _ => none
    | .next t => s.next t
    | .write t i pos bytes => s.onBuffer i (fun b =>
      if (s.threads t).pc = .idle then
        let chunk := s.chunks b.owner
        some { s with
          chunks := update s.chunks b.owner { chunk with buffer := storeAt chunk.buffer (b.buffer + pos) bytes } }
      else none)
    | .close t i writeSize => s.onBuffer i (fun b =>
      if (s.threads t).pc = .idle then
        let chunk := s.chunks b.owner
        if ¬ b.allocSize ≥ writeSize then some s.crash
        else if ¬ chunk.isOpen = true then some s.crash
        else some { s with
          chunks := update s.chunks b.owner { chunk with isOpen := false, usedSize := chunk.usedSize + writeSize },
          buffers := s.buffers.set i { b with writeSize := writeSize, closed := true } }
      else none)
    | .copyRef i => s.onBuffer i (fun b => some { s with buffers := s.buffers.set i { b with refs := b.refs + 1 } })
    | .dropRef t i => s.onBuffer i (fun b =>
      if (s.threads t).pc = .idle then
        some ({ s with buffers := s.buffers.set i { b with refs := b.refs - 1 } }.goto t
          (if b.refs = 1 then .release b.owner none else .idle))
      else none)

def bufferState₀ : BufferState Tid :=
  ⟨fun _ => { SendBufferChunk.new with useCount := 0 }, 0, [], [], fun _ => ⟨none, .idle⟩, false⟩

/-- Buffers are written and closed by the thread that opened them, before they are closed, within their
allocation. -/
def ByOpener (s : BufferState Tid) (a : BufferAct Tid) (_ : BufferState Tid) : Prop :=
  match a with
  | .write t i pos bytes => ∀ b ∈ s.buffers[i]?, b.opener = t ∧ b.closed = false ∧ pos + bytes.length ≤ b.allocSize
  | .close t i writeSize => ∀ b ∈ s.buffers[i]?, b.opener = t ∧ b.closed = false ∧ writeSize ≤ b.allocSize
  | _ => True

instance (s s' : BufferState Tid) (a : BufferAct Tid) : Decidable (ByOpener s a s') :=
  match a with
  | .write .. => inferInstanceAs (Decidable (∀ b ∈ _, _))
  | .close .. => inferInstanceAs (Decidable (∀ b ∈ _, _))
  | .openCall .. | .next .. | .copyRef .. | .dropRef .. => .isTrue trivial

end Geon
