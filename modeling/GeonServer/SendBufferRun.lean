import GeonServer.SendBufferEffect
import GeonServer.Tally
/-!
# SendBufferRun — send buffers never alias

In every interleaving the reference count of a chunk is the number of places that have it (`ChunkOk`): a thread's
`LSendBufferChunk`, an entry of the pool, the live send buffers cut from it and the threads about to give up a
reference.  So a chunk in the pool has no live send buffer, `Reset` never takes bytes from one, and the pieces of one
chunk follow each other in the order they were opened (`RegionsOk`).
-/
namespace Geon

open Lts Function

variable {Tid : Type*} [DecidableEq Tid]

/-! ## Who has a chunk -/

def BufferThread.slots (c : Nat) (th : BufferThread) : Nat := if th.chunk = some c then 1 else 0

def BufferThread.releasing (c : Nat) (th : BufferThread) : Nat :=
  match th.pc with
  | .release c' _ => if c' = c then 1 else 0
  | _ => 0

def BufferThread.recycling (c : Nat) (th : BufferThread) : Nat :=
  match th.pc with
  | .recycle c' _ => if c' = c then 1 else 0
  | _ => 0

def SendBuffer.liveOn (c : Nat) (b : SendBuffer Tid) : Bool := decide (b.refs ≠ 0 ∧ b.owner = c)

variable [Fintype Tid]

namespace BufferState

/-- The threads that have the chunk in `LSendBufferChunk`. -/
def slots (s : BufferState Tid) (c : Nat) : Nat := tally (BufferThread.slots c) s.threads

/-- The threads about to give up a reference to the chunk. -/
def releasing (s : BufferState Tid) (c : Nat) : Nat := tally (BufferThread.releasing c) s.threads

/-- The threads about to put the chunk into the pool. -/
def recycling (s : BufferState Tid) (c : Nat) : Nat := tally (BufferThread.recycling c) s.threads

/-- The live send buffers cut from the chunk. -/
def owners (s : BufferState Tid) (c : Nat) : Nat := s.buffers.countP (SendBuffer.liveOn c)

end BufferState

/-- **The reference count of a chunk is the number of places that have it**, and the slots and the pool exclude each
other. -/
structure ChunkOk (s : BufferState Tid) (c : Nat) : Prop where
  use : (s.chunks c).useCount = s.slots c + s.pool.count c + s.owners c + s.releasing c
  place : s.slots c + s.pool.count c + s.recycling c ≤ 1
  free : s.pool.count c + s.recycling c = 0 ∨ s.owners c + s.releasing c = 0
  known : c < s.numChunks ↔ 0 < (s.chunks c).useCount + s.recycling c

variable {s s' : BufferState Tid}

/-- **One thread moves**: the counts of each chunk change by what the thread has of it. -/
theorem counts_update {t : Tid} {th : BufferThread} (hth : s'.threads = update s.threads t th) (c : Nat) :
    (s'.slots c + (s.threads t).slots c = s.slots c + th.slots c ∧ (s.threads t).slots c ≤ s.slots c) ∧
    (s'.releasing c + (s.threads t).releasing c = s.releasing c + th.releasing c ∧
      (s.threads t).releasing c ≤ s.releasing c) ∧
    (s'.recycling c + (s.threads t).recycling c = s.recycling c + th.recycling c ∧
      (s.threads t).recycling c ≤ s.recycling c) := by
  simp only [BufferState.slots, BufferState.releasing, BufferState.recycling, hth]
  exact ⟨⟨tally_update .., le_tally ..⟩, ⟨tally_update .., le_tally ..⟩, tally_update .., le_tally ..⟩

theorem counts_goto {t : Tid} {pc : BufferPc} (hth : s'.threads = update s.threads t ⟨(s.threads t).chunk, pc⟩)
    (c : Nat) : s'.slots c = s.slots c ∧
    (s'.releasing c + (s.threads t).releasing c =
      s.releasing c + BufferThread.releasing c ⟨(s.threads t).chunk, pc⟩ ∧
      (s.threads t).releasing c ≤ s.releasing c) ∧
    (s'.recycling c + (s.threads t).recycling c =
      s.recycling c + BufferThread.recycling c ⟨(s.threads t).chunk, pc⟩ ∧
      (s.threads t).recycling c ≤ s.recycling c) := by
  obtain ⟨⟨h1, -⟩, h2⟩ := counts_update hth c
  exact ⟨Nat.add_right_cancel h1, h2⟩

omit [DecidableEq Tid] [Fintype Tid] in
theorem owners_set {i : Nat} {b : SendBuffer Tid} {l : List (SendBuffer Tid)} (hi : l[i]? = some b)
    (b' : SendBuffer Tid) (c : Nat) :
    (l.set i b').countP (SendBuffer.liveOn c) + (if b.liveOn c then 1 else 0) =
      l.countP (SendBuffer.liveOn c) + (if b'.liveOn c then 1 else 0) := by
  obtain ⟨hlt, rfl⟩ := List.getElem?_eq_some_iff.1 hi
  rw [List.countP_set hlt]
  have : (if l[i].liveOn c then 1 else 0) ≤ l.countP (SendBuffer.liveOn c) := by
    split
    · exact List.countP_pos_iff.2 ⟨l[i], List.getElem_mem hlt, ‹_›⟩
    · exact Nat.zero_le _
  omega

/-! ## The pieces of a chunk -/

/-- **The live pieces of a chunk follow each other** in the order they were opened; only the last one may be unclosed,
and then the chunk is open and the piece starts where the used part ends. -/
structure RegionsOk (s : BufferState Tid) : Prop where
  before : ∀ (i j : Nat) (a b : SendBuffer Tid), i < j → s.buffers[i]? = some a → s.buffers[j]? = some b →
    a.refs ≠ 0 → b.refs ≠ 0 → a.owner = b.owner → a.closed = true ∧ a.buffer + a.writeSize ≤ b.buffer
  behind : ∀ (i : Nat) (b : SendBuffer Tid), s.buffers[i]? = some b → b.refs ≠ 0 → b.closed = true →
    b.buffer + b.writeSize ≤ (s.chunks b.owner).usedSize
  current : ∀ (i : Nat) (b : SendBuffer Tid), s.buffers[i]? = some b → b.refs ≠ 0 → b.closed = false →
    (s.chunks b.owner).isOpen = true ∧ b.buffer = (s.chunks b.owner).usedSize ∧
      b.buffer + b.allocSize ≤ SEND_BUFFER_CHUNK_SIZE
  used : ∀ c, (s.chunks c).usedSize ≤ SEND_BUFFER_CHUNK_SIZE

structure SamePiece (b b' : SendBuffer Tid) : Prop where
  owner : b'.owner = b.owner
  buffer : b'.buffer = b.buffer
  allocSize : b'.allocSize = b.allocSize
  writeSize : b'.writeSize = b.writeSize
  closed : b'.closed = b.closed

omit [DecidableEq Tid] [Fintype Tid] in
theorem SamePiece.refl (b : SendBuffer Tid) : SamePiece b b := ⟨rfl, rfl, rfl, rfl, rfl⟩

omit [DecidableEq Tid] [Fintype Tid] in
theorem SamePiece.refs (b : SendBuffer Tid) (n : Nat) : SamePiece b { b with refs := n } := ⟨rfl, rfl, rfl, rfl, rfl⟩

omit [DecidableEq Tid] [Fintype Tid] in
theorem RegionsOk.mono (h : RegionsOk s)
    (hb : ∀ (i : Nat) (b' : SendBuffer Tid), s'.buffers[i]? = some b' → b'.refs ≠ 0 →
      ∃ b, s.buffers[i]? = some b ∧ b.refs ≠ 0 ∧ SamePiece b b')
    (hc : ∀ c, (s'.chunks c).isOpen = (s.chunks c).isOpen ∧ (s'.chunks c).usedSize = (s.chunks c).usedSize ∨
      s.owners c = 0 ∧ (s'.chunks c).usedSize ≤ SEND_BUFFER_CHUNK_SIZE) : RegionsOk s' := by
  have hlive : ∀ (i : Nat) (b : SendBuffer Tid), s.buffers[i]? = some b → b.refs ≠ 0 →
      (s'.chunks b.owner).isOpen = (s.chunks b.owner).isOpen ∧
        (s'.chunks b.owner).usedSize = (s.chunks b.owner).usedSize := by
    intro i b hi hr
    rcases hc b.owner with h | ⟨h0, -⟩
    · exact h
    · have := List.countP_eq_zero.1 h0 b (List.mem_of_getElem? hi)
      simp [SendBuffer.liveOn, hr] at this
  refine ⟨?_, ?_, ?_, fun c => ?_⟩
  · intro i j a' b' hij ha' hb' hra hrb how
    obtain ⟨a, ha, hra, hsa⟩ := hb i a' ha' hra
    obtain ⟨b, hb, hrb, hsb⟩ := hb j b' hb' hrb
    rw [hsa.owner, hsb.owner] at how
    rw [hsa.closed, hsa.buffer, hsa.writeSize, hsb.buffer]
    exact h.before i j a b hij ha hb hra hrb how
  · intro i b' hi hr hcl
    obtain ⟨b, hi, hr, hs⟩ := hb i b' hi hr
    rw [hs.closed] at hcl
    rw [hs.buffer, hs.writeSize, hs.owner, (hlive i b hi hr).2]
    exact h.behind i b hi hr hcl
  · intro i b' hi hr hcl
    obtain ⟨b, hi, hr, hs⟩ := hb i b' hi hr
    rw [hs.closed] at hcl
    rw [hs.buffer, hs.allocSize, hs.owner, (hlive i b hi hr).1, (hlive i b hi hr).2]
    exact h.current i b hi hr hcl
  · rcases hc c with ⟨-, hu⟩ | ⟨-, hu⟩
    · rw [hu]
      exact h.used c
    · exact hu

omit [DecidableEq Tid] [Fintype Tid] in
/-- **A piece is opened** behind the used part of a chunk that is not open. -/
theorem RegionsOk.opened (h : RegionsOk s) {t : Tid} {c size : Nat} (hopen : (s.chunks c).isOpen = false)
    (hsize : size ≤ (s.chunks c).freeSize)
    (hbuf : s'.buffers = s.buffers ++ [SendBuffer.new t c (s.chunks c).usedSize size])
    (hchunks : s'.chunks = update s.chunks c
      { s.chunks c with isOpen := true, useCount := (s.chunks c).useCount + 1 }) : RegionsOk s' := by
  have hused := h.used c
  have hget : ∀ (i : Nat) (b : SendBuffer Tid), s'.buffers[i]? = some b → s.buffers[i]? = some b ∨
      i = s.buffers.length ∧ b = SendBuffer.new t c (s.chunks c).usedSize size := by
    intro i b hi
    rw [hbuf, List.getElem?_append] at hi
    split at hi
    · exact .inl hi
    · rw [List.getElem?_singleton] at hi
      split at hi
      · exact .inr ⟨by omega, (Option.some.inj hi).symm⟩
      · cases hi
  -- every live piece of the chunk is closed, so it ends where the used part ends or before
  have hclosed : ∀ (i : Nat) (b : SendBuffer Tid), s.buffers[i]? = some b → b.refs ≠ 0 → b.owner = c →
      b.closed = true := by
    intro i b hi hr ho
    rw [← Bool.not_eq_false]
    intro hcl
    have := (h.current i b hi hr hcl).1
    rw [ho, hopen] at this
    cases this
  have hsame : ∀ d, (s'.chunks d).usedSize = (s.chunks d).usedSize := fun d => by
    rw [hchunks]
    exact apply_update_of_eq SendBufferChunk.usedSize s.chunks (by rfl) d
  refine ⟨?_, ?_, ?_, fun d => by rw [hsame]; exact h.used d⟩
  · intro i j a b hij ha hb hra hrb how
    rcases hget i a ha with ha | ⟨rfl, rfl⟩
    · rcases hget j b hb with hb | ⟨rfl, rfl⟩
      · exact h.before i j a b hij ha hb hra hrb how
      · have hcl := hclosed i a ha hra how
        have := h.behind i a ha hra hcl
        rw [how] at this
        exact ⟨hcl, this⟩
    · rcases hget j b hb with hb | ⟨rfl, rfl⟩
      · have := (List.getElem?_eq_some_iff.1 hb).1
        omega
      · omega
  · intro i b hi hr hcl
    rw [hsame]
    rcases hget i b hi with hi | ⟨rfl, rfl⟩
    · exact h.behind i b hi hr hcl
    · cases hcl
  · intro i b hi hr hcl
    rw [hsame]
    rcases hget i b hi with hi | ⟨rfl, rfl⟩
    · have hne : b.owner ≠ c := fun ho => by
        have := hclosed i b hi hr ho
        rw [hcl] at this
        cases this
      rw [hchunks, update_of_ne hne]
      exact h.current i b hi hr hcl
    · refine ⟨by simp [SendBuffer.new, hchunks], rfl, ?_⟩
      simp only [SendBuffer.new]
      simp only [SendBufferChunk.freeSize] at hsize
      omega

omit [DecidableEq Tid] [Fintype Tid] in
/-- **A piece is closed** by the thread that opened it: the part that was written becomes used. -/
theorem RegionsOk.close (h : RegionsOk s) {i n : Nat} {b : SendBuffer Tid} (hi : s.buffers[i]? = some b)
    (hr : b.refs ≠ 0) (hcl : b.closed = false) (hn : n ≤ b.allocSize)
    (hbuf : s'.buffers = s.buffers.set i { b with writeSize := n, closed := true })
    (hchunks : s'.chunks = update s.chunks b.owner
      { s.chunks b.owner with isOpen := false, usedSize := (s.chunks b.owner).usedSize + n }) : RegionsOk s' := by
  obtain ⟨-, hoff, hfit⟩ := h.current i b hi hr hcl
  have hlt := (List.getElem?_eq_some_iff.1 hi).1
  have hget : ∀ (j : Nat) (b' : SendBuffer Tid), s'.buffers[j]? = some b' →
      j = i ∧ b' = { b with writeSize := n, closed := true } ∨ j ≠ i ∧ s.buffers[j]? = some b' := by
    intro j b' hj
    rw [hbuf, List.getElem?_set] at hj
    split at hj
    · rename_i hij
      exact .inl ⟨hij.symm, (Option.some.inj hj).symm⟩
    · rename_i hij
      exact .inr ⟨fun hji => hij hji.symm, hj⟩
  have hother : ∀ (j : Nat) (b' : SendBuffer Tid), j ≠ i → s.buffers[j]? = some b' → b'.refs ≠ 0 → b'.owner = b.owner →
      j < i ∧ b'.closed = true ∧ b'.buffer + b'.writeSize ≤ b.buffer := by
    intro j b' hji hj hr' ho
    rcases Nat.lt_or_gt_of_ne hji with hlt | hgt
    · exact ⟨hlt, h.before j i b' b hlt hj hi hr' hr ho⟩
    · have := (h.before i j b b' hgt hi hj hr hr' ho.symm).1
      rw [hcl] at this
      cases this
  refine ⟨?_, ?_, ?_, fun c => ?_⟩
  · intro j k x y hjk hx hy hrx hry how
    rcases hget j x hx with ⟨rfl, rfl⟩ | ⟨hj, hx⟩
    · rcases hget k y hy with ⟨rfl, rfl⟩ | ⟨hk, hy⟩
      · omega
      · have := (hother k y hk hy hry how.symm).1
        omega
    · rcases hget k y hy with ⟨rfl, rfl⟩ | ⟨hk, hy⟩
      · exact (hother j x hj hx hrx how).2
      · exact h.before j k x y hjk hx hy hrx hry how
  · intro j x hx hrx hclx
    rw [hchunks]
    rcases hget j x hx with ⟨rfl, rfl⟩ | ⟨hj, hx⟩
    · simp only [update_self]
      omega
    · by_cases ho : x.owner = b.owner
      · have := (hother j x hj hx hrx ho).2.2
        rw [ho, update_self]
        simp only
        omega
      · rw [update_of_ne ho]
        exact h.behind j x hx hrx hclx
  · intro j x hx hrx hclx
    rw [hchunks]
    rcases hget j x hx with ⟨rfl, rfl⟩ | ⟨hj, hx⟩
    · cases hclx
    · have ho : x.owner ≠ b.owner := fun ho => by
        have := (hother j x hj hx hrx ho).2.1
        rw [hclx] at this
        cases this
      rw [update_of_ne ho]
      exact h.current j x hx hrx hclx
  · rw [hchunks]
    by_cases hc : c = b.owner
    · rw [hc, update_self]
      simp only
      omega
    · rw [update_of_ne hc]
      exact h.used c

/-! ## The invariant -/

/-- `Open` has popped a chunk and has not reset it. -/
def BufferPc.opening : BufferPc → Bool
  | .release _ (some _) | .recycle _ (some _) | .reset _ _ => true
  | _ => false

/-- **The invariant of the send buffers.**  A chunk that is about to be reset has no live piece. -/
structure BufferInv (s : BufferState Tid) : Prop where
  chunk : ∀ c, ChunkOk s c
  regions : RegionsOk s
  opening : ∀ t, (s.threads t).pc.opening = true → ∃ c, (s.threads t).chunk = some c ∧ s.owners c = 0

omit [DecidableEq Tid] in
theorem bufferInv₀ : BufferInv (bufferState₀ : BufferState Tid) where
  chunk c := by
    have h1 : (bufferState₀ : BufferState Tid).slots c = 0 := tally_const_zero _ _ rfl
    have h2 : (bufferState₀ : BufferState Tid).releasing c = 0 := tally_const_zero _ _ rfl
    have h3 : (bufferState₀ : BufferState Tid).recycling c = 0 := tally_const_zero _ _ rfl
    have h4 : (bufferState₀ : BufferState Tid).owners c = 0 := rfl
    have h5 : ((bufferState₀ : BufferState Tid).chunks c).useCount = 0 := rfl
    have h6 : (bufferState₀ : BufferState Tid).pool.count c = 0 := rfl
    have h7 : (bufferState₀ : BufferState Tid).numChunks = 0 := rfl
    constructor <;> omega
  regions := ⟨by simp [bufferState₀], by simp [bufferState₀], by simp [bufferState₀], fun _ => Nat.zero_le _⟩
  opening t ht := by cases ht

omit [DecidableEq Tid] in
/-- **No thread moves**, and nothing that is counted changes. -/
theorem BufferInv.same (h : BufferInv s) (hth : s'.threads = s.threads)
    (huse : ∀ c, (s'.chunks c).useCount = (s.chunks c).useCount) (hpool : s'.pool = s.pool)
    (hnum : s'.numChunks = s.numChunks) (howners : ∀ c, s'.owners c = s.owners c) (hreg : RegionsOk s') :
    BufferInv s' := by
  refine ⟨fun c => ?_, hreg, fun t ht => ?_⟩
  · obtain ⟨hu, hp, hf, hk⟩ := h.chunk c
    constructor <;> simp only [huse, hpool, hnum, howners, BufferState.slots, BufferState.releasing,
      BufferState.recycling, hth] at * <;> assumption
  · rw [hth] at ht ⊢
    obtain ⟨c, hc, ho⟩ := h.opening t ht
    exact ⟨c, hc, by rw [howners]; exact ho⟩

omit [DecidableEq Tid] in
theorem BufferInv.crash (h : BufferInv s) : BufferInv s.crash :=
  ⟨fun c => ⟨(h.chunk c).use, (h.chunk c).place, (h.chunk c).free, (h.chunk c).known⟩,
    ⟨h.regions.before, h.regions.behind, h.regions.current, h.regions.used⟩, h.opening⟩

/-- **Who is opening**, once thread `t` has moved: the popped chunks of the others must not get a live piece. -/
theorem BufferInv.opening_update (h : BufferInv s) {t : Tid} {th : BufferThread}
    (hth : s'.threads = update s.threads t th)
    (howners : ∀ u d, u ≠ t → (s.threads u).chunk = some d → s.owners d = 0 → s'.owners d = 0)
    (ht : th.pc.opening = true → ∃ c, th.chunk = some c ∧ s'.owners c = 0) :
    ∀ u, (s'.threads u).pc.opening = true → ∃ c, (s'.threads u).chunk = some c ∧ s'.owners c = 0 := by
  rw [hth, forall_update_iff s.threads
    (p := fun _ th => th.pc.opening = true → ∃ c, th.chunk = some c ∧ s'.owners c = 0)]
  refine ⟨ht, fun u hut hu => ?_⟩
  obtain ⟨d, hd, ho⟩ := h.opening u hu
  exact ⟨d, hd, howners u d hut hd ho⟩

/-- The thread is at a place where it gives up no reference. -/
def BufferPc.still : BufferPc → Bool
  | .idle | .pop _ _ | .reset _ _ => true
  | _ => false

omit [DecidableEq Tid] [Fintype Tid] in
theorem releasing_of_still {th : BufferThread} (h : th.pc.still = true) (c : Nat) : th.releasing c = 0 := by
  unfold BufferThread.releasing
  split
  · rename_i hpc
    rw [hpc] at h
    cases h
  · rfl

omit [DecidableEq Tid] [Fintype Tid] in
theorem recycling_of_still {th : BufferThread} (h : th.pc.still = true) (c : Nat) : th.recycling c = 0 := by
  unfold BufferThread.recycling
  split
  · rename_i hpc
    rw [hpc] at h
    cases h
  · rfl

theorem BufferInv.goto (h : BufferInv s) {t : Tid} {pc : BufferPc} (ht : (s.threads t).pc.still = true)
    (hpc : pc.still = true) (hopening : pc.opening = false) : BufferInv (s.goto t pc) := by
  have hth : (s.goto t pc).threads = update s.threads t ⟨(s.threads t).chunk, pc⟩ := rfl
  refine ⟨fun c => ?_, ⟨h.regions.before, h.regions.behind, h.regions.current, h.regions.used⟩,
    h.opening_update hth (fun _ _ _ _ ho => ho) (fun ho => ?_)⟩
  · obtain ⟨hu, hp, hf, hk⟩ := h.chunk c
    obtain ⟨h1, ⟨h2, -⟩, h3, -⟩ := counts_goto hth c
    have hr : (⟨(s.threads t).chunk, pc⟩ : BufferThread).releasing c = 0 := releasing_of_still hpc c
    have hc : (⟨(s.threads t).chunk, pc⟩ : BufferThread).recycling c = 0 := recycling_of_still hpc c
    have hr' := releasing_of_still ht c
    have hc' := recycling_of_still ht c
    have huse : ((s.goto t pc).chunks c).useCount = (s.chunks c).useCount := rfl
    have hpool : (s.goto t pc).pool = s.pool := rfl
    have hnum : (s.goto t pc).numChunks = s.numChunks := rfl
    have howners : (s.goto t pc).owners c = s.owners c := rfl
    constructor <;> rw [hpool] at * <;> omega
  · rw [hopening] at ho
    cases ho

/-! ## Opening -/

omit [DecidableEq Tid] in
/-- A chunk in a thread's slot is in no other place. -/
theorem BufferInv.slot (h : BufferInv s) {t : Tid} {c : Nat} (hc : (s.threads t).chunk = some c) :
    s.slots c = 1 ∧ s.pool.count c = 0 ∧ s.recycling c = 0 := by
  have hp := (h.chunk c).place
  have hle := le_tally (BufferThread.slots c) s.threads t
  have : (s.threads t).slots c = 1 := if_pos hc
  simp only [BufferState.slots] at *
  omega

omit [DecidableEq Tid] in
theorem BufferInv.slot_unique (h : BufferInv s) {t u : Tid} {c : Nat} (ht : (s.threads t).chunk = some c)
    (hu : (s.threads u).chunk = some c) : t = u := by
  classical
  by_contra hne
  have h1 := (h.slot ht).1
  have h2 := add_le_tally (BufferThread.slots c) s.threads hne
  have h3 : (s.threads t).slots c = 1 := if_pos ht
  have h4 : (s.threads u).slots c = 1 := if_pos hu
  simp only [BufferState.slots] at h1
  omega

/-- **`SendBufferChunk::Open` on the thread's own chunk.** -/
theorem BufferInv.opened (h : BufferInv s) {t : Tid} {c size : Nat} (hc : (s.threads t).chunk = some c)
    (ht : (s.threads t).pc.still = true) (hopen : (s.chunks c).isOpen = false)
    (hsize : size ≤ (s.chunks c).freeSize) :
    BufferInv ({ s with
      chunks := update s.chunks c { s.chunks c with isOpen := true, useCount := (s.chunks c).useCount + 1 },
      buffers := s.buffers ++ [SendBuffer.new t c (s.chunks c).usedSize size] }.goto t .idle) := by
  have hth : (s.threads t).slots c = 1 := if_pos hc
  obtain ⟨hslot, hpool, hrecy⟩ := h.slot hc
  generalize hs' : BufferState.goto _ t .idle = s'
  have hthreads : s'.threads = update s.threads t ⟨(s.threads t).chunk, .idle⟩ := by rw [← hs']; rfl
  have hbuf : s'.buffers = s.buffers ++ [SendBuffer.new t c (s.chunks c).usedSize size] := by rw [← hs']; rfl
  have hchunks : s'.chunks = update s.chunks c
      { s.chunks c with isOpen := true, useCount := (s.chunks c).useCount + 1 } := by rw [← hs']; rfl
  have howners : ∀ d, s'.owners d = s.owners d + if d = c then 1 else 0 := by
    intro d
    simp only [BufferState.owners, hbuf, List.countP_append, List.countP_singleton, SendBuffer.liveOn,
      SendBuffer.new]
    by_cases hd : d = c <;> simp [hd, Ne.symm]
  refine ⟨fun d => ?_, h.regions.opened hopen hsize hbuf hchunks,
    h.opening_update hthreads (fun u d hut hd ho => ?_) (fun ho => by cases ho)⟩
  · obtain ⟨hu, hp, hf, hk⟩ := h.chunk d
    obtain ⟨h1, ⟨h2, -⟩, h3, -⟩ := counts_goto hthreads d
    have hr0 := releasing_of_still ht d
    have hc0 := recycling_of_still ht d
    have hr1 : (⟨(s.threads t).chunk, .idle⟩ : BufferThread).releasing d = 0 := rfl
    have hc1 : (⟨(s.threads t).chunk, .idle⟩ : BufferThread).recycling d = 0 := rfl
    have hpool' : s'.pool = s.pool := by rw [← hs']; rfl
    have hnum : s'.numChunks = s.numChunks := by rw [← hs']; rfl
    have how := howners d
    have huse : (s'.chunks d).useCount = (s.chunks d).useCount + if d = c then 1 else 0 := by
      rw [hchunks]
      by_cases hd : d = c
      · simp [hd]
      · rw [update_of_ne hd, if_neg hd, Nat.add_zero]
    constructor <;> rw [hpool'] at * <;> by_cases hd : d = c <;> simp only [hd, if_true, if_false] at * <;> omega
  · have hdc : d ≠ c := fun hdc => hut (h.slot_unique hd (hdc ▸ hc))
    rw [howners, ho, if_neg hdc]

theorem BufferInv.openStep (h : BufferInv s) {t : Tid} {c size : Nat} {second : Bool}
    (hc : (s.threads t).chunk = some c) (ht : (s.threads t).pc.still = true)
    (hstep : BufferState.OpenStep s t c size second s') : BufferInv s' := by
  cases hstep with
  | crash _ => exact h.crash
  | popAgain _ _ _ | refused _ _ _ => exact h.goto ht rfl rfl
  | opened hopen hsize => exact h.opened hc ht hopen hsize

/-- **A popped chunk is assigned to `LSendBufferChunk`.**  It has one reference and no live piece; `s₁` is the state
after `Pop`. -/
theorem BufferInv.assign (h : BufferInv s) {s₁ : BufferState Tid} {t : Tid} {c size : Nat} {second : Bool}
    (ht : (s.threads t).pc.still = true) (hthreads : s₁.threads = s.threads) (hbuf : s₁.buffers = s.buffers)
    (hpool : ∀ d, s₁.pool.count d + (if d = c then (s.chunks d).useCount else 0) = s.pool.count d)
    (huse : ∀ d, (s₁.chunks d).useCount = if d = c then 1 else (s.chunks d).useCount)
    (hfree : s.slots c = 0 ∧ s.owners c = 0 ∧ s.releasing c = 0 ∧ s.recycling c = 0)
    (hnum : ∀ d, d < s₁.numChunks ↔ d < s.numChunks ∨ d = c) (hreg : RegionsOk s₁) :
    BufferInv (s₁.assign t c size second) := by
  generalize hs' : s₁.assign t c size second = s'
  have hth : s'.threads =
      update s.threads t ⟨some c, BufferState.afterAssign size second (s.threads t).chunk⟩ := by
    rw [← hs', BufferState.assign, hthreads]
  have hbuf' : s'.buffers = s.buffers := by rw [← hs', BufferState.assign, hbuf]
  have hpool' : s'.pool = s₁.pool := by rw [← hs', BufferState.assign]
  have hchunks : s'.chunks = s₁.chunks := by rw [← hs', BufferState.assign]
  have hnum' : s'.numChunks = s₁.numChunks := by rw [← hs', BufferState.assign]
  have howners : ∀ d, s'.owners d = s.owners d := fun d => by simp only [BufferState.owners, hbuf']
  refine ⟨fun d => ?_, ?_, h.opening_update hth (fun _ d _ _ ho => (howners d).trans ho)
    (fun _ => ⟨c, rfl, (howners c).trans hfree.2.1⟩)⟩
  · obtain ⟨hu, hp, hf, hk⟩ := h.chunk d
    obtain ⟨⟨h1, h1'⟩, ⟨h2, -⟩, h3, -⟩ := counts_update hth d
    have hr0 := releasing_of_still ht d
    have hc0 := recycling_of_still ht d
    have hpd := hpool d
    have hud := huse d
    have hnd := hnum d
    have hod := howners d
    rw [← hchunks] at hud
    rw [← hpool'] at hpd
    rw [← hnum'] at hnd
    generalize hth' : (⟨some c, _⟩ : BufferThread) = th at h1 h2 h3
    have hslots : th.slots d = if d = c then 1 else 0 := by
      rw [← hth', BufferThread.slots]
      simp only [Option.some.injEq, eq_comm]
    have hrel : th.releasing d = (s.threads t).slots d := by
      rw [← hth', BufferThread.releasing, BufferThread.slots]
      cases (s.threads t).chunk <;> simp [BufferState.afterAssign]
    have hrec : th.recycling d = 0 := by
      rw [← hth', BufferThread.recycling]
      cases (s.threads t).chunk <;> rfl
    by_cases hd : d = c
    · subst hd
      obtain ⟨hf1, hf2, hf3, hf4⟩ := hfree
      rw [if_pos rfl] at hpd hud hslots
      constructor <;> omega
    · rw [if_neg hd] at hpd hud hslots
      constructor <;> omega
  · exact ⟨by rw [← hs']; exact hreg.before, by rw [← hs']; exact hreg.behind, by rw [← hs']; exact hreg.current,
      by rw [← hs']; exact hreg.used⟩

/-- **`Pop` takes a chunk from the pool.** -/
theorem BufferInv.pop (h : BufferInv s) {t : Tid} {c size : Nat} {second : Bool}
    (ht : (s.threads t).pc.still = true) (hlast : s.pool.getLast? = some c) :
    BufferInv ({ s with pool := s.pool.dropLast }.assign t c size second) := by
  have hpool : s.pool = s.pool.dropLast ++ [c] := (List.dropLast_append_getLast? c hlast).symm
  have hcount : ∀ d, s.pool.dropLast.count d + (if d = c then 1 else 0) = s.pool.count d := by
    intro d
    conv_rhs => rw [hpool]
    rw [List.count_append, List.count_singleton]
    by_cases hd : d = c
    · simp [hd]
    · simp [hd, Ne.symm hd]
  obtain ⟨hu, hp, hf, hk⟩ := h.chunk c
  have hc := hcount c
  rw [if_pos rfl] at hc
  refine h.assign ht rfl rfl (fun d => ?_) (fun d => ?_) (by omega) (fun d => ?_)
    ⟨h.regions.before, h.regions.behind, h.regions.current, h.regions.used⟩
  · by_cases hd : d = c
    · subst hd
      simp only [if_true]
      omega
    · have := hcount d
      simp only [hd, if_false] at this ⊢
      exact this
  · by_cases hd : d = c
    · subst hd
      simp only [if_true]
      omega
    · simp only [hd, if_false]
  · simp only
    constructor
    · exact .inl
    · rintro (hd | rfl)
      · exact hd
      · omega

/-- **`Pop` makes a chunk.** -/
theorem BufferInv.make (h : BufferInv s) {t : Tid} {size : Nat} {second : Bool}
    (ht : (s.threads t).pc.still = true) :
    BufferInv ({ s with
      chunks := update s.chunks s.numChunks .new, numChunks := s.numChunks + 1 }.assign t s.numChunks size second) := by
  obtain ⟨hu, hp, hf, hk⟩ := h.chunk s.numChunks
  refine h.assign ht rfl rfl (fun d => ?_) (fun d => ?_) (by omega) (fun d => ?_) (h.regions.mono ?_ (fun d => ?_))
  · by_cases hd : d = s.numChunks
    · subst hd
      simp only [if_true]
      omega
    · simp only [hd, if_false, Nat.add_zero]
  · by_cases hd : d = s.numChunks
    · subst hd
      simp [SendBufferChunk.new]
    · simp only [update_of_ne hd, hd, if_false]
  · simp only
    omega
  · exact fun i b hi hr => ⟨b, hi, hr, rfl, rfl, rfl, rfl, rfl⟩
  · by_cases hd : d = s.numChunks
    · subst hd
      exact .inr ⟨by omega, by simp [SendBufferChunk.new]⟩
    · refine .inl ?_
      simp only [update_of_ne hd, and_self]

/-! ## Giving up references -/

omit [DecidableEq Tid] [Fintype Tid] in
theorem still_afterRelease (after : Option (Nat × Bool)) : (BufferState.afterRelease after).still = true := by
  cases after <;> rfl

/-- A thread goes on and a chunk is counted anew: no piece changes, so only the counts have to be checked. -/
theorem BufferInv.counted (h : BufferInv s) {t : Tid} {c useCount : Nat} {pc : BufferPc}
    (hth : s'.threads = update s.threads t ⟨(s.threads t).chunk, pc⟩)
    (hchunks : s'.chunks = update s.chunks c { s.chunks c with useCount := useCount })
    (hbuf : s'.buffers = s.buffers) (hopening : pc.opening = true → (s.threads t).pc.opening = true)
    (hchunk : ∀ d, ChunkOk s' d) : BufferInv s' := by
  have howners : ∀ d, s'.owners d = s.owners d := fun d => by simp only [BufferState.owners, hbuf]
  refine ⟨hchunk, h.regions.mono (fun i b hi hr => ⟨b, by rwa [hbuf] at hi, hr, rfl, rfl, rfl, rfl, rfl⟩)
    (fun d => .inl ?_), h.opening_update hth (fun _ d _ _ ho => (howners d).trans ho) (fun hop => ?_)⟩
  · rw [hchunks]
    exact ⟨apply_update_of_eq SendBufferChunk.isOpen s.chunks (by rfl) d,
      apply_update_of_eq SendBufferChunk.usedSize s.chunks (by rfl) d⟩
  · obtain ⟨d, hd, ho⟩ := h.opening t (hopening hop)
    exact ⟨d, hd, (howners d).trans ho⟩

/-- **A reference to a chunk is given up**; the last one leaves the chunk to be recycled. -/
theorem BufferInv.release (h : BufferInv s) {t : Tid} {c : Nat} {after : Option (Nat × Bool)}
    (hpc : (s.threads t).pc = .release c after) :
    BufferInv ({ s with
      chunks := update s.chunks c { s.chunks c with useCount := (s.chunks c).useCount - 1 } }.goto t
      (if (s.chunks c).useCount = 1 then .recycle c after else BufferState.afterRelease after)) := by
  generalize hs' : BufferState.goto _ t _ = s'
  obtain ⟨pc, hpc'⟩ : ∃ pc, pc =
      if (s.chunks c).useCount = 1 then .recycle c after else BufferState.afterRelease after := ⟨_, rfl⟩
  rw [← hpc'] at hs'
  have hth : s'.threads = update s.threads t ⟨(s.threads t).chunk, pc⟩ := by rw [← hs']; rfl
  have hchunks : s'.chunks = update s.chunks c { s.chunks c with useCount := (s.chunks c).useCount - 1 } := by
    rw [← hs']; rfl
  have hpool : s'.pool = s.pool := by rw [← hs']; rfl
  have hnum : s'.numChunks = s.numChunks := by rw [← hs']; rfl
  have hbuf : s'.buffers = s.buffers := by rw [← hs']; rfl
  have howners : ∀ d, s'.owners d = s.owners d := fun d => by simp only [BufferState.owners, hbuf]
  refine h.counted hth hchunks hbuf (fun hop => ?_) (fun d => ?_)
  · rw [hpc]
    rw [hpc'] at hop
    split at hop <;> cases after <;> first | rfl | cases hop
  · obtain ⟨hu, hp, hf, hk⟩ := h.chunk d
    obtain ⟨h1, ⟨h2, h2'⟩, h3, -⟩ := counts_goto hth d
    have hod := howners d
    have hr0 : (s.threads t).releasing d = if c = d then 1 else 0 := by
      rw [BufferThread.releasing, hpc]
    have hc0 : (s.threads t).recycling d = 0 := by
      rw [BufferThread.recycling, hpc]
    have hr1 : (⟨(s.threads t).chunk, pc⟩ : BufferThread).releasing d = 0 := by
      rw [hpc']
      split
      · rfl
      · exact releasing_of_still (still_afterRelease after) d
    have hc1 : (⟨(s.threads t).chunk, pc⟩ : BufferThread).recycling d =
        if (s.chunks c).useCount = 1 ∧ c = d then 1 else 0 := by
      rw [hpc']
      split
      · rename_i hlast
        simp [BufferThread.recycling, hlast]
      · rename_i hlast
        rw [if_neg (fun h => hlast h.1)]
        exact recycling_of_still (still_afterRelease after) d
    have huse : (s'.chunks d).useCount = (s.chunks d).useCount - if c = d then 1 else 0 := by
      rw [hchunks]
      by_cases hd : d = c
      · simp [hd]
      · rw [update_of_ne hd, if_neg (Ne.symm hd), Nat.sub_zero]
    rw [← hpool] at hu hp hf
    by_cases hd : c = d
    · subst hd
      rw [if_pos rfl] at hr0 huse
      by_cases hlast : (s.chunks c).useCount = 1
      · rw [if_pos ⟨hlast, rfl⟩] at hc1
        constructor <;> omega
      · rw [if_neg (fun h => hlast h.1)] at hc1
        constructor <;> omega
    · rw [if_neg hd] at hr0 huse
      rw [if_neg (fun h => hd h.2)] at hc1
      constructor <;> omega

/-- **A chunk without references goes into the pool.** -/
theorem BufferInv.recycle (h : BufferInv s) {t : Tid} {c : Nat} {after : Option (Nat × Bool)}
    (hpc : (s.threads t).pc = .recycle c after) :
    BufferInv ({ s with
      chunks := update s.chunks c { s.chunks c with useCount := 1 }, pool := s.pool ++ [c] }.goto t
      (BufferState.afterRelease after)) := by
  generalize hs' : BufferState.goto _ t _ = s'
  have hth : s'.threads = update s.threads t ⟨(s.threads t).chunk, BufferState.afterRelease after⟩ := by
    rw [← hs']; rfl
  have hchunks : s'.chunks = update s.chunks c { s.chunks c with useCount := 1 } := by rw [← hs']; rfl
  have hpool : s'.pool = s.pool ++ [c] := by rw [← hs']; rfl
  have hnum : s'.numChunks = s.numChunks := by rw [← hs']; rfl
  have hbuf : s'.buffers = s.buffers := by rw [← hs']; rfl
  have howners : ∀ d, s'.owners d = s.owners d := fun d => by simp only [BufferState.owners, hbuf]
  refine h.counted hth hchunks hbuf (fun hop => ?_) (fun d => ?_)
  · rw [hpc]
    cases after <;> first | rfl | cases hop
  · obtain ⟨hu, hp, hf, hk⟩ := h.chunk d
    obtain ⟨h1, ⟨h2, -⟩, h3, h3'⟩ := counts_goto hth d
    have hod := howners d
    have hr0 : (s.threads t).releasing d = 0 := by
      rw [BufferThread.releasing, hpc]
    have hc0 : (s.threads t).recycling d = if c = d then 1 else 0 := by
      rw [BufferThread.recycling, hpc]
    have hr1 : (⟨(s.threads t).chunk, BufferState.afterRelease after⟩ : BufferThread).releasing d = 0 :=
      releasing_of_still (still_afterRelease after) d
    have hc1 : (⟨(s.threads t).chunk, BufferState.afterRelease after⟩ : BufferThread).recycling d = 0 :=
      recycling_of_still (still_afterRelease after) d
    by_cases hd : c = d
    · subst hd
      have huse : (s'.chunks c).useCount = 1 := by rw [hchunks, update_self]
      have hcount : s'.pool.count c = s.pool.count c + 1 := by simp [hpool]
      rw [if_pos rfl] at hc0
      constructor <;> omega
    · have huse : (s'.chunks d).useCount = (s.chunks d).useCount := by rw [hchunks, update_of_ne (Ne.symm hd)]
      have hcount : s'.pool.count d = s.pool.count d := by simp [hpool, hd]
      rw [if_neg hd] at hc0
      constructor <;> omega

omit [DecidableEq Tid] in
/-- **`Reset` of a chunk with no live piece.** -/
theorem BufferInv.reset (h : BufferInv s) {c : Nat} (ho : s.owners c = 0) :
    BufferInv { s with chunks := update s.chunks c (s.chunks c).reset } := by
  refine h.same rfl (fun d => ?_) rfl rfl (fun _ => rfl) (h.regions.mono ?_ (fun d => ?_))
  · exact apply_update_of_eq SendBufferChunk.useCount s.chunks (by rfl) d
  · exact fun i b hi hr => ⟨b, hi, hr, rfl, rfl, rfl, rfl, rfl⟩
  · dsimp only
    by_cases hd : d = c
    · rw [hd, update_self]
      exact .inr ⟨ho, Nat.zero_le _⟩
    · rw [update_of_ne hd]
      exact .inl ⟨rfl, rfl⟩

theorem BufferInv.next (h : BufferInv s) {t : Tid} (hstep : BufferState.NextStep s t s') : BufferInv s' := by
  cases hstep with
  | pop hpc hlast => exact h.pop (by rw [hpc]; rfl) hlast
  | make hpc _ => exact h.make (by rw [hpc]; rfl)
  | release hpc => exact h.release hpc
  | recycle hpc => exact h.recycle hpc
  | reset hpc hc hopen =>
    obtain ⟨d, hd, ho⟩ := h.opening t (by rw [hpc]; rfl)
    cases hc.symm.trans hd
    exact (h.reset ho).openStep (by exact hc) (by simp only [hpc]; rfl) hopen

/-! ## Steps on a send buffer -/

omit [Fintype Tid] [DecidableEq Tid] in
theorem samePiece_set {i : Nat} {b b₁ : SendBuffer Tid} (hi : s.buffers[i]? = some b) (hr : b.refs ≠ 0)
    (hbuf : s'.buffers = s.buffers.set i b₁) (hs : SamePiece b b₁) :
    ∀ (j : Nat) (b' : SendBuffer Tid), s'.buffers[j]? = some b' → b'.refs ≠ 0 →
      ∃ x, s.buffers[j]? = some x ∧ x.refs ≠ 0 ∧ SamePiece x b' := by
  intro j b' hj hr'
  rw [hbuf, List.getElem?_set] at hj
  split at hj
  · rename_i hij
    subst hij
    split at hj
    · cases hj
      exact ⟨b, hi, hr, hs⟩
    · cases hj
  · exact ⟨b', hj, hr', rfl, rfl, rfl, rfl, rfl⟩

/-- **A `SendBufferRef` is dropped**; with the last one the reference to the chunk will be given up. -/
theorem BufferInv.dropRef (h : BufferInv s) {t : Tid} {i : Nat} {b : SendBuffer Tid} (hi : s.buffers[i]? = some b)
    (hr : b.refs ≠ 0) (hpc : (s.threads t).pc = .idle) :
    BufferInv ({ s with buffers := s.buffers.set i { b with refs := b.refs - 1 } }.goto t
      (if b.refs = 1 then .release b.owner none else .idle)) := by
  generalize hs' : BufferState.goto _ t _ = s'
  obtain ⟨pc, hpc'⟩ : ∃ pc, pc = if b.refs = 1 then BufferPc.release b.owner none else .idle := ⟨_, rfl⟩
  rw [← hpc'] at hs'
  have hth : s'.threads = update s.threads t ⟨(s.threads t).chunk, pc⟩ := by rw [← hs']; rfl
  have hbuf : s'.buffers = s.buffers.set i { b with refs := b.refs - 1 } := by rw [← hs']; rfl
  have hchunks : s'.chunks = s.chunks := by rw [← hs']; rfl
  have hpool : s'.pool = s.pool := by rw [← hs']; rfl
  have hnum : s'.numChunks = s.numChunks := by rw [← hs']; rfl
  have howners : ∀ d, s'.owners d + (if b.owner = d then 1 else 0) =
      s.owners d + if b.refs ≠ 1 ∧ b.owner = d then 1 else 0 := by
    intro d
    have := owners_set hi { b with refs := b.refs - 1 } d
    rw [← hbuf] at this
    have h1 : b.refs - 1 ≠ 0 ↔ b.refs ≠ 1 := by omega
    simp only [SendBuffer.liveOn, ne_eq, hr, not_false_eq_true, true_and, decide_eq_true_eq] at this
    simp only [BufferState.owners, ne_eq]
    by_cases h2 : b.refs = 1
    · simp only [h2, Nat.sub_self, not_true, false_and, if_false] at this ⊢
      exact this
    · have h3 : ¬ b.refs - 1 = 0 := by omega
      simp only [h3, h2, not_false_eq_true, true_and] at this ⊢
      exact this
  refine ⟨fun d => ?_, h.regions.mono (samePiece_set hi hr hbuf (.refs ..))
    (fun d => .inl (by rw [hchunks]; exact ⟨rfl, rfl⟩)), h.opening_update hth (fun _ d _ _ h0 => ?_) (fun hop => ?_)⟩
  · obtain ⟨hu, hp, hf, hk⟩ := h.chunk d
    obtain ⟨h1, ⟨h2, h2'⟩, h3, -⟩ := counts_goto hth d
    have hod := howners d
    have hr0 : (s.threads t).releasing d = 0 := releasing_of_still (by rw [hpc]; rfl) d
    have hc0 : (s.threads t).recycling d = 0 := recycling_of_still (by rw [hpc]; rfl) d
    have hr1 : (⟨(s.threads t).chunk, pc⟩ : BufferThread).releasing d =
        if b.refs = 1 ∧ b.owner = d then 1 else 0 := by
      rw [hpc']
      split <;> rename_i hlast <;> simp [BufferThread.releasing, hlast]
    have hc1 : (⟨(s.threads t).chunk, pc⟩ : BufferThread).recycling d = 0 := by
      rw [hpc']
      split <;> rfl
    rw [← hpool] at hu hp hf
    rw [← hchunks] at hu hk
    by_cases hd : b.owner = d
    · rw [if_pos hd] at hod
      by_cases hlast : b.refs = 1
      · rw [if_pos ⟨hlast, hd⟩] at hr1
        rw [if_neg (fun h => h.1 hlast)] at hod
        constructor <;> omega
      · rw [if_neg (fun h => hlast h.1)] at hr1
        rw [if_pos ⟨hlast, hd⟩] at hod
        constructor <;> omega
    · rw [if_neg (fun h => hd h.2)] at hr1
      rw [if_neg hd, if_neg (fun h => hd h.2)] at hod
      constructor <;> omega
  · have := howners d
    by_cases hd : b.owner = d
    · rw [if_pos hd] at this
      split at this <;> omega
    · rw [if_neg hd, if_neg (fun h => hd h.2)] at this
      omega
  · simp only [hpc'] at hop
    split at hop <;> cases hop

omit [DecidableEq Tid] in
theorem BufferInv.store (h : BufferInv s) (c : Nat) (buffer : Nat → BYTE) :
    BufferInv { s with chunks := update s.chunks c { s.chunks c with buffer := buffer } } := by
  refine h.same rfl (fun d => apply_update_of_eq SendBufferChunk.useCount s.chunks (by rfl) d) rfl rfl (fun _ => rfl)
    (h.regions.mono (fun i b hi hr => ⟨b, hi, hr, rfl, rfl, rfl, rfl, rfl⟩) (fun d => .inl ⟨?_, ?_⟩))
  · exact apply_update_of_eq SendBufferChunk.isOpen s.chunks (by rfl) d
  · exact apply_update_of_eq SendBufferChunk.usedSize s.chunks (by rfl) d

/-- **The step lemma of the send buffers.** -/
theorem bufferStep_inv (h : BufferInv s) {a : BufferAct Tid} (he : bufferStep s a = some s')
    (hok : ByOpener s a s') : BufferInv s' := by
  cases bufferStep_effect he with
  | pop hpc _ => exact h.goto (by rw [hpc]; rfl) rfl rfl
  | openCall hpc hc hopen => exact h.openStep hc (by rw [hpc]; rfl) hopen
  | next hstep => exact h.next hstep
  | @write _ _ _ _ b _ _ _ => exact h.store b.owner _
  | closeFails _ _ _ _ => exact h.crash
  | @close _ _ n b hi hr _ hn _ =>
    obtain ⟨-, hcl, -⟩ := hok b hi
    refine h.same rfl (fun d => apply_update_of_eq SendBufferChunk.useCount s.chunks (by rfl) d) rfl rfl
      (fun d => ?_) (h.regions.close hi hr hcl hn rfl rfl)
    have := owners_set hi { b with writeSize := n, closed := true } d
    simp only [SendBuffer.liveOn] at this
    simp only [BufferState.owners]
    exact Nat.add_right_cancel this
  | @copyRef _ b hi hr =>
    refine h.same rfl (fun _ => rfl) rfl rfl (fun d => ?_)
      (h.regions.mono (samePiece_set hi hr rfl (.refs ..)) (fun _ => .inl ⟨rfl, rfl⟩))
    have := owners_set hi { b with refs := b.refs + 1 } d
    have h1 : b.refs + 1 ≠ 0 := by omega
    simp only [SendBuffer.liveOn, ne_eq, hr, h1, not_false_eq_true] at this
    simp only [BufferState.owners]
    exact Nat.add_right_cancel this
  | dropRef hi hr hpc => exact h.dropRef hi hr hpc

/-! ## No aliasing -/

/-- The states of the runs in which each buffer is closed at most once, by the thread that opened it. -/
def BufferReach (s : BufferState Tid) : Prop := Reach bufferStep ByOpener bufferState₀ s

theorem BufferReach.inv (h : BufferReach s) : BufferInv s :=
  Reach.inv (P := BufferInv) h bufferInv₀ (fun _ _ _ _ hI he hok => bufferStep_inv hI he hok)

/-- The chunk is in exactly one place: one thread's slot, one entry of the pool, or kept by live send buffers only. -/
def InOnePlace (s : BufferState Tid) (c : Nat) : Prop :=
  (∃! t, (s.threads t).chunk = some c) ∧ c ∉ s.pool ∨
  (∀ t, (s.threads t).chunk ≠ some c) ∧ s.pool.count c = 1 ∧ (∀ b ∈ s.buffers, b.refs ≠ 0 → b.owner ≠ c) ∨
  (∀ t, (s.threads t).chunk ≠ some c) ∧ c ∉ s.pool ∧ ∃ b ∈ s.buffers, b.refs ≠ 0 ∧ b.owner = c

omit [Fintype Tid] [DecidableEq Tid] in
theorem owner_ne_of_owners {c : Nat} (h : s.owners c = 0) : ∀ b ∈ s.buffers, b.refs ≠ 0 → b.owner ≠ c := by
  intro b hb hr ho
  have := List.countP_eq_zero.1 h b hb
  simp [SendBuffer.liveOn, hr, ho] at this

omit [DecidableEq Tid] in
theorem BufferInv.inOnePlace (h : BufferInv s) {c : Nat} (hc : c < s.numChunks)
    (hstill : ∀ t, (s.threads t).releasing c = 0 ∧ (s.threads t).recycling c = 0) : InOnePlace s c := by
  obtain ⟨hu, hp, hf, hk⟩ := h.chunk c
  have hrel : s.releasing c = 0 := (tally_eq_zero _ _).2 (fun t => (hstill t).1)
  have hrec : s.recycling c = 0 := (tally_eq_zero _ _).2 (fun t => (hstill t).2)
  have hpos := hk.1 hc
  have hslot0 : s.slots c = 0 → ∀ t, (s.threads t).chunk ≠ some c := fun h0 t ht => by
    have := (h.slot ht).1
    omega
  by_cases hs : s.slots c = 0
  · by_cases hpool : s.pool.count c = 0
    · obtain ⟨b, hb, hlive⟩ := List.countP_pos_iff.1 (show 0 < s.owners c by omega)
      have := of_decide_eq_true hlive
      exact .inr (.inr ⟨hslot0 hs, List.count_eq_zero.1 hpool, b, hb, this⟩)
    · exact .inr (.inl ⟨hslot0 hs, by omega, owner_ne_of_owners (by omega)⟩)
  · obtain ⟨t, ht⟩ := exists_of_tally_pos _ _ (Nat.pos_of_ne_zero hs)
    have ht : (s.threads t).chunk = some c := by
      unfold BufferThread.slots at ht
      split at ht
      · assumption
      · omega
    exact .inl ⟨⟨t, ht, fun u hu => h.slot_unique hu ht⟩, List.count_eq_zero.1 (by omega)⟩

/-- **Send buffers never alias**: in every interleaving a chunk nobody is about to give up or to recycle is in exactly
one place; a chunk with a live send buffer is not in the pool and not about to be reset; and on one chunk a live
buffer opened later starts where every live one opened before, which is then closed, has ended, inside the chunk. -/
theorem send_buffers_never_alias (h : BufferReach s) :
    (∀ c, c < s.numChunks → (∀ t, (s.threads t).releasing c = 0 ∧ (s.threads t).recycling c = 0) →
      InOnePlace s c) ∧
    (∀ b ∈ s.buffers, b.refs ≠ 0 → b.owner ∉ s.pool ∧
      ∀ t size second, (s.threads t).pc = .reset size second → (s.threads t).chunk ≠ some b.owner) ∧
    (∀ (i j : Nat) (a b : SendBuffer Tid), i ≠ j → s.buffers[i]? = some a → s.buffers[j]? = some b → a.refs ≠ 0 →
      b.refs ≠ 0 → a.owner = b.owner → a.closed = true → b.closed = true →
      a.buffer + a.writeSize ≤ b.buffer ∨ b.buffer + b.writeSize ≤ a.buffer) ∧
    (∀ b ∈ s.buffers, b.refs ≠ 0 → b.closed = true → b.buffer + b.writeSize ≤ SEND_BUFFER_CHUNK_SIZE) ∧
    (∀ (i j : Nat) (a b : SendBuffer Tid), i < j → s.buffers[i]? = some a → s.buffers[j]? = some b → a.refs ≠ 0 →
      b.refs ≠ 0 → a.owner = b.owner → a.closed = true ∧ a.buffer + a.writeSize ≤ b.buffer) := by
  have hI := h.inv
  refine ⟨fun c hc hstill => hI.inOnePlace hc hstill, fun b hb hr => ⟨fun hp => ?_, fun t size second hpc ht => ?_⟩,
    fun i j a b hij ha hb hra hrb how hca hcb => ?_, fun b hb hr hcl => ?_, hI.regions.before⟩
  · rcases (hI.chunk b.owner).free with h0 | h0
    · have := List.count_pos_iff.2 hp
      omega
    · exact owner_ne_of_owners (by omega) b hb hr rfl
  · obtain ⟨c, hc, h0⟩ := hI.opening t (by rw [hpc]; rfl)
    rw [ht] at hc
    exact owner_ne_of_owners h0 b hb hr (Option.some.inj hc)
  · rcases Nat.lt_or_gt_of_ne hij with hlt | hgt
    · exact .inl (hI.regions.before i j a b hlt ha hb hra hrb how).2
    · exact .inr (hI.regions.before j i b a hgt hb ha hrb hra how.symm).2
  · obtain ⟨i, hi⟩ := List.getElem?_of_mem hb
    exact Nat.le_trans (hI.regions.behind i b hi hr hcl) (hI.regions.used b.owner)

/-- Thread one fills most of a chunk, keeps the buffer and opens another; thread two opens one of its own and drops
it. -/
def threeBuffers : List (BufferAct Two) :=
  [.openCall .one 10, .next .one, .openCall .two 100, .next .one, .next .two, .close .one 0 4, .next .two,
   .openCall .one 5000, .copyRef 0, .close .one 2 4999, .openCall .one 2000, .next .one, .close .two 1 90,
   .dropRef .two 1, .next .one, .next .one, .close .one 3 8]

theorem send_buffers_never_alias_three : ∃ s,
    run bufferStep ByOpener (bufferState₀ : BufferState Two) threeBuffers = some s ∧
    s.numChunks = 3 ∧ InOnePlace s 0 ∧ InOnePlace s 2 ∧ ∀ b ∈ s.buffers, b.refs ≠ 0 → b.owner ∉ s.pool := by
  obtain ⟨s, hrun, hr⟩ := reach_of_run bufferStep ByOpener (bufferState₀ : BufferState Two) threeBuffers (by decide)
  have hs : (run bufferStep ByOpener (bufferState₀ : BufferState Two) threeBuffers).map
      (fun s => (s.numChunks, s.threads .one, s.threads .two)) =
      some (3, ⟨some 2, .idle⟩, ⟨some 1, .release 1 none⟩) := by decide
  simp only [hrun, Option.map_some, Option.some.injEq, Prod.mk.injEq] at hs
  obtain ⟨hnum, h0, h1⟩ := hs
  have hstill : ∀ c, c ≠ 1 → ∀ t, (s.threads t).releasing c = 0 ∧ (s.threads t).recycling c = 0 := fun c hc t => by
    cases t with
    | one => rw [h0]; exact ⟨rfl, rfl⟩
    | two => rw [h1]; exact ⟨if_neg (Ne.symm hc), rfl⟩
  obtain ⟨hplace, hpool, -⟩ := send_buffers_never_alias hr
  exact ⟨s, hrun, hnum, hplace 0 (by omega) (hstill 0 (by decide)), hplace 2 (by omega) (hstill 2 (by decide)),
    fun b hb hlive => (hpool b hb hlive).1⟩

end Geon
