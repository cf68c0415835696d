import GeonServer.ChatLimit
/-!
# OpenClose — send buffers opened and closed in turn

Threads that close each send buffer before they open the next never run into one of the three layers of checks.  The
chunk of a thread is open only while the thread has a send buffer that it has not closed (`OpenersOk`), so
`SendBufferManager::Open` finds it closed, and finds room in it or in the one popped next.  The used size of a chunk is
kept beside the history of its `Reset`s and `Close`s (`closedSince`).
-/
namespace Geon

open Lts Function

variable {Tid : Type} [DecidableEq Tid] {s s' : BufferState Tid}

/-! ## The calls and their history -/

/-- Each thread asks for 1 to 6000 bytes, once all it has opened is closed, and closes each send buffer itself, once,
with no more than was allocated.  Stores and references are free. -/
def InTurn (s : BufferState Tid) (a : BufferAct Tid) (_ : BufferState Tid) : Prop :=
  match a with
  | .openCall t size => (1 ≤ size ∧ size ≤ SEND_BUFFER_CHUNK_SIZE) ∧ ∀ b ∈ s.buffers, b.opener = t → b.closed = true
  | .close t i writeSize => ∀ b ∈ s.buffers[i]?, b.opener = t ∧ b.closed = false ∧ writeSize ≤ b.allocSize
  | _ => True

instance (s s' : BufferState Tid) (a : BufferAct Tid) : Decidable (InTurn s a s') :=
  match a with
  | .openCall .. => inferInstanceAs (Decidable ((_ ∧ _) ∧ ∀ b ∈ _, _ → _))
  | .close .. => inferInstanceAs (Decidable (∀ b ∈ _, _))
  | .next .. | .write .. | .copyRef .. | .dropRef .. => .isTrue trivial

/-- What changes the used size of a chunk. -/
inductive ChunkEvent
  | reset (chunk : Nat)
  | closed (chunk writeSize : Nat)
  deriving DecidableEq, Repr

def BufferState.events (s : BufferState Tid) : BufferAct Tid → List ChunkEvent
  | .next t =>
    match (s.threads t).pc, (s.threads t).chunk with
    | .reset _ _, some c => [.reset c]
    | _, _ => []
  | .close _ i writeSize =>
    match s.buffers[i]? with
    | some b => [.closed b.owner writeSize]
    | none => []
  | _ => []

/-- A step of the send buffers with the history, the last event first. -/
def loggedStep (x : BufferState Tid × List ChunkEvent) (a : BufferAct Tid) :
    Option (BufferState Tid × List ChunkEvent) :=
  (bufferStep x.1 a).map (fun s' => (s', x.1.events a ++ x.2))

/-- The sum of the write sizes closed on the chunk since its last `Reset`. -/
def closedSince (c : Nat) : List ChunkEvent → Nat
  | [] => 0
  | .reset c' :: log => if c' = c then 0 else closedSince c log
  | .closed c' writeSize :: log => (if c' = c then writeSize else 0) + closedSince c log

/-- The size that the `Open` in progress was asked for. -/
def BufferPc.asked : BufferPc → Option Nat
  | .pop size _ | .release _ (some (size, _)) | .recycle _ (some (size, _)) | .reset size _ => some size
  | .idle | .release _ none | .recycle _ none => none

/-- With this step `Open(size)` of thread `t` returns. -/
def OpenReturns (s : BufferState Tid) (a : BufferAct Tid) (s' : BufferState Tid) (t : Tid) (size : Nat) : Prop :=
  (a = .openCall t size ∨ a = .next t ∧ (s.threads t).pc.asked = some size) ∧ (s'.threads t).pc = .idle

/-! ## Who has a chunk open -/

/-- **A chunk in the slot of a thread is open only for a send buffer of that thread**, one that is not closed.  What a
popped chunk was left like does not matter before `Reset`. -/
def OpenersOk (s : BufferState Tid) : Prop :=
  ∀ t c, (s.threads t).chunk = some c → (s.threads t).pc.opening = false → (s.chunks c).isOpen = true →
    ∃ b ∈ s.buffers, b.opener = t ∧ b.closed = false ∧ b.owner = c

omit [DecidableEq Tid] in
/-- No chunk is opened, and the send buffers it is open for are kept. -/
theorem OpenersOk.mono (h : OpenersOk s)
    (hth : ∀ t, (s'.threads t).pc.opening = false →
      (s'.threads t).chunk = (s.threads t).chunk ∧ (s.threads t).pc.opening = false)
    (hopen : ∀ c, (s'.chunks c).isOpen = true → (s.chunks c).isOpen = true ∧ ∀ b ∈ s.buffers, b.closed = false →
      b.owner = c → ∃ b' ∈ s'.buffers, b'.opener = b.opener ∧ b'.closed = false ∧ b'.owner = c) : OpenersOk s' := by
  intro t c hc hpc ho
  obtain ⟨hchunk, hpc⟩ := hth t hpc
  obtain ⟨ho, hkept⟩ := hopen c ho
  obtain ⟨b, hb, hopener, hcl, hown⟩ := h t c (hchunk ▸ hc) hpc ho
  obtain ⟨b', hb', hopener', hcl', hown'⟩ := hkept b hb hcl hown
  exact ⟨b', hb', hopener'.trans hopener, hcl', hown'⟩

/-- One thread moves on, which keeps its chunk or is inside `Open` then. -/
theorem slots_update {t : Tid} {th : BufferThread} (hth : s'.threads = update s.threads t th)
    (ht : th.pc.opening = false → th.chunk = (s.threads t).chunk ∧ (s.threads t).pc.opening = false) :
    ∀ u, (s'.threads u).pc.opening = false →
      (s'.threads u).chunk = (s.threads u).chunk ∧ (s.threads u).pc.opening = false := by
  rw [hth, forall_update_iff s.threads
    (p := fun u th => th.pc.opening = false → th.chunk = (s.threads u).chunk ∧ (s.threads u).pc.opening = false)]
  exact ⟨ht, fun u _ hu => ⟨rfl, hu⟩⟩

omit [DecidableEq Tid] in
theorem mem_set_of_ne {i : Nat} {l : List (SendBuffer Tid)} {b b₀ : SendBuffer Tid} (hi : l[i]? = some b₀)
    (hb : b ∈ l) (hne : b ≠ b₀) (b₁ : SendBuffer Tid) : b ∈ l.set i b₁ := by
  obtain ⟨j, hj⟩ := List.getElem?_of_mem hb
  have hij : i ≠ j := by
    rintro rfl
    exact hne (Option.some.inj (hj.symm.trans hi))
  exact List.mem_of_getElem? ((List.getElem?_set_ne hij).trans hj)

omit [DecidableEq Tid] in
/-- The number of references changes, and nothing else of the send buffer. -/
theorem refs_set {i : Nat} {l : List (SendBuffer Tid)} {b₀ : SendBuffer Tid} (hi : l[i]? = some b₀) (n : Nat)
    {b : SendBuffer Tid} (hb : b ∈ l) : ∃ b' ∈ l.set i { b₀ with refs := n },
      b'.opener = b.opener ∧ b'.closed = b.closed ∧ b'.owner = b.owner := by
  by_cases hne : b = b₀
  · subst hne
    exact ⟨_, List.mem_set (List.getElem?_eq_some_iff.1 hi).1 _, rfl, rfl, rfl⟩
  · exact ⟨b, mem_set_of_ne hi hb hne _, rfl, rfl, rfl⟩

/-! ## The invariant -/

/-- **The invariant of the runs in turn**, with the history. -/
structure TurnInv (s : BufferState Tid) (log : List ChunkEvent) [Fintype Tid] : Prop where
  inv : BufferInv s
  running : s.crashed = false
  asked : ∀ t size, (s.threads t).pc.asked = some size → 1 ≤ size ∧ size ≤ SEND_BUFFER_CHUNK_SIZE
  openers : OpenersOk s
  used : ∀ c, (s.chunks c).usedSize = closedSince c log
  fresh : ∀ c, s.numChunks ≤ c → (s.chunks c).usedSize = 0

variable [Fintype Tid] {log : List ChunkEvent}

omit [DecidableEq Tid] in
theorem turnInv₀ : TurnInv (bufferState₀ : BufferState Tid) [] where
  inv := bufferInv₀
  running := rfl
  asked t size h := by cases h
  openers t c hc := by cases hc
  used c := rfl
  fresh c _ := rfl

omit [DecidableEq Tid] in
theorem TurnInv.quiet (h : TurnInv s log) (hinv : BufferInv s') (hrun : s'.crashed = false)
    (hasked : ∀ t size, (s'.threads t).pc.asked = some size → 1 ≤ size ∧ size ≤ SEND_BUFFER_CHUNK_SIZE)
    (hopeners : OpenersOk s') (hused : ∀ c, (s'.chunks c).usedSize = (s.chunks c).usedSize)
    (hnum : s.numChunks ≤ s'.numChunks) : TurnInv s' log where
  inv := hinv
  running := hrun
  asked := hasked
  openers := hopeners
  used c := (hused c).trans (h.used c)
  fresh c hc := (hused c).trans (h.fresh c (Nat.le_trans hnum hc))

omit [DecidableEq Tid] in
/-- **A thread in turn finds its chunk closed**. -/
theorem TurnInv.shut (h : TurnInv s log) {t : Tid} {c : Nat} (hc : (s.threads t).chunk = some c)
    (hpc : (s.threads t).pc.opening = false) (hclosed : ∀ b ∈ s.buffers, b.opener = t → b.closed = true) :
    (s.chunks c).isOpen = false := by
  rw [← Bool.not_eq_true]
  intro hopen
  obtain ⟨b, hb, hopener, hcl, -⟩ := h.openers t c hc hpc hopen
  rw [hclosed b hb hopener] at hcl
  cases hcl

/-! ## The steps of `Open` -/

theorem asked_update {t : Tid} {th : BufferThread} (h : TurnInv s log) (hth : s'.threads = update s.threads t th)
    (ht : ∀ size, th.pc.asked = some size → 1 ≤ size ∧ size ≤ SEND_BUFFER_CHUNK_SIZE) :
    ∀ u size, (s'.threads u).pc.asked = some size → 1 ≤ size ∧ size ≤ SEND_BUFFER_CHUNK_SIZE := by
  rw [hth, forall_update_iff s.threads
    (p := fun _ th => ∀ size, th.pc.asked = some size → 1 ≤ size ∧ size ≤ SEND_BUFFER_CHUNK_SIZE)]
  exact ⟨ht, fun u _ => h.asked u⟩

/-- **`SendBufferChunk::Open` gives out a send buffer**, and the chunk is open for it. -/
theorem TurnInv.chunkOpen (h : TurnInv s log) {t : Tid} {c size : Nat} (hc : (s.threads t).chunk = some c)
    (hstill : (s.threads t).pc.still = true) (hopen : (s.chunks c).isOpen = false)
    (hfree : size ≤ (s.chunks c).freeSize) : TurnInv (s.chunkOpen t c size) log := by
  rw [chunkOpen_eq t hopen hfree]
  refine h.quiet (h.inv.opened hc hstill hopen hfree) h.running (asked_update h rfl (fun size hs => by cases hs)) ?_
    (fun d => apply_update_of_eq SendBufferChunk.usedSize s.chunks (by rfl) d) (Nat.le_refl _)
  intro u d hd hpc ho
  by_cases hut : u = t
  · subst hut
    simp only [BufferState.goto, update_self] at hd
    cases hc.symm.trans hd
    exact ⟨_, List.mem_append_right _ List.mem_cons_self, rfl, rfl, rfl⟩
  · simp only [BufferState.goto, update_of_ne hut] at hd hpc ho
    have hdc : d ≠ c := fun hdc => hut (h.inv.slot_unique hd (hdc ▸ hc))
    rw [update_of_ne hdc] at ho
    obtain ⟨b, hb, hopener, hcl, hown⟩ := h.openers u d hd hpc ho
    exact ⟨b, List.mem_append_left _ hb, hopener, hcl, hown⟩

theorem TurnInv.goto (h : TurnInv s log) {t : Tid} {pc : BufferPc} (hinv : BufferInv (s.goto t pc))
    (hasked : ∀ size, pc.asked = some size → 1 ≤ size ∧ size ≤ SEND_BUFFER_CHUNK_SIZE)
    (hpc : pc.opening = false → (s.threads t).pc.opening = false) : TurnInv (s.goto t pc) log := by
  refine h.quiet hinv h.running (asked_update h rfl hasked) ?_ (fun _ => rfl) (Nat.le_refl _)
  exact h.openers.mono (slots_update rfl (fun hop => ⟨rfl, hpc hop⟩))
    (fun c hc => ⟨hc, fun b hb hcl hown => ⟨b, hb, rfl, hcl, hown⟩⟩)

/-- A popped chunk is in the slot of the thread, and about to be reset. -/
theorem TurnInv.assign {s₁ : BufferState Tid} (h : TurnInv s log) {t : Tid} {c size : Nat} {second : Bool}
    (hsize : 1 ≤ size ∧ size ≤ SEND_BUFFER_CHUNK_SIZE) (hinv : BufferInv (s₁.assign t c size second))
    (hrun : s₁.crashed = false) (hth : s₁.threads = s.threads) (hbuf : s₁.buffers = s.buffers)
    (hopen : ∀ d, (s₁.chunks d).isOpen = true → (s.chunks d).isOpen = true)
    (hused : ∀ d, (s₁.chunks d).usedSize = (s.chunks d).usedSize) (hnum : s.numChunks ≤ s₁.numChunks) :
    TurnInv (s₁.assign t c size second) log := by
  have hafter : (BufferState.afterAssign size second (s.threads t).chunk).asked = some size ∧
      (BufferState.afterAssign size second (s.threads t).chunk).opening = true := by
    cases (s.threads t).chunk <;> exact ⟨rfl, rfl⟩
  have hupdate : (s₁.assign t c size second).threads =
      update s.threads t ⟨some c, BufferState.afterAssign size second (s.threads t).chunk⟩ := by
    rw [BufferState.assign, hth]
  refine h.quiet hinv hrun (asked_update h hupdate (fun n hn => ?_))
    (h.openers.mono (slots_update hupdate (fun hop => ?_)) (fun d hd => ?_)) hused hnum
  · cases hafter.1.symm.trans hn
    exact hsize
  · cases hafter.2.symm.trans hop
  · exact ⟨hopen d hd, fun b hb hcl hown => ⟨b, by rw [BufferState.assign, hbuf]; exact hb, rfl, hcl, hown⟩⟩

/-- A reference to a chunk is counted. -/
theorem TurnInv.count (h : TurnInv s log) {t : Tid} {c n : Nat} {pc : BufferPc} {pool : List Nat}
    (hs : s' = BufferState.goto { s with
      chunks := update s.chunks c { s.chunks c with useCount := n }, pool := pool } t pc)
    (hinv : BufferInv s') (hasked : ∀ size, pc.asked = some size → (s.threads t).pc.asked = some size)
    (hpc : pc.opening = false → (s.threads t).pc.opening = false) : TurnInv s' log := by
  have hth : s'.threads = update s.threads t ⟨(s.threads t).chunk, pc⟩ := by rw [hs]; rfl
  have hchunks : s'.chunks = update s.chunks c { s.chunks c with useCount := n } := by rw [hs]; rfl
  refine h.quiet hinv (by rw [hs]; exact h.running) (asked_update h hth (fun size hsize => h.asked t size (hasked size hsize)))
    (h.openers.mono (slots_update hth (fun hop => ⟨rfl, hpc hop⟩)) (fun d hd => ?_)) (fun d => ?_)
    (by rw [hs]; exact Nat.le_refl _)
  · rw [hchunks, apply_update_of_eq SendBufferChunk.isOpen s.chunks (by rfl) d] at hd
    exact ⟨hd, fun b hb hcl hown => ⟨b, by rw [hs]; exact hb, rfl, hcl, hown⟩⟩
  · rw [hchunks]
    exact apply_update_of_eq SendBufferChunk.usedSize s.chunks (by rfl) d

omit [DecidableEq Tid] in
/-- **`Reset` forgets what was closed before.** -/
theorem TurnInv.reset (h : TurnInv s log) {t : Tid} {c size : Nat} {second : Bool}
    (hpc : (s.threads t).pc = .reset size second) (hc : (s.threads t).chunk = some c) :
    TurnInv { s with chunks := update s.chunks c (s.chunks c).reset } (.reset c :: log) where
  inv := by
    obtain ⟨d, hd, ho⟩ := h.inv.opening t (by rw [hpc]; rfl)
    cases hc.symm.trans hd
    exact h.inv.reset ho
  running := h.running
  asked := h.asked
  openers := by
    refine h.openers.mono (fun u hu => ⟨rfl, hu⟩) (fun d hd => ?_)
    by_cases hdc : d = c
    · subst hdc
      simp [SendBufferChunk.reset] at hd
    · simp only [update_of_ne hdc] at hd
      exact ⟨hd, fun b hb hcl hown => ⟨b, hb, rfl, hcl, hown⟩⟩
  used d := by
    by_cases hdc : d = c
    · simp [hdc, SendBufferChunk.reset, closedSince]
    · simp only [update_of_ne hdc, closedSince, if_neg (Ne.symm hdc)]
      exact h.used d
  fresh d hd := by
    by_cases hdc : d = c
    · simp [hdc, SendBufferChunk.reset]
    · simp only [update_of_ne hdc]
      exact h.fresh d hd

omit [Fintype Tid] in
/-- **A closed chunk gives out a send buffer** if it has room, and is given up for another if it has not. -/
theorem BufferState.OpenStep.of_closed {t : Tid} {c size : Nat} {second : Bool} (h : OpenStep s t c size second s')
    (hopen : (s.chunks c).isOpen = false) (hsize : size ≤ SEND_BUFFER_CHUNK_SIZE)
    (hroom : second = true → size ≤ (s.chunks c).freeSize) :
    (s.chunks c).freeSize < size ∧ s' = s.goto t (.pop size true) ∨
      size ≤ (s.chunks c).freeSize ∧ s' = s.chunkOpen t c size := by
  cases h with
  | crash hfail =>
    rcases hfail with hfail | hfail
    · rw [hopen] at hfail
      cases hfail
    · omega
  | popAgain _ _ hless => exact .inl ⟨hless, rfl⟩
  | refused hsecond _ hless => exact absurd (hroom hsecond) (Nat.not_le.2 hless)
  | opened _ hfree => exact .inr ⟨hfree, (chunkOpen_eq t hopen hfree).symm⟩

/-- **What `Open` does first**: it pops a chunk, or gives out a send buffer of the chunk the thread has. -/
theorem TurnInv.openCall_cases (h : TurnInv s log) {t : Tid} {size : Nat}
    (he : bufferStep s (.openCall t size) = some s') (hok : InTurn s (.openCall t size) s') :
    (s.threads t).pc = .idle ∧ ((∃ second, s' = s.goto t (.pop size second)) ∨
      ∃ c, (s.threads t).chunk = some c ∧ (s.chunks c).isOpen = false ∧ size ≤ (s.chunks c).freeSize ∧
        s' = s.chunkOpen t c size) := by
  cases bufferStep_effect he with
  | pop hpc _ => exact ⟨hpc, .inl ⟨false, rfl⟩⟩
  | openCall hpc hc hstep =>
    have hopen := h.shut hc (by rw [hpc]; rfl) hok.2
    refine ⟨hpc, ?_⟩
    rcases hstep.of_closed hopen hok.1.2 nofun with ⟨-, rfl⟩ | ⟨hfree, rfl⟩
    · exact .inl ⟨true, rfl⟩
    · exact .inr ⟨_, hc, hopen, hfree, rfl⟩

omit [Fintype Tid] in
/-- **What `Open` does after `Pop`**: it gives out the front of the chunk that has been reset. -/
theorem BufferState.OpenStep.of_reset {t : Tid} {c size : Nat} {second : Bool}
    (h : OpenStep { s with chunks := update s.chunks c (s.chunks c).reset } t c size second s')
    (hsize : size ≤ SEND_BUFFER_CHUNK_SIZE) :
    ∃ s₁, s₁ = { s with chunks := update s.chunks c (s.chunks c).reset } ∧ (s₁.chunks c).isOpen = false ∧
      size ≤ (s₁.chunks c).freeSize ∧ s' = s₁.chunkOpen t c size := by
  generalize hs₁ : ({ s with chunks := update s.chunks c (s.chunks c).reset } : BufferState Tid) = s₁ at h
  have hreset : s₁.chunks c = (s.chunks c).reset := by
    rw [← hs₁]
    exact update_self ..
  have hopen : (s₁.chunks c).isOpen = false := by
    rw [hreset]
    rfl
  have hfree : size ≤ (s₁.chunks c).freeSize := by
    rw [hreset]
    exact hsize
  rcases h.of_closed hopen hsize (fun _ => hfree) with ⟨hless, -⟩ | ⟨-, hs'⟩
  · exact absurd hfree (Nat.not_le.2 hless)
  · exact ⟨s₁, rfl, hopen, hfree, hs'⟩

theorem TurnInv.openCall (h : TurnInv s log) {t : Tid} {size : Nat}
    (he : bufferStep s (.openCall t size) = some s') (hok : InTurn s (.openCall t size) s') : TurnInv s' log := by
  obtain ⟨hpc, ⟨second, rfl⟩ | ⟨c, hc, hopen, hfree, rfl⟩⟩ := h.openCall_cases he hok
  · refine h.goto (h.inv.goto (by rw [hpc]; rfl) rfl rfl) (fun n hn => ?_) (fun _ => by rw [hpc]; rfl)
    cases hn
    exact hok.1
  · exact h.chunkOpen hc (by rw [hpc]; rfl) hopen hfree

theorem TurnInv.next (h : TurnInv s log) {t : Tid} (hstep : BufferState.NextStep s t s') :
    TurnInv s' (s.events (.next t) ++ log) := by
  have hinv := h.inv.next hstep
  cases hstep with
  | @pop size _ _ hpc _ =>
    have hsize := h.asked t size (by rw [hpc]; rfl)
    simp only [BufferState.events, hpc]
    exact h.assign hsize hinv h.running rfl rfl (fun _ hd => hd) (fun _ => rfl) (Nat.le_refl _)
  | @make size _ hpc _ =>
    have hsize := h.asked t size (by rw [hpc]; rfl)
    simp only [BufferState.events, hpc]
    refine h.assign hsize hinv h.running rfl rfl (fun d hd => ?_) (fun d => ?_) (Nat.le_succ _)
    · by_cases hnew : d = s.numChunks
      · simp [hnew, SendBufferChunk.new] at hd
      · simpa only [update_of_ne hnew] using hd
    · exact apply_update_of_eq SendBufferChunk.usedSize s.chunks (h.fresh _ (Nat.le_refl _)).symm d
  | @release c after hpc =>
    simp only [BufferState.events, hpc]
    refine h.count rfl hinv (fun size hsize => ?_) (fun hop => ?_)
    · rw [hpc]
      split at hsize <;> cases after <;> exact hsize
    · rw [hpc]
      split at hop <;> cases after <;> first | rfl | cases hop
  | @recycle c after hpc =>
    simp only [BufferState.events, hpc]
    refine h.count rfl hinv (fun size hsize => ?_) (fun hop => ?_)
    · rw [hpc]
      cases after <;> exact hsize
    · rw [hpc]
      cases after <;> first | rfl | cases hop
  | @reset size c _ _ hpc hc hopen =>
    simp only [BufferState.events, hpc, hc]
    obtain ⟨s₁, rfl, hclosed, hfree, rfl⟩ := hopen.of_reset (h.asked t size (by rw [hpc]; rfl)).2
    exact (h.reset hpc hc).chunkOpen (by exact hc) (by simp only [hpc]; rfl) hclosed hfree

/-! ## The steps on a send buffer -/

/-- **`Close` closes the chunk and counts what was written.** -/
theorem TurnInv.close (h : TurnInv s log) {t : Tid} {i n : Nat} (he : bufferStep s (.close t i n) = some s')
    (hok : InTurn s (.close t i n) s') : TurnInv s' (s.events (.close t i n) ++ log) := by
  have hinv := bufferStep_inv h.inv he hok
  cases bufferStep_effect he with
  | @closeFails _ _ _ b hi hr _ hfail =>
    obtain ⟨-, hcl, hn⟩ := hok b hi
    rcases hfail with hfail | hfail
    · omega
    · rw [(h.inv.regions.current i b hi hr hcl).1] at hfail
      cases hfail
  | @close _ _ _ b hi hr _ _ _ =>
    have hlt : b.owner < s.numChunks := h.inv.owner_lt hi hr
    simp only [BufferState.events, hi]
    refine ⟨hinv, h.running, h.asked, h.openers.mono (fun u hu => ⟨rfl, hu⟩) (fun c hc => ?_), fun c => ?_,
      fun c hc => ?_⟩
    · dsimp only at hc
      have hne : c ≠ b.owner := by
        rintro rfl
        rw [update_self] at hc
        cases hc
      rw [update_of_ne hne] at hc
      exact ⟨hc, fun x hx hclx hown => ⟨x, mem_set_of_ne hi hx (fun hxb => hne (by rw [← hown, hxb])) _, rfl, hclx,
        hown⟩⟩
    · dsimp only
      rw [List.singleton_append, closedSince]
      by_cases hc : c = b.owner
      · rw [hc, update_self, if_pos rfl, ← h.used, Nat.add_comm]
      · rw [update_of_ne hc, if_neg (Ne.symm hc), Nat.zero_add, h.used]
    · dsimp only
      rw [update_of_ne (Nat.ne_of_gt (Nat.lt_of_lt_of_le hlt hc))]
      exact h.fresh c hc

/-- **The step lemma of the runs in turn.** -/
theorem TurnInv.step (h : TurnInv s log) {a : BufferAct Tid} (he : bufferStep s a = some s') (hok : InTurn s a s') :
    TurnInv s' (s.events a ++ log) := by
  cases bufferStep_effect he with
  | pop _ _ | openCall _ _ _ => exact h.openCall he hok
  | next hstep => exact h.next hstep
  | @write _ _ _ _ b _ _ _ =>
    refine h.quiet (h.inv.store b.owner _) h.running h.asked (h.openers.mono (fun u hu => ⟨rfl, hu⟩) (fun c hc => ?_))
      (fun c => apply_update_of_eq SendBufferChunk.usedSize s.chunks (by rfl) c) (Nat.le_refl _)
    dsimp only at hc
    rw [apply_update_of_eq SendBufferChunk.isOpen s.chunks (by rfl) c] at hc
    exact ⟨hc, fun b hb hcl hown => ⟨b, hb, rfl, hcl, hown⟩⟩
  | closeFails _ _ _ _ | close _ _ _ _ _ => exact h.close he hok
  | @copyRef _ b hi _ =>
    refine h.quiet (bufferStep_inv h.inv he trivial) h.running h.asked
      (h.openers.mono (fun u hu => ⟨rfl, hu⟩) (fun c hc => ⟨hc, ?_⟩)) (fun _ => rfl) (Nat.le_refl _)
    intro x hx hcl hown
    obtain ⟨y, hy, hopener, hcly, howny⟩ := refs_set hi (b.refs + 1) hx
    exact ⟨y, hy, hopener, hcly.trans hcl, howny.trans hown⟩
  | @dropRef _ _ b hi _ hidle =>
    refine h.quiet (bufferStep_inv h.inv he trivial) h.running (asked_update h rfl (fun size hsize => ?_))
      (h.openers.mono (slots_update rfl (fun _ => ⟨rfl, by rw [hidle]; rfl⟩)) (fun c hc => ⟨hc, ?_⟩)) (fun _ => rfl)
      (Nat.le_refl _)
    · split at hsize <;> cases hsize
    · intro x hx hcl hown
      obtain ⟨y, hy, hopener, hcly, howny⟩ := refs_set hi (b.refs - 1) hx
      exact ⟨y, hy, hopener, hcly.trans hcl, howny.trans hown⟩

/-! ## What `Open` returns -/

omit [Fintype Tid] in
/-- A send buffer given out lies in its chunk. -/
theorem chunkOpen_gives {t : Tid} {c size : Nat} (hopen : (s.chunks c).isOpen = false)
    (hfree : size ≤ (s.chunks c).freeSize) (hsize : 1 ≤ size) :
    ∃ d offset, (s.chunkOpen t c size).buffers = s.buffers ++ [SendBuffer.new t d offset size] ∧
      offset < SEND_BUFFER_CHUNK_SIZE ∧ offset + size ≤ SEND_BUFFER_CHUNK_SIZE := by
  rw [chunkOpen_eq t hopen hfree]
  rw [SendBufferChunk.freeSize] at hfree
  exact ⟨c, (s.chunks c).usedSize, rfl, by omega, by omega⟩

/-- **`Open` returns a send buffer**, never `nullptr`. -/
theorem TurnInv.open_returns (h : TurnInv s log) {a : BufferAct Tid} {t : Tid} {size : Nat}
    (he : bufferStep s a = some s') (hok : InTurn s a s') (hret : OpenReturns s a s' t size) :
    ∃ c offset, s'.buffers = s.buffers ++ [SendBuffer.new t c offset size] ∧ offset < SEND_BUFFER_CHUNK_SIZE ∧
      offset + size ≤ SEND_BUFFER_CHUNK_SIZE := by
  obtain ⟨rfl | ⟨rfl, hasked⟩, hidle⟩ := hret
  · obtain ⟨hpc, ⟨second, rfl⟩ | ⟨c, hc, hopen, hfree, rfl⟩⟩ := h.openCall_cases he hok
    · simp [BufferState.goto] at hidle
    · exact chunkOpen_gives hopen hfree hok.1.1
  · have hsize := h.asked t size hasked
    cases bufferStep_effect he with | next hstep => ?_
    cases hstep with
    | pop _ _ | make _ _ =>
      simp only [BufferState.assign, update_self] at hidle
      cases hch : (s.threads t).chunk <;> rw [hch] at hidle <;> cases hidle
    | @release c after hpc =>
      rw [hpc] at hasked
      cases after with
      | none => cases hasked
      | some p =>
        simp only [BufferState.goto, update_self] at hidle
        split at hidle <;> cases hidle
    | @recycle c after hpc =>
      rw [hpc] at hasked
      cases after with
      | none => cases hasked
      | some p => simp [BufferState.goto, BufferState.afterRelease] at hidle
    | reset hpc _ hopen =>
      rw [hpc] at hasked
      cases hasked
      obtain ⟨s₁, rfl, hclosed, hfree, rfl⟩ := hopen.of_reset hsize.2
      obtain ⟨d, offset, hbuf, hlt, hend⟩ := chunkOpen_gives (t := t) hclosed hfree hsize.1
      exact ⟨d, offset, hbuf, hlt, hend⟩

/-- **Nobody waits inside `Open`** or a destructor. -/
theorem TurnInv.goes_on (h : TurnInv s log) {t : Tid} (hpc : (s.threads t).pc ≠ .idle) :
    ∃ s', bufferStep s (.next t) = some s' := by
  rw [bufferStep_next h.running]
  cases hp : (s.threads t).pc with
  | idle => exact absurd hp hpc
  | pop size second =>
    simp only [BufferState.next, hp]
    split <;> exact ⟨_, rfl⟩
  | release c after | recycle c after =>
    simp only [BufferState.next, hp]
    exact ⟨_, rfl⟩
  | reset size second =>
    obtain ⟨c, hc, -⟩ := h.inv.opening t (by rw [hp]; rfl)
    simp only [BufferState.next, hp, hc]
    exact ⟨_, rfl⟩

/-! ## Runs -/

/-- The runs in turn, with their history. -/
def TurnReach (s : BufferState Tid) (log : List ChunkEvent) : Prop :=
  Reach loggedStep (fun x a x' => InTurn x.1 a x'.1) (bufferState₀, []) (s, log)

theorem TurnReach.inv (h : TurnReach s log) : TurnInv s log := by
  refine Reach.inv (P := fun x => TurnInv x.1 x.2) h turnInv₀ (fun x a x' _ hI he hok => ?_)
  obtain ⟨s', hs', rfl⟩ := Option.map_eq_some_iff.1 he
  exact hI.step hs' hok

/-- **Send buffers opened and closed in turn**: no assertion fails, no thread is stuck inside `Open`, `Open` returns a
new send buffer that lies in its chunk, no chunk is used beyond its end, and the used size of a thread's chunk is the
sum of the write sizes closed on it since its last `Reset`. -/
theorem open_close_in_turn (h : TurnReach s log) :
    s.crashed = false ∧ (∀ t, (s.threads t).pc ≠ .idle → ∃ s', bufferStep s (.next t) = some s') ∧
    (∀ a s' t size, bufferStep s a = some s' → InTurn s a s' → OpenReturns s a s' t size →
      ∃ c offset, s'.buffers = s.buffers ++ [SendBuffer.new t c offset size] ∧ offset < SEND_BUFFER_CHUNK_SIZE ∧
        offset + size ≤ SEND_BUFFER_CHUNK_SIZE) ∧
    (∀ c, (s.chunks c).usedSize ≤ SEND_BUFFER_CHUNK_SIZE) ∧
    ∀ t c, (s.threads t).chunk = some c → (s.chunks c).usedSize = closedSince c log := by
  have hI := h.inv
  exact ⟨hI.running, fun _ hpc => hI.goes_on hpc, fun _ _ _ _ he hok hret => hI.open_returns he hok hret,
    hI.inv.regions.used, fun _ c _ => hI.used c⟩

/-- Two threads, three chunks: the thread that has filled most of a chunk is given the next one. -/
theorem open_close_in_turn_three : ∃ (s : BufferState Two) (log : List ChunkEvent), TurnReach s log ∧
    s.crashed = false ∧ (s.chunks 1).usedSize = 90 ∧ (s.chunks 2).usedSize = 8 ∧
    log = [.closed 2 8, .reset 2, .closed 1 90, .closed 0 4999, .reset 1, .closed 0 4, .reset 0] := by
  obtain ⟨⟨s, log⟩, hrun, hr⟩ := reach_of_run loggedStep (fun x a x' => InTurn x.1 a x'.1)
    ((bufferState₀ : BufferState Two), []) threeBuffers (by decide)
  have hs : (run loggedStep (fun x a x' => InTurn x.1 a x'.1) ((bufferState₀ : BufferState Two), [])
      threeBuffers).map (fun x => (x.1.threads .one, x.1.threads .two, x.2)) =
      some (⟨some 2, .idle⟩, ⟨some 1, .release 1 none⟩,
        [.closed 2 8, .reset 2, .closed 1 90, .closed 0 4999, .reset 1, .closed 0 4, .reset 0]) := by decide
  simp only [hrun, Option.map_some, Option.some.injEq, Prod.mk.injEq] at hs
  obtain ⟨h1, h2, rfl⟩ := hs
  obtain ⟨hrunning, -, -, -, hused⟩ := open_close_in_turn hr
  exact ⟨s, _, hr, hrunning, hused .two 1 (by rw [h2]), hused .one 2 (by rw [h1]), rfl⟩

end Geon
