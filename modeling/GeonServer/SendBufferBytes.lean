import GeonServer.SendBufferRun
/-!
# SendBufferBytes — what a closed send buffer holds

As long as somebody holds a closed send buffer, nobody stores into its bytes (`closed_bytes_kept`): stores go through
send buffers that are not closed, and those start where the closed ones end.
-/
namespace Geon

open Lts Function

variable {Tid : Type*} [DecidableEq Tid] {s s' : BufferState Tid}

/-! ## Steps that store nothing -/

/-- No byte of a chunk that exists changes, and send buffers are only made. -/
structure Silent (s s' : BufferState Tid) : Prop where
  bytes : ∀ c, c < s.numChunks → (s'.chunks c).buffer = (s.chunks c).buffer
  buffers : s.buffers <+: s'.buffers

omit [DecidableEq Tid] in
theorem Silent.of_eq (hchunks : s'.chunks = s.chunks) (hbuf : s'.buffers = s.buffers) : Silent s s' :=
  ⟨fun c _ => by rw [hchunks], by rw [hbuf]⟩

omit [DecidableEq Tid] in
theorem buffer_update (chunks : Nat → SendBufferChunk) {c : Nat} {chunk : SendBufferChunk}
    (h : chunk.buffer = (chunks c).buffer) (d : Nat) : (update chunks c chunk d).buffer = (chunks d).buffer :=
  apply_update_of_eq SendBufferChunk.buffer chunks h d

theorem BufferState.OpenStep.silent {t : Tid} {c size : Nat} {second : Bool} (h : OpenStep s t c size second s') :
    Silent s s' := by
  cases h with
  | crash _ | popAgain _ _ _ | refused _ _ _ => exact .of_eq rfl rfl
  | opened _ _ => exact ⟨fun d _ => by simp only [BufferState.goto, buffer_update], List.prefix_append _ _⟩

theorem BufferState.NextStep.silent {t : Tid} (h : NextStep s t s') : Silent s s' := by
  cases h with
  | pop _ _ => exact .of_eq rfl rfl
  | make _ _ =>
    refine ⟨fun d hd => ?_, List.prefix_rfl⟩
    show (update s.chunks s.numChunks .new d).buffer = _
    rw [update_of_ne (Nat.ne_of_lt hd)]
  | release _ | recycle _ => exact ⟨fun d _ => by simp only [BufferState.goto, buffer_update], List.prefix_rfl⟩
  | @reset _ c _ _ _ _ hopen =>
    -- `Reset` keeps the bytes, and so does what follows it
    have hreset : ∀ d, (update s.chunks c (s.chunks c).reset d).buffer = (s.chunks d).buffer :=
      buffer_update s.chunks rfl
    obtain ⟨hb, hl⟩ := hopen.silent
    exact ⟨fun d hd => (hb d hd).trans (hreset d), hl⟩

omit [DecidableEq Tid] in
theorem storeAt_of_not_mem {m : Nat → BYTE} {pos i : Nat} {bytes : List BYTE}
    (h : i < pos ∨ pos + bytes.length ≤ i) : storeAt m pos bytes i = m i :=
  dif_neg (by omega)

/-! ## Closed send buffers -/

omit [DecidableEq Tid] in
theorem written_congr {b b' : SendBuffer Tid} (hs : SamePiece b b')
    (h : ∀ k, k < b.writeSize → (s'.chunks b.owner).buffer (b.buffer + k) = (s.chunks b.owner).buffer (b.buffer + k)) :
    s'.written b' = s.written b := by
  unfold BufferState.written
  rw [hs.owner, hs.buffer, hs.writeSize]
  exact List.map_congr_left (fun k hk => h k (List.mem_range.1 hk))

omit [DecidableEq Tid] in
theorem BufferInv.owner_lt [Fintype Tid] (h : BufferInv s) {i : Nat} {b : SendBuffer Tid}
    (hi : s.buffers[i]? = some b) (hr : b.refs ≠ 0) : b.owner < s.numChunks := by
  have hlive : 0 < s.owners b.owner :=
    List.countP_pos_iff.2 ⟨b, List.mem_of_getElem? hi, by simp [SendBuffer.liveOn, hr]⟩
  have hu := (h.chunk b.owner).use
  exact (h.chunk b.owner).known.2 (by omega)

omit [DecidableEq Tid] in
theorem Silent.kept (h : Silent s s') {i : Nat} {b : SendBuffer Tid} (hi : s.buffers[i]? = some b)
    (ho : b.refs ≠ 0 → b.owner < s.numChunks) {b' : SendBuffer Tid} (hi' : s'.buffers[i]? = some b')
    (hr' : b'.refs ≠ 0) : b.refs ≠ 0 ∧ SamePiece b b' ∧ s'.written b' = s.written b := by
  obtain ⟨l, hl⟩ := h.buffers
  rw [← hl, List.getElem?_append_left (List.getElem?_eq_some_iff.1 hi).1, hi] at hi'
  cases hi'
  exact ⟨hr', .refl b, written_congr (.refl b) (fun k _ => congrFun (h.bytes _ (ho hr')) _)⟩

omit [DecidableEq Tid] in
/-- A step that puts another record of the same piece in the place of buffer `j`. -/
theorem set_kept {j : Nat} {b₀ b₁ : SendBuffer Tid} (hj : s.buffers[j]? = some b₀) (hr : b₀.refs ≠ 0)
    (hbuf : s'.buffers = s.buffers.set j b₁) (hs : SamePiece b₀ b₁) (hchunks : s'.chunks = s.chunks)
    {i : Nat} {b : SendBuffer Tid} (hi : s.buffers[i]? = some b) {b' : SendBuffer Tid}
    (hi' : s'.buffers[i]? = some b') (hr' : b'.refs ≠ 0) :
    b.refs ≠ 0 ∧ SamePiece b b' ∧ s'.written b' = s.written b := by
  obtain ⟨x, hx, hxr, hsx⟩ := samePiece_set hj hr hbuf hs i b' hi' hr'
  rw [hi] at hx
  cases hx
  exact ⟨hxr, hsx, written_congr hsx (fun k _ => by rw [hchunks])⟩

omit [DecidableEq Tid] in
/-- A send buffer that is not closed was opened after the closed ones of its chunk, so it starts behind them. -/
theorem RegionsOk.closed_before (h : RegionsOk s) {i j : Nat} {b b₀ : SendBuffer Tid} (hi : s.buffers[i]? = some b)
    (hj : s.buffers[j]? = some b₀) (hr : b.refs ≠ 0) (hr₀ : b₀.refs ≠ 0) (hcl : b.closed = true)
    (hopen : b₀.closed = false) (ho : b.owner = b₀.owner) : b.buffer + b.writeSize ≤ b₀.buffer := by
  rcases Nat.lt_trichotomy i j with hlt | rfl | hgt
  · exact (h.before i j b b₀ hlt hi hj hr hr₀ ho).2
  · cases hi.symm.trans hj
    cases hcl.symm.trans hopen
  · have := (h.before j i b₀ b hgt hj hi hr₀ hr ho.symm).1
    cases hopen.symm.trans this

/-- **The bytes of a closed send buffer stay** as long as somebody holds it. -/
theorem closed_bytes_kept [Fintype Tid] (h : BufferInv s) {a : BufferAct Tid} (he : bufferStep s a = some s')
    (hok : ByOpener s a s') {i : Nat} {b b' : SendBuffer Tid} (hi : s.buffers[i]? = some b) (hcl : b.closed = true)
    (hi' : s'.buffers[i]? = some b') (hr' : b'.refs ≠ 0) :
    b.refs ≠ 0 ∧ SamePiece b b' ∧ s'.written b' = s.written b := by
  have hkept : Silent s s' → b.refs ≠ 0 ∧ SamePiece b b' ∧ s'.written b' = s.written b :=
    fun hs => hs.kept hi (h.owner_lt hi) hi' hr'
  cases bufferStep_effect he with
  | pop _ _ | closeFails _ _ _ _ => exact hkept (.of_eq rfl rfl)
  | openCall _ _ hopen => exact hkept hopen.silent
  | next hstep => exact hkept hstep.silent
  | @write _ _ _ _ b₀ hj hr₀ _ =>
    obtain ⟨-, hopen, hfit⟩ := hok b₀ hj
    rw [hi] at hi'
    cases hi'
    refine ⟨hr', .refl b, written_congr (.refl b) (fun k hk => ?_)⟩
    by_cases ho : b.owner = b₀.owner
    · have hbehind := h.regions.closed_before hi hj hr' hr₀ hcl hopen ho
      simp only [ho, update_self]
      exact storeAt_of_not_mem (.inl (by omega))
    · simp only [update_of_ne ho]
  | @close _ j _ b₀ hj _ _ _ _ =>
    obtain ⟨-, hopen, -⟩ := hok b₀ hj
    have hne : j ≠ i := by
      rintro rfl
      rw [hi] at hj
      cases hj
      rw [hcl] at hopen
      cases hopen
    simp only [List.getElem?_set_ne hne, hi, Option.some.injEq] at hi'
    subst hi'
    exact ⟨hr', .refl b, written_congr (.refl b) (fun k _ => by simp only [buffer_update])⟩
  | copyRef hj hr₀ | dropRef hj hr₀ _ => exact set_kept hj hr₀ (by rfl) (.refs ..) (by rfl) hi hi' hr'

omit [DecidableEq Tid] in
theorem closed_set {j : Nat} {b₀ b₁ : SendBuffer Tid} {l : List (SendBuffer Tid)} (hj : l[j]? = some b₀)
    (hs : b₀.closed = true → b₁.closed = true) {i : Nat} {b : SendBuffer Tid} (hi : l[i]? = some b)
    (hcl : b.closed = true) : ∃ b', (l.set j b₁)[i]? = some b' ∧ b'.closed = true := by
  rw [List.getElem?_set]
  split
  · rename_i hji
    subst hji
    rw [hi] at hj
    cases hj
    exact ⟨b₁, by simp [(List.getElem?_eq_some_iff.1 hi).1], hs hcl⟩
  · exact ⟨b, hi, hcl⟩

theorem closed_stays {a : BufferAct Tid} (he : bufferStep s a = some s') {i : Nat} {b : SendBuffer Tid}
    (hi : s.buffers[i]? = some b) (hcl : b.closed = true) : ∃ b', s'.buffers[i]? = some b' ∧ b'.closed = true := by
  have hsilent : Silent s s' → ∃ b', s'.buffers[i]? = some b' ∧ b'.closed = true := by
    intro h
    obtain ⟨l, hl⟩ := h.buffers
    exact ⟨b, by rw [← hl, List.getElem?_append_left (List.getElem?_eq_some_iff.1 hi).1, hi], hcl⟩
  cases bufferStep_effect he with
  | pop _ _ | write _ _ _ | closeFails _ _ _ _ => exact ⟨b, hi, hcl⟩
  | openCall _ _ hopen => exact hsilent hopen.silent
  | next hstep => exact hsilent hstep.silent
  | close hj _ _ _ _ => exact closed_set hj (fun _ => rfl) hi hcl
  | copyRef hj _ | dropRef hj _ _ => exact closed_set hj (by exact id) hi hcl

end Geon
