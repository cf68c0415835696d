import GeonServer.LockRun
/-!
# NestedGuards — the guards of one thread

Which scopes a thread may open inside which: a read guard inside a write guard, but no write guard inside a read guard.
`WriteUnlock` refuses to run while there is a read hold, so the inner write guard could not be given back
(`write_inside_read`).  With the scopes in that order a thread that is alone with the lock never waits and never crashes,
and the lock is its own until the outermost scope ends (`nested_guards`).
-/
namespace Geon

open Lts Function

/-! ## Runs of nested scopes -/

/-- The order of the scopes: the outermost is a write scope, and a write scope is not inside a read scope. -/
def OpensScope (th : LockThread) : LockAct Unit → Prop
  | .acquire _ .write => th.reads = 0
  | .acquire _ .read => th.guards ≠ []
  | _ => True

instance (th : LockThread) : ∀ a, Decidable (OpensScope th a)
  | .acquire _ .write => inferInstanceAs (Decidable (_ = 0))
  | .acquire _ .read => inferInstanceAs (Decidable (_ ≠ []))
  | .release _ | .next _ _ => .isTrue trivial

/-- The scopes are opened in the order, and no more than 65535 deep. -/
def Nests (s : LockState Unit) (a : LockAct Unit) (s' : LockState Unit) : Prop :=
  OpensScope (s.threads ()) a ∧ (s'.threads ()).guards.length < 65536

instance (s : LockState Unit) (a : LockAct Unit) (s' : LockState Unit) : Decidable (Nests s a s') :=
  inferInstanceAs (Decidable (_ ∧ _))

/-- The states of the runs of the one thread. -/
def NestedReach (LThreadId : BitVec 32) (s : LockState Unit) : Prop :=
  Reach (lockStep (fun _ => LThreadId)) Nests lockState₀ s

/-- How many atomic operations are left of a call that does not have to wait. -/
def LockPc.operations : LockPc → Nat
  | .idle => 0
  | .writeReenter | .writeEnter | .unlockStore | .readReenter | .readTry _ _ | .readUnlock => 1
  | .writeSpin _ | .unlockCount | .readSpin _ => 2
  | .writeLoad | .writeClock | .unlockLoad | .readLoad | .readClock => 3

/-! ## The invariant -/

/-- The read guards are inside the write guards. -/
def Layered (guards : List Guard) : Prop :=
  ∃ r w, guards = List.replicate r .read ++ List.replicate w .write ∧ (0 < r → 0 < w)

/-- Where the thread is, it does not wait. -/
def LockThread.NeverWaits (th : LockThread) : Prop :=
  match th.pc with
  | .writeLoad | .writeReenter => th.reads = 0
  | .writeSpin spinCount => spinCount = 0 ∧ th.guards = []
  | .writeEnter => th.guards = []
  | .readLoad | .readReenter => th.guards ≠ []
  | .writeClock | .readSpin _ | .readTry _ _ | .readClock => False
  | _ => True

structure NestedInv (LThreadId : BitVec 32) (s : LockState Unit) : Prop where
  lock : LockInv (fun _ => LThreadId) s
  crashed : s.crashed = none
  layered : Layered (s.threads ()).guards
  neverWaits : (s.threads ()).NeverWaits

variable {guards : List Guard} {LThreadId : BitVec 32} {s s' : LockState Unit} {a : LockAct Unit}

theorem Layered.nil : Layered [] := ⟨0, 0, rfl, fun h => absurd h (Nat.lt_irrefl 0)⟩

theorem Layered.depth_pos (h : Layered guards) (hne : guards ≠ []) : 0 < guards.count .write := by
  obtain ⟨r, w, rfl, hw⟩ := h
  have hpos : 0 < w := by
    by_contra hzero
    have hw0 : w = 0 := by omega
    have hr0 : r = 0 := by
      by_contra hr
      exact hzero (hw (Nat.pos_of_ne_zero hr))
    rw [hw0, hr0] at hne
    exact hne rfl
  simpa [List.count_append, List.count_replicate] using hpos

theorem Layered.write (h : Layered guards) (hreads : guards.count .read = 0) : Layered (.write :: guards) := by
  obtain ⟨r, w, rfl, hw⟩ := h
  have hr : r = 0 := by simpa [List.count_append, List.count_replicate] using hreads
  subst hr
  exact ⟨0, w + 1, rfl, fun h => absurd h (Nat.lt_irrefl 0)⟩

theorem Layered.read (h : Layered guards) (hne : guards ≠ []) : Layered (.read :: guards) := by
  have hdepth := h.depth_pos hne
  obtain ⟨r, w, rfl, hw⟩ := h
  refine ⟨r + 1, w, rfl, fun _ => ?_⟩
  simpa [List.count_append, List.count_replicate] using hdepth

theorem Layered.tail (h : Layered guards) : Layered guards.tail := by
  obtain ⟨r, w, rfl, hw⟩ := h
  cases r with
  | succ r => exact ⟨r, w, rfl, fun _ => hw (Nat.succ_pos r)⟩
  | zero =>
    cases w with
    | zero => exact .nil
    | succ w => exact ⟨0, w, rfl, fun h => absurd h (Nat.lt_irrefl 0)⟩

/-- No read guard is outside a write guard. -/
theorem Layered.reads_zero (h : Layered guards) (hhead : guards.head? = some .write) : guards.count .read = 0 := by
  obtain ⟨r, w, rfl, -⟩ := h
  cases r with
  | succ r => cases hhead
  | zero => simp [List.count_replicate]

theorem ids_unit (h1 : 1 ≤ LThreadId.toNat) (h2 : LThreadId.toNat ≤ 65535) : Ids (fun _ : Unit => LThreadId) :=
  ⟨fun _ _ _ => rfl, fun _ => h1, fun _ => h2⟩

namespace NestedInv

theorem low (hI : NestedInv LThreadId s) : s.lock.low = (s.threads ()).reads := by
  rw [hI.lock.low]
  simp [tally]

theorem owns (hI : NestedInv LThreadId s) (hne : (s.threads ()).guards ≠ []) : (s.threads ()).owns :=
  .inl (hI.layered.depth_pos hne)

theorem owner (hI : NestedInv LThreadId s) (hid : Ids (fun _ : Unit => LThreadId)) (hne : (s.threads ()).guards ≠ []) :
    LThreadId = s.lock.lockThreadId := (hI.lock.owner_test hid ()).2 (hI.owns hne)

/-- Without a guard, and before the exchange that takes it, the lock is as it was at first. -/
theorem free (hI : NestedInv LThreadId s) (hguards : (s.threads ()).guards = [])
    (hpc : (s.threads ()).pc ≠ .writeEnter) : s.lock = ⟨EMPTY_FLAG, 0⟩ := by
  have hno : ¬ (s.threads ()).owns := by
    simp [LockThread.owns, LockThread.depth, hguards, hpc]
  have hlow : s.lock.low = 0 := by
    rw [hI.low, LockThread.reads, hguards]
    rfl
  rcases hI.lock.high with ⟨_, ho, -⟩ | ⟨-, hhigh, hcount⟩
  · exact absurd ho hno
  · have hflag := (lock_eq_empty s.lock).2 ⟨hhigh, hlow⟩
    have hwrite : s.lock.writeCount = 0 := BitVec.eq_of_toNat_eq hcount
    rw [← hflag, ← hwrite]

/-- **The next operation of a call**: it is one nearer to the end of the call and runs into no crash. -/
theorem next (hI : NestedInv LThreadId s) (hid : Ids (fun _ : Unit => LThreadId)) (hpc : (s.threads ()).pc ≠ .idle)
    (elapsed : Nat) : ∃ l th, lockNext LThreadId elapsed s.lock (s.threads ()) = some (.ok (l, th)) ∧
      th.pc.operations < (s.threads ()).pc.operations ∧ Layered th.guards ∧ th.NeverWaits := by
  have hlayered := hI.layered
  have hwaits := hI.neverWaits
  have hok := hI.lock.pcOk ()
  have hfree := hI.free
  have howner := hI.owner hid
  have hlow := hI.low
  have hzero : (0 : BitVec 32).toNat = 0 := rfl
  unfold LockThread.NeverWaits at hwaits
  unfold LockThread.PcOk at hok
  unfold lockNext
  cases hth : (s.threads ()).pc <;> simp only [hth] at hwaits hok hfree ⊢
  case idle => exact absurd hth hpc
  case writeLoad =>
    refine ⟨_, _, rfl, ?_, hlayered, ?_⟩
    · dsimp only
      split <;> decide
    · by_cases hid' : LThreadId = s.lock.lockThreadId
      · rw [if_pos hid']
        exact hwaits
      · rw [if_neg hid']
        refine ⟨rfl, ?_⟩
        by_contra hne
        exact hid' (howner hne)
  case writeReenter => exact ⟨_, _, rfl, by simp [LockPc.operations], hlayered.write hwaits, trivial⟩
  case writeSpin spinCount =>
    have hlock := hfree hwaits.2 (by simp)
    rw [if_pos (by rw [hlock])]
    exact ⟨_, _, rfl, by simp [LockPc.operations], hlayered, hwaits.2⟩
  case writeEnter =>
    refine ⟨_, _, rfl, by simp [LockPc.operations], hlayered.write ?_, trivial⟩
    rw [hwaits]
    rfl
  case unlockLoad =>
    have hcount : s.lock.lockFlag &&& READ_COUNT_MASK = 0 := by
      rw [← BitVec.toNat_inj, toNat_readCount, hlow, hzero]
      exact hlayered.reads_zero hok
    rw [if_neg (not_not.2 hcount)]
    exact ⟨_, _, rfl, by simp [LockPc.operations], hlayered, trivial⟩
  case unlockCount =>
    by_cases hlast : s.lock.writeCount - 1 = 0
    · rw [if_pos hlast]
      exact ⟨_, _, rfl, by simp [LockPc.operations], hlayered, trivial⟩
    · rw [if_neg hlast]
      exact ⟨_, _, rfl, by simp [LockPc.operations], hlayered.tail, trivial⟩
  case unlockStore => exact ⟨_, _, rfl, by simp [LockPc.operations], hlayered.tail, trivial⟩
  case readLoad =>
    rw [if_pos (howner hwaits)]
    exact ⟨_, _, rfl, by simp [LockPc.operations], hlayered, hwaits⟩
  case readReenter => exact ⟨_, _, rfl, by simp [LockPc.operations], hlayered.read hwaits, trivial⟩
  case readUnlock =>
    obtain ⟨gs, hg⟩ := List.head?_eq_some_iff.1 hok
    have hcount : s.lock.lockFlag &&& READ_COUNT_MASK ≠ 0 := by
      rw [Ne, ← BitVec.toNat_inj, toNat_readCount, hlow, hzero, LockThread.reads, hg]
      simp
    rw [if_neg hcount]
    exact ⟨_, _, rfl, by simp [LockPc.operations], hlayered.tail, trivial⟩

/-- **The step lemma.** -/
theorem step (hI : NestedInv LThreadId s) (hid : Ids (fun _ : Unit => LThreadId))
    (he : lockStep (fun _ => LThreadId) s a = some s') (hok : Nests s a s') : NestedInv LThreadId s' := by
  obtain ⟨hopens, hlength⟩ := hok
  have hbounded : Bounded s' := by
    have hreads : tally LockThread.reads s'.threads = (s'.threads ()).guards.count .read := by
      simp [tally, LockThread.reads]
    have hle := fun g => (s'.threads ()).guards.count_le_length (a := g)
    refine ⟨?_, fun _ => Nat.lt_of_le_of_lt (hle .write) hlength⟩
    rw [hreads]
    exact Nat.lt_of_le_of_lt (hle .read) hlength
  have hlock := lockStep_inv hI.lock hid he hbounded
  cases a with
  | acquire t g =>
    obtain ⟨-, he⟩ := Option.ite_none_right_eq_some.1 he
    cases he
    refine ⟨hlock, hI.crashed, ?_, ?_⟩
    · rw [LockState.set_threads, update_self]
      exact hI.layered
    · rw [LockState.set_threads, update_self]
      cases g <;> exact hopens
  | release t =>
    obtain ⟨hidle, he⟩ := Option.ite_none_right_eq_some.1 he
    cases hg : (s.threads ()).guards with
    | nil =>
      rw [hg] at he
      cases he
    | cons g gs =>
      rw [hg] at he
      cases he
      refine ⟨hlock, hI.crashed, ?_, ?_⟩
      · rw [LockState.set_threads, update_self, ← hg]
        exact hI.layered
      · rw [LockState.set_threads, update_self]
        cases g <;> trivial
  | next t elapsed =>
    obtain ⟨-, he⟩ := Option.ite_none_right_eq_some.1 he
    by_cases hpc : (s.threads ()).pc = .idle
    · have hnone : lockNext LThreadId elapsed s.lock (s.threads ()) = none := by
        unfold lockNext
        rw [hpc]
      rw [hnone] at he
      cases he
    · obtain ⟨l, th, hnext, -, hlayered, hwaits⟩ := hI.next hid hpc elapsed
      rw [hnext] at he
      cases he
      refine ⟨hlock, hI.crashed, ?_, ?_⟩
      · rw [LockState.set_threads, update_self]
        exact hlayered
      · rw [LockState.set_threads, update_self]
        exact hwaits

end NestedInv

theorem nestedInv₀ : NestedInv LThreadId lockState₀ := ⟨lockInv₀, rfl, .nil, trivial⟩

theorem NestedReach.nestedInv (h : NestedReach LThreadId s) (hid : Ids (fun _ : Unit => LThreadId)) :
    NestedInv LThreadId s := h.inv nestedInv₀ (fun _ _ _ _ hI he hok => hI.step hid he hok)

/-- **Nested scopes of one thread**: in every run of scopes in which no write scope is inside a read scope, nothing
crashes; a call is over after at most three atomic operations, whatever the clock says; the lock is the thread's as long
as a scope is open; and after the outermost scope it is as it was at first. -/
theorem nested_guards (h1 : 1 ≤ LThreadId.toNat) (h2 : LThreadId.toNat ≤ 65535) (h : NestedReach LThreadId s) :
    s.crashed = none ∧
    (s.threads ()).pc.operations ≤ 3 ∧
    (∀ elapsed, (s.threads ()).pc ≠ .idle → ∃ s', lockStep (fun _ => LThreadId) s (.next () elapsed) = some s' ∧
      s'.crashed = none ∧ (s'.threads ()).pc.operations < (s.threads ()).pc.operations) ∧
    ((s.threads ()).guards ≠ [] → s.lock.lockThreadId = LThreadId) ∧
    ((s.threads ()).guards = [] → (s.threads ()).pc = .idle → s.lock = ⟨EMPTY_FLAG, 0⟩) := by
  have hid := ids_unit h1 h2
  have hI := h.nestedInv hid
  refine ⟨hI.crashed, ?_, fun elapsed hpc => ?_, fun hne => (hI.owner hid hne).symm, fun hguards hpc => ?_⟩
  · cases (s.threads ()).pc <;> simp [LockPc.operations]
  · obtain ⟨l, th, hnext, hless, -⟩ := hI.next hid hpc elapsed
    refine ⟨s.set () l th, ?_, hI.crashed, ?_⟩
    · simp only [lockStep, hI.crashed, hnext, if_true]
    · rw [LockState.set_threads, update_self]
      exact hless
  · exact hI.free hguards (by simp [hpc])

/-- Two write scopes with two read scopes inside. -/
def nestedScopes : List (LockAct Unit) :=
  [.acquire () .write, .next () 0, .next () 0, .next () 0, .acquire () .write, .next () 0, .next () 0,
   .acquire () .read, .next () 0, .next () 0, .acquire () .read, .next () 0, .next () 0]

theorem nested_guards_two : ∃ s, run (lockStep (fun _ => 1#32)) Nests lockState₀ nestedScopes = some s ∧
    s.crashed = none ∧ s.lock.lockThreadId = 1#32 := by
  obtain ⟨s, hrun, hs⟩ := reach_of_run (lockStep (fun _ => 1#32)) Nests lockState₀ nestedScopes (by decide)
  have hguards : (run (lockStep (fun _ => 1#32)) Nests lockState₀ nestedScopes).map (fun s => (s.threads ()).guards) =
      some [.read, .read, .write, .write] := by decide
  rw [hrun, Option.map_some, Option.some.injEq] at hguards
  obtain ⟨hcrashed, -, -, howned, -⟩ := nested_guards (by decide) (by decide) hs
  exact ⟨s, hrun, hcrashed, howned (by simp [hguards])⟩

/-- A write scope inside a read scope inside a write scope, up to the end of the innermost. -/
def writeInsideRead : List (LockAct Unit) :=
  [.acquire () .write, .next () 0, .next () 0, .next () 0, .acquire () .read, .next () 0, .next () 0,
   .acquire () .write, .next () 0, .next () 0, .release (), .next () 0]

/-- **A write scope inside a read scope ends in a crash**, though the outermost scope is a write scope. -/
theorem write_inside_read : ∃ s, run (lockStep (fun _ => 1#32)) Any lockState₀ writeInsideRead = some s ∧
    s.crashed = some "INVALD_UNLOCK_ORDER" := by
  obtain ⟨s, hrun, -⟩ := reach_of_run (lockStep (fun _ => 1#32)) Any lockState₀ writeInsideRead (by decide)
  have hcrashed : (run (lockStep (fun _ => 1#32)) Any lockState₀ writeInsideRead).map (fun s => s.crashed) =
      some (some "INVALD_UNLOCK_ORDER") := by decide
  rw [hrun, Option.map_some, Option.some.injEq] at hcrashed
  exact ⟨s, hrun, hcrashed⟩

end Geon
