import GeonServer.LockCounters
import GeonServer.RwLock
/-!
# LockRefines — `Lock` is a re-entrant reader/writer lock

What a thread holds of a `Lock`, seen from outside: its guards, and the write hold that begins with the exchange that
sets the flag.  Under this view every atomic operation of ServerCore/Lock.cpp is invisible or one step of `RwLock`
(`lock_refines`), and every step `RwLock` allows a thread is what a call of the thread comes to when it runs alone
(`lock_completes`).
-/
namespace Geon

open Lts Function

def Guard.mode : Guard → RwLock.Mode
  | .write => .write
  | .read => .read

/-- What a thread holds, from the exchange that takes the flag to the store that gives it back. -/
def LockThread.holds (th : LockThread) : List RwLock.Mode :=
  if th.pc = .writeEnter then .write :: th.guards.map Guard.mode else th.guards.map Guard.mode

variable {Tid : Type*} [DecidableEq Tid]

def LockState.holds (s : LockState Tid) : RwLock.Holds Tid := fun t => (s.threads t).holds

theorem LockThread.holds_of_ne {th : LockThread} (h : th.pc ≠ .writeEnter) : th.holds = th.guards.map Guard.mode :=
  if_neg h

theorem mem_map_mode (gs : List Guard) (g : Guard) : g.mode ∈ gs.map Guard.mode ↔ 0 < gs.count g := by
  rw [List.count_pos_iff]
  constructor
  · intro h
    obtain ⟨g', hg', he⟩ := List.mem_map.1 h
    cases g <;> cases g' <;> first | exact hg' | cases he
  · exact List.mem_map_of_mem

theorem write_mem_holds (th : LockThread) : .write ∈ th.holds ↔ th.owns := by
  unfold LockThread.holds LockThread.owns
  split
  · rename_i h
    simp [h]
  · rename_i h
    rw [or_iff_left h]
    exact mem_map_mode th.guards .write

theorem read_mem_holds (th : LockThread) : .read ∈ th.holds ↔ 0 < th.reads := by
  unfold LockThread.holds
  split
  · rw [List.mem_cons, or_iff_right (by simp)]
    exact mem_map_mode th.guards .read
  · exact mem_map_mode th.guards .read

theorem holds_eq_nil (th : LockThread) : th.holds = [] ↔ ¬ th.owns ∧ th.reads = 0 := by
  rw [List.eq_nil_iff_forall_not_mem, ← write_mem_holds]
  constructor
  · intro h
    refine ⟨h .write, ?_⟩
    have := (read_mem_holds th).not.1 (h .read)
    omega
  · rintro ⟨hw, hr⟩ m hm
    cases m with
    | write => exact hw hm
    | read =>
      rw [read_mem_holds] at hm
      omega

/-! A thread that is not between the exchange and `_writeCount++`, before or after. -/

section
variable {th th' : LockThread} (hpc : th.pc ≠ .writeEnter) (hpc' : th'.pc ≠ .writeEnter)
include hpc hpc'

theorem holds_move (hguards : th'.guards = th.guards) : th'.holds = th.holds := by
  rw [LockThread.holds_of_ne hpc, LockThread.holds_of_ne hpc', hguards]

theorem holds_push {g : Guard} (hguards : th'.guards = g :: th.guards) : th'.holds = g.mode :: th.holds := by
  rw [LockThread.holds_of_ne hpc, LockThread.holds_of_ne hpc', hguards, List.map_cons]

theorem holds_pop (hguards : th'.guards = th.guards.tail) : th'.holds = th.holds.tail := by
  rw [LockThread.holds_of_ne hpc, LockThread.holds_of_ne hpc', hguards, List.map_tail]

end

/-- A write hold without a read hold around it can be dropped, and any read hold. -/
theorem droppable_holds {th : LockThread} {g : Guard} (hpc : th.pc ≠ .writeEnter) (hhead : th.guards.head? = some g)
    (hreads : g = .write → th.reads = 0) : RwLock.Droppable th.holds := by
  obtain ⟨gs, hg⟩ := List.head?_eq_some_iff.1 hhead
  rw [LockThread.holds_of_ne hpc, hg]
  cases g with
  | read => trivial
  | write =>
    intro hin
    have hpos := (mem_map_mode gs .read).1 hin
    have hzero := hreads rfl
    simp only [LockThread.reads, hg, List.count_cons_of_ne (by decide : Guard.write ≠ Guard.read)] at hzero
    omega

theorem LockState.holds_set (s : LockState Tid) (t : Tid) (l : Lock) (th : LockThread) :
    (s.set t l th).holds = update s.holds t th.holds := by
  funext u
  by_cases hu : u = t
  · subst hu
    simp only [LockState.holds, LockState.set_threads, update_self]
  · simp only [LockState.holds, LockState.set_threads, update_of_ne hu]

variable [Fintype Tid] {LThreadId : Tid → BitVec 32} {s s' : LockState Tid} {t : Tid} {l : Lock} {th : LockThread}

/-! ## Each operation -/

/-- The empty word: nobody holds anything. -/
theorem LockInv.empty_iff (hI : LockInv LThreadId s) (hid : Ids LThreadId) :
    s.lock.lockFlag = EMPTY_FLAG ↔ ∀ u, s.holds u = [] := by
  rw [lock_eq_empty]
  constructor
  · rintro ⟨hhigh, hlow⟩ u
    refine (holds_eq_nil _).2 ⟨hI.no_owner hid hhigh u, ?_⟩
    have := le_tally LockThread.reads s.threads u
    rw [← hI.low] at this
    omega
  · intro hall
    have hnone := fun u => (holds_eq_nil (s.threads u)).1 (hall u)
    refine ⟨?_, ?_⟩
    · rcases hI.high with ⟨o, ho, -⟩ | ⟨-, h0, -⟩
      · exact absurd ho (hnone o).1
      · exact h0
    · rw [hI.low, tally_eq_zero]
      exact fun u => (hnone u).2

/-- Nobody writes: the upper half is empty. -/
theorem LockInv.high_zero_iff (hI : LockInv LThreadId s) (hid : Ids LThreadId) :
    s.lock.high = 0 ↔ ∀ u, .write ∉ s.holds u := by
  constructor
  · intro h u hu
    exact hI.no_owner hid h u ((write_mem_holds _).1 hu)
  · intro h
    rcases hI.high with ⟨o, ho, -⟩ | ⟨-, h0, -⟩
    · exact absurd ((write_mem_holds _).2 ho) (h o)
    · exact h0

/-- **An atomic operation is invisible or a step of the lock its thread takes.** -/
theorem LockInv.holds_next (hI : LockInv LThreadId s) (hid : Ids LThreadId) {elapsed : Nat}
    (h : lockNext (LThreadId t) elapsed s.lock (s.threads t) = some (.ok (l, th))) :
    (s.set t l th).holds = s.holds ∨
      ∃ op : RwLock.Op Tid, op.party = t ∧ RwLock.step s.holds op = some (s.set t l th).holds := by
  have hok := hI.pcOk t
  rw [LockState.holds_set]
  have hsame : th.holds = (s.threads t).holds → update s.holds t th.holds = s.holds := by
    intro heq
    rw [heq]
    exact update_eq_self t s.holds
  have htake : ∀ m, RwLock.Free s.holds t m → th.holds = m :: (s.threads t).holds →
      ∃ op : RwLock.Op Tid, op.party = t ∧ RwLock.step s.holds op = some (update s.holds t th.holds) := by
    intro m hfree heq
    refine ⟨.take t m, rfl, ?_⟩
    rw [RwLock.step, if_pos hfree, heq]
    rfl
  have hdrop : RwLock.Droppable (s.threads t).holds → th.holds = (s.threads t).holds.tail →
      ∃ op : RwLock.Op Tid, op.party = t ∧ RwLock.step s.holds op = some (update s.holds t th.holds) := by
    intro hcan heq
    refine ⟨.drop t, rfl, ?_⟩
    have hcan' : RwLock.Droppable (s.holds t) := hcan
    rw [RwLock.step, if_pos hcan', heq]
    rfl
  unfold LockThread.PcOk at hok
  unfold lockNext at h
  by_cases henter : (s.threads t).pc = .writeEnter
  case pos =>
    -- the hold is there since the exchange: the guard comes to stand for it
    simp only [henter] at h
    cases h
    refine .inl (hsame ?_)
    rw [LockThread.holds_of_ne (by simp), LockThread.holds, if_pos henter]
    rfl
  cases hpc : (s.threads t).pc <;> simp only [hpc] at h hok
  case idle => cases h
  case writeEnter => exact absurd hpc henter
  case writeLoad =>
    cases h
    exact .inl (hsame (holds_move henter (by dsimp only; split <;> simp) rfl))
  case writeReenter =>
    cases h
    exact .inr (htake .write (.inl ((write_mem_holds _).2 (.inl hok))) (holds_push (g := .write) henter (by simp) rfl))
  case writeSpin spinCount =>
    split at h
    · rename_i hempty
      cases h
      refine .inr (htake .write (.inr ((hI.empty_iff hid).1 hempty)) ?_)
      rw [LockThread.holds_of_ne henter]
      exact if_pos rfl
    · split at h <;> cases h <;> exact .inl (hsame (holds_move henter (by simp) rfl))
  case unlockCount =>
    split at h <;> cases h
    · exact .inl (hsame (holds_move henter (by simp) rfl))
    · exact .inr (hdrop (droppable_holds henter hok.1 (fun _ => hok.2)) (holds_pop henter (by simp) rfl))
  case unlockStore =>
    cases h
    exact .inr (hdrop (droppable_holds henter hok.1 (fun _ => hok.2.1)) (holds_pop henter (by simp) rfl))
  case readLoad =>
    cases h
    exact .inl (hsame (holds_move henter (by dsimp only; split <;> simp) rfl))
  case readReenter =>
    cases h
    exact .inr (htake .read (.inl ((write_mem_holds _).2 (.inl hok))) (holds_push (g := .read) henter (by simp) rfl))
  case readSpin spinCount =>
    cases h
    exact .inl (hsame (holds_move henter (by simp) rfl))
  case readTry spinCount expected =>
    split at h
    · rename_i hflag
      cases h
      have hhigh : s.lock.high = 0 := by
        simp only [Lock.high, hflag]
        omega
      exact .inr (htake .read (.inr ((hI.high_zero_iff hid).1 hhigh)) (holds_push (g := .read) henter (by simp) rfl))
    · split at h <;> cases h <;> exact .inl (hsame (holds_move henter (by simp) rfl))
  case readUnlock =>
    split at h <;> cases h
    exact .inr (hdrop (droppable_holds henter hok (fun h => by cases h)) (holds_pop henter (by simp) rfl))
  case writeClock =>
    split at h <;> cases h
    exact .inl (hsame (holds_move henter (by simp) rfl))
  case unlockLoad =>
    split at h <;> cases h
    exact .inl (hsame (holds_move henter (by simp) rfl))
  case readClock =>
    split at h <;> cases h
    exact .inl (hsame (holds_move henter (by simp) rfl))

/-- **A step of the system is invisible or a step of the lock by the thread that moves.** -/
theorem LockInv.holds_step (hI : LockInv LThreadId s) (hid : Ids LThreadId) {a : LockAct Tid}
    (he : lockStep LThreadId s a = some s') : s'.holds = s.holds ∨
      ∃ t elapsed, a = .next t elapsed ∧
        ∃ op : RwLock.Op Tid, op.party = t ∧ RwLock.step s.holds op = some s'.holds := by
  have hcall : ∀ t pc, (s.threads t).pc = .idle → pc ≠ .writeEnter →
      (s.set t s.lock ⟨pc, (s.threads t).guards⟩).holds = s.holds := by
    intro t pc hidle hpc
    have hsame : (⟨pc, (s.threads t).guards⟩ : LockThread).holds = (s.threads t).holds :=
      holds_move (by rw [hidle]; simp) hpc rfl
    rw [LockState.holds_set, hsame]
    exact update_eq_self t s.holds
  cases a with
  | acquire t g =>
    obtain ⟨⟨-, hidle⟩, he⟩ := Option.ite_none_right_eq_some.1 he
    cases he
    exact .inl (hcall t _ hidle (by cases g <;> simp [Guard.acquirePc]))
  | release t =>
    simp only [lockStep] at he
    split at he
    · rename_i hidle
      split at he <;> cases he
      rename_i g gs hg
      rw [← hg]
      exact .inl (hcall t _ hidle.2 (by cases g <;> simp [Guard.releasePc]))
    · cases he
  | next t elapsed =>
    simp only [lockStep] at he
    split at he
    · split at he <;> cases he
      · exact .inl rfl
      · rcases hI.holds_next hid ‹_› with hsame | ⟨op, hop, hstep⟩
        · exact .inl hsame
        · exact .inr ⟨t, elapsed, rfl, op, hop, hstep⟩
    · cases he

/-- **The only crashes** are a timeout and a write unlock inside the thread's own read lock. -/
theorem LockInv.crash (hI : LockInv LThreadId s) {elapsed : Nat} {cause : String}
    (h : lockNext (LThreadId t) elapsed s.lock (s.threads t) = some (.error cause)) :
    cause = "LOCK_TIMEOUT" ∨ cause = "INVALD_UNLOCK_ORDER" ∧ ¬ RwLock.Droppable (s.holds t) := by
  have hok := hI.pcOk t
  have hle := le_tally LockThread.reads s.threads t
  have hlow := hI.low
  unfold LockThread.PcOk at hok
  unfold lockNext at h
  cases hpc : (s.threads t).pc <;> simp only [hpc] at h hok
  case writeSpin => split at h <;> (try split at h) <;> cases h
  case readTry => split at h <;> (try split at h) <;> cases h
  case writeClock =>
    split at h <;> cases h
    exact .inl rfl
  case readClock =>
    split at h <;> cases h
    exact .inl rfl
  case unlockCount => split at h <;> cases h
  case unlockLoad =>
    split at h <;> cases h
    rename_i hcount
    have h0 : (0 : BitVec 32).toNat = 0 := rfl
    rw [Ne, ← BitVec.toNat_inj, toNat_readCount, h0, hlow] at hcount
    -- the read holds are the owner's own, and they are inside the write hold it drops
    have howns : (s.threads t).owns := .inl (LockThread.depth_pos_of_head hok)
    have hreads : 0 < (s.threads t).reads := by
      by_contra hzero
      refine hcount ((tally_eq_zero _ _).2 (fun u => ?_))
      by_cases hu : u = t
      · rw [hu]
        omega
      · exact (hI.excl t u howns hu).2
    refine .inr ⟨rfl, fun hdrop => ?_⟩
    obtain ⟨gs, hg⟩ := List.head?_eq_some_iff.1 hok
    have hread := (read_mem_holds (s.threads t)).2 hreads
    have hholds : (s.threads t).holds = .write :: gs.map Guard.mode := by
      rw [LockThread.holds_of_ne (by simp [hpc]), hg]
      rfl
    rw [LockState.holds, hholds] at hdrop
    rw [hholds, List.mem_cons, or_iff_right (by simp)] at hread
    exact hdrop hread
  case readUnlock =>
    split at h <;> cases h
    rename_i hcount
    have h0 : (0 : BitVec 32).toNat = 0 := rfl
    rw [← BitVec.toNat_inj, toNat_readCount, h0, hlow] at hcount
    obtain ⟨gs, hg⟩ := List.head?_eq_some_iff.1 hok
    have : 0 < (s.threads t).reads := by simp [LockThread.reads, hg]
    omega
  all_goals cases h

/-! ## Refinement -/

/-- **`Lock` is a re-entrant reader/writer lock.**  In every run of threads with distinct ids in 1..65535 and fewer than
65536 holds of each kind, what the threads hold is what the threads of a run of `RwLock` hold; each atomic operation is
invisible or one step of that lock by the thread that does it; and the code crashes only on a timeout, or on a write
unlock that `RwLock` refuses. -/
theorem lock_refines (hid : Ids LThreadId) (h : LockReach LThreadId s) :
    Reach RwLock.step Any (fun _ => []) s.holds ∧
    (∀ a s', lockStep LThreadId s a = some s' → s'.holds = s.holds ∨
      ∃ t elapsed, a = .next t elapsed ∧
        ∃ op : RwLock.Op Tid, op.party = t ∧ RwLock.step s.holds op = some s'.holds) ∧
    ∀ t elapsed cause, lockNext (LThreadId t) elapsed s.lock (s.threads t) = some (.error cause) →
      cause = "LOCK_TIMEOUT" ∨ cause = "INVALD_UNLOCK_ORDER" ∧ RwLock.step s.holds (.drop t) = none := by
  have hI := h.lockInv hid
  refine ⟨?_, fun a s' he => hI.holds_step hid he, fun t elapsed cause hc => ?_⟩
  · refine Reach.inv (P := fun s => Reach RwLock.step Any (fun _ => []) s.holds) h .start ?_
    intro s a s' hr hreach he _
    rcases (LockReach.lockInv hr hid).holds_step hid he with hsame | ⟨_, _, _, op, _, hstep⟩
    · rwa [hsame]
    · exact hreach.next hstep trivial
  · exact (hI.crash hc).imp_right (fun ⟨hcause, hno⟩ => ⟨hcause, if_neg hno⟩)

theorem lock_refines_nested : ∃ s, run (lockStep ids) (fun _ _ s' => Bounded s') lockState₀ nestedRun = some s ∧
    s.holds .one = [.read, .write, .write] ∧ Reach RwLock.step Any (fun _ => []) s.holds := by
  obtain ⟨s, hrun, hr⟩ := reach_of_run (lockStep ids) (fun _ _ s' => Bounded s') lockState₀ nestedRun (by decide)
  have hs : (run (lockStep ids) (fun _ _ s' => Bounded s') lockState₀ nestedRun).map (fun s => s.holds .one) =
      some [.read, .write, .write] := by decide
  simp only [hrun, Option.map_some, Option.some.injEq] at hs
  exact ⟨s, hrun, hs, (lock_refines ids_ids hr).1⟩

/-! ## Completeness -/

omit [Fintype Tid] in
theorem LockState.set_set (s : LockState Tid) (t : Tid) (l l' : Lock) (th th' : LockThread) :
    (s.set t l th).set t l' th' = s.set t l' th' := by
  unfold LockState.set
  rw [update_idem]

local instance (s : LockState Tid) : Decidable (Bounded s) := inferInstanceAs (Decidable (_ ∧ _))

/-- The runs in which the counts stay within their 16 bits. -/
abbrev lockRun (LThreadId : Tid → BitVec 32) : LockState Tid → List (LockAct Tid) → Option (LockState Tid) :=
  run (lockStep LThreadId) (fun _ _ s' => Bounded s')

/-- Thread `t`, alone, does its next operation. -/
theorem lockRun_next (hrun : s.crashed = none) {l : Lock} {th : LockThread} (l' : Lock) (th' : LockThread)
    (hnext : lockNext (LThreadId t) 0 l th = some (.ok (l', th'))) (hb : Bounded (s.set t s.lock th'))
    (acts : List (LockAct Tid)) :
    lockRun LThreadId (s.set t l th) (.next t 0 :: acts) = lockRun LThreadId (s.set t l' th') acts := by
  have hstep : lockStep LThreadId (s.set t l th) (.next t 0) = some (s.set t l' th') := by
    have hcrashed : (s.set t l th).crashed = none := hrun
    simp only [lockStep, if_pos hcrashed, LockState.set_lock, LockState.set_threads, update_self, hnext,
      LockState.set_set]
  have hb' : Bounded (s.set t l' th') := hb
  rw [lockRun, run, hstep, Option.bind_some, if_pos hb']

/-- A call that leads to one operation after the other, the last of them with the guards `gs`. -/
structure Completes (LThreadId : Tid → BitVec 32) (s : LockState Tid) (t : Tid) (call : LockAct Tid)
    (gs : List Guard) : Prop where
  returns : ∃ n l, n ≤ 3 ∧
    lockRun LThreadId s (call :: .replicate n (.next t 0)) = some (s.set t l ⟨.idle, gs⟩)

/-- The call has been made, and what is left are these operations. -/
theorem Completes.of_run {call : LockAct Tid} {pc : LockPc} {gs gs' : List Guard} {n : Nat} {l : Lock} (hn : n ≤ 3)
    (hcall : lockStep LThreadId s call = some (s.set t s.lock ⟨pc, gs⟩)) (hb : Bounded (s.set t s.lock ⟨pc, gs⟩))
    (hrest : lockRun LThreadId (s.set t s.lock ⟨pc, gs⟩) (.replicate n (.next t 0)) = some (s.set t l ⟨.idle, gs'⟩)) :
    Completes LThreadId s t call gs' := by
  refine ⟨n, l, hn, ?_⟩
  rw [lockRun, run, hcall, Option.bind_some, if_pos hb]
  exact hrest

/-- **A thread alone gets what it may take.** -/
theorem LockInv.acquires (hI : LockInv LThreadId s) (hid : Ids LThreadId) (hb : Bounded s) (hrun : s.crashed = none)
    (hidle : (s.threads t).pc = .idle) {g : Guard} (hroom : Bounded (s.set t s.lock ⟨.idle, g :: (s.threads t).guards⟩))
    (hfree : RwLock.Free s.holds t g.mode) :
    Completes LThreadId s t (.acquire t g) (g :: (s.threads t).guards) := by
  have hcall : lockStep LThreadId s (.acquire t g) = some (s.set t s.lock ⟨g.acquirePc, (s.threads t).guards⟩) :=
    if_pos ⟨hrun, hidle⟩
  have hmove : ∀ pc, Bounded (s.set t s.lock ⟨pc, (s.threads t).guards⟩) :=
    fun pc => bounded_set hb _ (Nat.le_refl _) (Nat.le_refl _)
  have howner := hI.owner_test hid t
  have hwriter : .write ∈ s.holds t ↔ (s.threads t).owns := write_mem_holds _
  by_cases ho : (s.threads t).owns
  · -- the owner counts one more
    have hload := howner.2 ho
    cases g with
    | write =>
      refine .of_run (n := 2) (l := { s.lock with writeCount := s.lock.writeCount + 1 }) (by decide) hcall (hmove _) ?_
      rw [List.replicate, lockRun_next hrun s.lock ⟨.writeReenter, (s.threads t).guards⟩
        (by simp only [lockNext, Guard.acquirePc, if_pos hload]) (hmove _)]
      exact lockRun_next hrun _ _ rfl hroom []
    | read =>
      refine .of_run (n := 2) (l := { s.lock with lockFlag := s.lock.lockFlag + 1 }) (by decide) hcall (hmove _) ?_
      rw [List.replicate, lockRun_next hrun s.lock ⟨.readReenter, (s.threads t).guards⟩
        (by simp only [lockNext, Guard.acquirePc, if_pos hload]) (hmove _)]
      exact lockRun_next hrun _ _ rfl hroom []
  · have hload : ¬ LThreadId t = s.lock.lockThreadId := fun h => ho (howner.1 h)
    cases g with
    | write =>
      have hempty := (hI.empty_iff hid).2 (hfree.resolve_left (fun h => ho (hwriter.1 h)))
      refine .of_run (n := 3) (l := ⟨(LThreadId t <<< 16) &&& WRITE_THREAD_MASK, s.lock.writeCount + 1⟩) (by decide) hcall
        (hmove _) ?_
      rw [List.replicate, lockRun_next hrun s.lock ⟨.writeSpin 0, (s.threads t).guards⟩
        (by simp only [lockNext, Guard.acquirePc, if_neg hload]) (hmove _)]
      rw [List.replicate, lockRun_next hrun
        ⟨(LThreadId t <<< 16) &&& WRITE_THREAD_MASK, s.lock.writeCount⟩ ⟨.writeEnter, (s.threads t).guards⟩
        (by simp only [lockNext, if_pos hempty]) (hmove _)]
      exact lockRun_next hrun _ _ rfl hroom []
    | read =>
      have hhigh := (hI.high_zero_iff hid).2 (hfree.resolve_left (fun h => ho (hwriter.1 h)))
      -- nobody writes, so the word is its own lower half
      have hword : s.lock.lockFlag = s.lock.lockFlag &&& READ_COUNT_MASK := by
        rw [← BitVec.toNat_inj, toNat_readCount]
        simp only [Lock.high, Lock.low] at hhigh ⊢
        omega
      refine .of_run (n := 3) (l := { s.lock with lockFlag := (s.lock.lockFlag &&& READ_COUNT_MASK) + 1 }) (by decide) hcall
        (hmove _) ?_
      rw [List.replicate, lockRun_next hrun s.lock ⟨.readSpin 0, (s.threads t).guards⟩
        (by simp only [lockNext, Guard.acquirePc, if_neg hload]) (hmove _)]
      rw [List.replicate, lockRun_next hrun s.lock ⟨.readTry 0 (s.lock.lockFlag &&& READ_COUNT_MASK), (s.threads t).guards⟩
        rfl (hmove _)]
      exact lockRun_next hrun _ _ (by simp only [lockNext, if_pos hword]) hroom []

/-- **A thread alone drops what it may drop.** -/
theorem LockInv.releases (hI : LockInv LThreadId s) (hb : Bounded s) (hrun : s.crashed = none)
    (hidle : (s.threads t).pc = .idle) (hdrop : RwLock.Droppable (s.holds t)) :
    Completes LThreadId s t (.release t) (s.threads t).guards.tail := by
  have hholds : s.holds t = (s.threads t).guards.map Guard.mode := LockThread.holds_of_ne (by rw [hidle]; simp)
  have hmove : ∀ pc, Bounded (s.set t s.lock ⟨pc, (s.threads t).guards⟩) :=
    fun pc => bounded_set hb _ (Nat.le_refl _) (Nat.le_refl _)
  have hroom : Bounded (s.set t s.lock ⟨.idle, (s.threads t).guards.tail⟩) := bounded_drop hb _ rfl
  have hle := le_tally LockThread.reads s.threads t
  have hlow := hI.low
  have h0 : (0 : BitVec 32).toNat = 0 := rfl
  cases hg : (s.threads t).guards with
  | nil =>
    rw [hholds, hg] at hdrop
    exact absurd hdrop id
  | cons g gs =>
    have hcall : lockStep LThreadId s (.release t) = some (s.set t s.lock ⟨g.releasePc, (s.threads t).guards⟩) := by
      simp only [lockStep, if_pos (And.intro hrun hidle), hg]
    cases g with
    | read =>
      have hpos : 0 < (s.threads t).reads := by simp [LockThread.reads, hg]
      have hcount : ¬ s.lock.lockFlag &&& READ_COUNT_MASK = 0 := by
        rw [← BitVec.toNat_inj, toNat_readCount, h0]
        omega
      refine .of_run (n := 1) (l := { s.lock with lockFlag := s.lock.lockFlag - 1 }) (by decide) hcall (hmove _) ?_
      have htail : (s.threads t).guards.tail = gs := by rw [hg, List.tail_cons]
      rw [← htail]
      exact lockRun_next hrun _ _ (by simp only [lockNext, Guard.releasePc, if_neg hcount]) hroom []
    | write =>
      have howns : (s.threads t).owns := .inl (by simp [LockThread.depth, hg])
      have hown : (s.threads t).reads = 0 := by
        rw [hholds, hg] at hdrop
        have hnone : ¬ 0 < gs.count .read := (mem_map_mode gs .read).not.1 hdrop
        simp only [LockThread.reads, hg, List.count_cons_of_ne (by decide : Guard.write ≠ Guard.read)]
        omega
      have hcount : ¬ s.lock.lockFlag &&& READ_COUNT_MASK ≠ 0 := by
        rw [not_not, ← BitVec.toNat_inj, toNat_readCount, h0, hlow, tally_eq_zero]
        intro u
        by_cases hu : u = t
        · rw [hu, hown]
        · exact (hI.excl t u howns hu).2
      have htail : (s.threads t).guards.tail = gs := by rw [hg, List.tail_cons]
      rw [← htail]
      by_cases hlast : s.lock.writeCount - 1 = 0
      · refine .of_run (n := 3) (l := ⟨EMPTY_FLAG, s.lock.writeCount - 1⟩) (by decide) hcall (hmove _) ?_
        rw [List.replicate, lockRun_next hrun s.lock ⟨.unlockCount, (s.threads t).guards⟩
          (by simp only [lockNext, Guard.releasePc, if_neg hcount]) (hmove _)]
        rw [List.replicate, lockRun_next hrun ⟨s.lock.lockFlag, s.lock.writeCount - 1⟩
          ⟨.unlockStore, (s.threads t).guards⟩ (by simp only [lockNext, if_pos hlast]) (hmove _)]
        exact lockRun_next hrun _ _ rfl hroom []
      · refine .of_run (n := 2) (l := ⟨s.lock.lockFlag, s.lock.writeCount - 1⟩) (by decide) hcall (hmove _) ?_
        rw [List.replicate, lockRun_next hrun s.lock ⟨.unlockCount, (s.threads t).guards⟩
          (by simp only [lockNext, Guard.releasePc, if_neg hcount]) (hmove _)]
        exact lockRun_next hrun _ _ (by simp only [lockNext, if_neg hlast]) hroom []

/-- What a call that completes has done, as the users see it. -/
theorem Completes.holds {call : LockAct Tid} {gs : List Guard} (h : Completes LThreadId s t call gs) :
    ∃ n s', n ≤ 3 ∧ lockRun LThreadId s (call :: .replicate n (.next t 0)) = some s' ∧
      s'.threads t = ⟨.idle, gs⟩ ∧ s'.holds = update s.holds t (gs.map Guard.mode) := by
  obtain ⟨n, l, hn, hrun⟩ := h.returns
  refine ⟨n, _, hn, hrun, update_self _ _ _, ?_⟩
  rw [LockState.holds_set, LockThread.holds_of_ne (by simp)]

theorem LockReach.bounded (h : LockReach LThreadId s) : Bounded s := by
  cases h with
  | start =>
    refine ⟨?_, fun t => (by decide : 0 < 65536)⟩
    rw [(tally_eq_zero LockThread.reads _).2 (fun _ => rfl)]
    decide
  | next _ _ hb => exact hb

/-- **What the lock allows is what a call gets.**  Thread ids are distinct and in 1..65535, and the counts of the holds, the
new one among them, fit in 16 bits.  In every state of a run without a crash a thread outside the four functions that
takes or drops the lock as `RwLock` allows, with no step of another thread in between, returns after at most three
operations, without spinning, and has made that step; so a thread waits only for what others hold. -/
theorem lock_completes (hid : Ids LThreadId) (h : LockReach LThreadId s) (hrun : s.crashed = none)
    (hidle : (s.threads t).pc = .idle) :
    (∀ g, Bounded (s.set t s.lock ⟨.idle, g :: (s.threads t).guards⟩) → RwLock.Free s.holds t g.mode →
      ∃ n s', n ≤ 3 ∧ lockRun LThreadId s (.acquire t g :: .replicate n (.next t 0)) = some s' ∧
        s'.threads t = ⟨.idle, g :: (s.threads t).guards⟩ ∧ RwLock.step s.holds (.take t g.mode) = some s'.holds) ∧
    (RwLock.Droppable (s.holds t) →
      ∃ n s', n ≤ 3 ∧ lockRun LThreadId s (.release t :: .replicate n (.next t 0)) = some s' ∧
        s'.threads t = ⟨.idle, (s.threads t).guards.tail⟩ ∧ RwLock.step s.holds (.drop t) = some s'.holds) := by
  have hI := h.lockInv hid
  have hholds : s.holds t = (s.threads t).guards.map Guard.mode := LockThread.holds_of_ne (by rw [hidle]; simp)
  refine ⟨fun g hroom hfree => ?_, fun hdrop => ?_⟩
  · obtain ⟨n, s', hn, hs', hth, hh⟩ := (hI.acquires hid h.bounded hrun hidle hroom hfree).holds
    refine ⟨n, s', hn, hs', hth, ?_⟩
    rw [RwLock.step, if_pos hfree, hh, hholds, List.map_cons]
  · obtain ⟨n, s', hn, hs', hth, hh⟩ := (hI.releases h.bounded hrun hidle hdrop).holds
    refine ⟨n, s', hn, hs', hth, ?_⟩
    rw [RwLock.step, if_pos hdrop, hh, hholds, List.map_tail]

/-- Thread one has written, written again and read; it drops the read hold. -/
theorem lock_completes_nested : ∃ s n s', n ≤ 3 ∧ lockRun ids lockState₀ nestedRun = some s ∧
    lockRun ids s (.release .one :: .replicate n (.next .one 0)) = some s' ∧
    s'.threads .one = ⟨.idle, [.write, .write]⟩ := by
  obtain ⟨s, hrun, hr⟩ := reach_of_run _ _ _ _ (show (lockRun ids lockState₀ nestedRun).isSome = true by decide)
  have hs : (lockRun ids lockState₀ nestedRun).map (fun s => (s.crashed, s.threads .one)) =
      some (none, ⟨.idle, [.read, .write, .write]⟩) := by decide
  simp only [lockRun, hrun, Option.map_some, Option.some.injEq, Prod.mk.injEq] at hs
  obtain ⟨hcrash, hone⟩ := hs
  have hdrop : RwLock.Droppable (s.holds .one) := by
    rw [LockState.holds, hone]
    decide
  obtain ⟨n, s', hn, hs', hth, -⟩ := (lock_completes ids_ids hr hcrash (by rw [hone])).2 hdrop
  refine ⟨s, n, s', hn, hrun, hs', ?_⟩
  rw [hth, hone]
  rfl

end Geon
