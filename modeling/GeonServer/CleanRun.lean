import GeonServer.ProfilerSilent
/-!
# CleanRun — one run without a report is enough

What the profiler is for.  A run of threads under it that comes to its end without a report has shown the profiler every
lock the programs take on top of another (`CleanInv.ordered`), and nothing of that closes a cycle, so the locks have
ranks in which all programs are in order (`Acyclic.exists_rank`).  Then no order of their steps deadlocks
(`clean_run_deadlock_free`), as long as no lock was taken on top of another one of its class: the profiler sees one name
there.
-/
namespace Geon

open Digraph Function Lts Relation RwLock

variable {Tid Inst Name : Type} [DecidableEq Tid] [DecidableEq Inst] [DecidableEq Name]
variable {name : Inst → Name} {LThreadId : Tid → BitVec 32} {s s' : DebugLocks Tid Inst Name} {t : Tid} {i : Inst}

/-! ## What the threads have shown -/

omit [DecidableEq Name] in
theorem enter_alive {p : ProfilerState Tid Name} {l : LockState Tid} {doing : Doing Inst} {held : List Inst}
    (hc : (s.enter p t i l doing held).crashed = false) : p.crashed = none := by
  by_contra hp
  rw [DebugLocks.enter, if_neg hp] at hc
  cases hc

omit [DecidableEq Name] in
/-- A thread that enters the code of a lock keeps the others as they are. -/
theorem ahead_enter {p : ProfilerState Tid Name} (hp : p.crashed = none) (hidle : s.doing t = .idle) (l : LockState Tid)
    (doing : Doing Inst) (held : List Inst) {a b : Inst} (h : Ahead s a b) : Ahead (s.enter p t i l doing held) a b := by
  rw [DebugLocks.enter, if_pos hp]
  refine h.imp id (fun hwait => ?_)
  obtain ⟨u, ha, hu, hne⟩ := hwait
  have hut : u ≠ t := fun heq => by
    rw [heq, hidle] at hu
    cases hu
  refine ⟨u, ?_, ?_, hne⟩
  · simpa only [update_of_ne hut] using ha
  · simpa only [update_of_ne hut] using hu

omit [DecidableEq Name] in
/-- **What has been shown stays.** -/
theorem ahead_acquire {a b : Inst} (hdoing : s.doing t = .locking i) (h : Ahead s a b) : Ahead (s.acquire t i) a b := by
  rcases h with hold | ⟨u, ha, hu, hne⟩
  · exact .inl (List.mem_append_left _ hold)
  · by_cases hut : u = t
    · subst hut
      rw [hdoing] at hu
      cases hu
      exact .inl (List.mem_append_right _ (List.mem_map.2 ⟨a, List.mem_filter.2 ⟨ha, decide_eq_true hne⟩, rfl⟩))
    · refine .inr ⟨u, ?_, ?_, hne⟩
      · simpa only [DebugLocks.acquire, update_of_ne hut] using ha
      · simpa only [DebugLocks.acquire, update_of_ne hut] using hu

theorem ahead_next {elapsed : Nat} (he : debugStep name LThreadId s (.next t elapsed) = some s') {a b : Inst}
    (h : Ahead s a b) : Ahead s' a b := by
  simp only [debugStep] at he
  obtain ⟨-, he⟩ := Option.ite_none_right_eq_some.1 he
  split at he
  · cases he
  · rename_i i hdoing
    simp only [Option.bind_eq_bind, Option.bind_eq_some_iff] at he
    obtain ⟨l, -, he⟩ := he
    cases he
    split
    · exact ahead_acquire (s := s.setLock i l) hdoing h
    · exact h
  · rename_i i hdoing
    simp only [Option.bind_eq_bind, Option.bind_eq_some_iff] at he
    obtain ⟨l, -, he⟩ := he
    cases he
    split
    · refine h.imp id (fun hwait => ?_)
      obtain ⟨u, ha, hu, hne⟩ := hwait
      have hut : u ≠ t := fun heq => by
        rw [heq, hdoing] at hu
        cases hu
      refine ⟨u, ha, ?_, hne⟩
      simp only [update_of_ne hut]
      exact hu
    · exact h

/-! ## What is left to show -/

variable {prog : Tid → List (Act Inst)} {q q' : DebugProgram Tid Inst Name} {rank : Inst → Nat}

/-- The ranks are in order with what the threads have shown and with what their programs have still to show. -/
structure Ranks (rank : Inst → Nat) (q : DebugProgram Tid Inst Name) : Prop where
  ahead : ∀ a b, Ahead q.locks a b → rank a < rank b
  ordered : ∀ t, Ordered rank (writes (q.locks.asked t)) (q.todo t)

/-- **The invariant of a run without a report.** -/
structure CleanInv (prog : Tid → List (Act Inst)) (q : DebugProgram Tid Inst Name) : Prop where
  layered : ∀ t, (q.locks.asked t).Pairwise (fun a b => a = b ∨ Ahead q.locks b a)
  ordered : ∀ rank, Ranks rank q → ∀ t, Ordered rank [] (prog t)

omit [DecidableEq Tid] [DecidableEq Inst] [DecidableEq Name] in
theorem cleanInv_start : CleanInv prog (⟨debugLocks₀, prog⟩ : DebugProgram Tid Inst Name) where
  layered _ := .nil
  ordered _ h := h.ordered

omit [DecidableEq Tid] [DecidableEq Name] in
/-- **A lock is taken** on top of what the thread holds. -/
theorem above_of_ahead {asked : List Inst} (hup : ∀ a b, Ahead s a b → rank a < rank b)
    (hlayer : asked.Pairwise (fun a b => a = b ∨ Ahead s b a)) (hnew : ∀ a ∈ asked, a ≠ i → Ahead s a i) :
    Above rank (writes asked) i := by
  cases asked with
  | nil => exact .inr (fun _ h => by cases h)
  | cons top rest =>
    by_cases htop : top = i
    · rw [htop]
      exact .inl rfl
    · refine .inr (fun h hmem => ?_)
      obtain ⟨a, ha, rfl⟩ := List.mem_map.1 hmem
      have hlt := hup _ _ (hnew top List.mem_cons_self htop)
      rcases List.mem_cons.1 ha with rfl | ha
      · exact hlt
      · rcases (List.pairwise_cons.1 hlayer).1 a ha with rfl | hbelow
        · exact hlt
        · exact (hup _ _ hbelow).trans hlt

omit [DecidableEq Inst] [DecidableEq Name] in
/-- **A thread goes on in its program**, and the others stay where they are. -/
theorem CleanInv.advance (h : CleanInv prog q) {todo : List (Act Inst)} {asked : List Inst}
    (hkeep : ∀ a b, Ahead q.locks a b → Ahead s' a b) (hnow : ∀ u, s'.asked u = update q.locks.asked t asked u)
    (hlayer : asked.Pairwise (fun a b => a = b ∨ Ahead s' b a))
    (hback : ∀ rank : Inst → Nat, (∀ a b, Ahead s' a b → rank a < rank b) → Ordered rank (writes asked) todo →
      Ordered rank (writes (q.locks.asked t)) (q.todo t)) :
    CleanInv prog ⟨s', update q.todo t todo⟩ := by
  refine ⟨fun u => ?_, fun rank hr => h.ordered rank ⟨fun a b hab => hr.ahead a b (hkeep a b hab), fun u => ?_⟩⟩
  · show (s'.asked u).Pairwise _
    rw [hnow u]
    by_cases hut : u = t
    · rw [hut, update_self]
      exact hlayer
    · rw [update_of_ne hut]
      exact (h.layered u).imp (fun hab => hab.imp id (hkeep _ _))
  · have hord : Ordered rank (writes (s'.asked u)) (update q.todo t todo u) := hr.ordered u
    rw [hnow u] at hord
    by_cases hut : u = t
    · rw [hut, update_self, update_self] at hord
      rw [hut]
      exact hback rank hr.ahead hord
    · rwa [update_of_ne hut, update_of_ne hut] at hord

theorem CleanInv.writeLock (h : CleanInv prog q) {todo : List (Act Inst)} (htodo : q.todo t = .take i .write :: todo)
    (he : debugStep name LThreadId q.locks (.writeLock t i) = some s') (hc : s'.crashed = false) :
    CleanInv prog ⟨s', update q.todo t todo⟩ := by
  obtain ⟨p, l, hidle, -, rfl⟩ := debugStep_writeLock he
  have hp := enter_alive hc
  obtain ⟨-, hnow⟩ := asked_enter (s := q.locks) (t := t) (i := i) hp l (.locking i) (q.locks.held t)
  have hheld : q.locks.asked t = q.locks.held t := by simp [DebugLocks.asked, hidle, told]
  have hkeep : ∀ a b, Ahead q.locks a b → Ahead (q.locks.enter p t i l (.locking i) (q.locks.held t)) a b :=
    fun a b hab => ahead_enter hp hidle l _ _ hab
  have hnew : ∀ a ∈ q.locks.asked t, a ≠ i → Ahead (q.locks.enter p t i l (.locking i) (q.locks.held t)) a i := by
    intro a ha hne
    rw [DebugLocks.enter, if_pos hp]
    refine .inr ⟨t, ?_, update_self .., hne⟩
    simp only [update_self]
    rwa [← hheld]
  have hlayer := (h.layered t).imp (fun hab => Or.imp id (hkeep _ _) hab)
  have htold : told id (.locking i) (q.locks.held t) = i :: q.locks.asked t := by simp [hheld, told]
  rw [htold] at hnow
  refine h.advance hkeep hnow (List.pairwise_cons.2 ⟨fun a ha => ?_, hlayer⟩) (fun rank hup hord => ?_)
  · by_cases hne : a = i
    · exact .inl hne.symm
    · exact .inr (hnew a ha hne)
  · rw [htodo]
    exact ⟨above_of_ahead hup hlayer hnew, hord⟩

theorem CleanInv.writeUnlock (h : CleanInv prog q) {todo : List (Act Inst)} (htodo : q.todo t = .drop :: todo)
    (he : debugStep name LThreadId q.locks (.writeUnlock t) = some s') (hc : s'.crashed = false) :
    CleanInv prog ⟨s', update q.todo t todo⟩ := by
  obtain ⟨i, rest, p, l, hidle, hheld, -, rfl⟩ := debugStep_writeUnlock he
  have hp := enter_alive hc
  obtain ⟨-, hnow⟩ := asked_enter (s := q.locks) (t := t) (i := i) hp l (.unlocking i) rest
  have hkeep : ∀ a b, Ahead q.locks a b → Ahead (q.locks.enter p t i l (.unlocking i) rest) a b :=
    fun a b hab => ahead_enter hp hidle l _ _ hab
  have hasked : q.locks.asked t = i :: rest := by simp [DebugLocks.asked, hidle, told, hheld]
  have hlayer := h.layered t
  rw [hasked] at hlayer
  have htold : told id (.unlocking i) rest = rest := by simp [told]
  rw [htold] at hnow
  refine h.advance hkeep hnow (hlayer.of_cons.imp (fun hab => Or.imp id (hkeep _ _) hab)) (fun rank hup hord => ?_)
  rw [htodo, hasked]
  refine ⟨fun _ hmem => ?_, hord⟩
  obtain ⟨a, -, ha⟩ := List.mem_map.1 hmem
  cases ha

/-- **The step lemma.** -/
theorem CleanInv.step (h : CleanInv prog q) {a : DebugAct Tid Inst} (he : programStep name LThreadId q a = some q')
    (hc : q'.locks.crashed = false) : CleanInv prog q' := by
  unfold programStep at he
  split at he
  · rename_i t i
    split at he
    · rename_i k todo htodo
      obtain ⟨rfl, he⟩ := Option.ite_none_right_eq_some.1 he
      obtain ⟨s', hs, rfl⟩ := Option.map_eq_some_iff.1 he
      exact h.writeLock htodo hs hc
    · cases he
  · rename_i t
    split at he
    · rename_i todo htodo
      obtain ⟨s', hs, rfl⟩ := Option.map_eq_some_iff.1 he
      exact h.writeUnlock htodo hs hc
    · cases he
  · rename_i t elapsed
    obtain ⟨s', hs, rfl⟩ := Option.map_eq_some_iff.1 he
    obtain ⟨-, hasked⟩ := debugStep_next hs
    have hkeep : ∀ a b, Ahead q.locks a b → Ahead s' a b := fun a b hab => ahead_next hs hab
    refine ⟨fun u => ?_, fun rank hr => h.ordered rank ⟨fun a b hab => hr.ahead a b (hkeep a b hab), fun u => ?_⟩⟩
    · simp only [hasked]
      exact (h.layered u).imp (fun hab => hab.imp id (hkeep _ _))
    · have hord := hr.ordered u
      simpa only [hasked] using hord

/-! ## The end of the run -/

theorem debugReach_of_program (h : Reach (programStep name LThreadId) Any ⟨debugLocks₀, prog⟩ q) :
    Reach (debugStep name LThreadId) Any debugLocks₀ q.locks := by
  refine Reach.map (debugStep name LThreadId) (fun q : DebugProgram Tid Inst Name => q.locks)
    (fun q a q' he _ => .inr ⟨a, ?_, trivial⟩) h
  unfold programStep at he
  split at he
  · split at he
    · obtain ⟨-, he⟩ := Option.ite_none_right_eq_some.1 he
      obtain ⟨s', hs, rfl⟩ := Option.map_eq_some_iff.1 he
      exact hs
    · cases he
  · split at he
    · obtain ⟨s', hs, rfl⟩ := Option.map_eq_some_iff.1 he
      exact hs
    · cases he
  · obtain ⟨s', hs, rfl⟩ := Option.map_eq_some_iff.1 he
    exact hs

/-- A step is only taken as long as nothing has crashed. -/
theorem programStep_alive {a : DebugAct Tid Inst} (he : programStep name LThreadId q a = some q') :
    q.locks.crashed = false := by
  have hstep : ∀ {a s'}, debugStep name LThreadId q.locks a = some s' → q.locks.crashed = false := fun {a s'} he => by
    cases a <;> simp only [debugStep] at he
    · exact (Option.ite_none_right_eq_some.1 he).1.1
    · exact (Option.ite_none_right_eq_some.1 he).1.1
    · exact (Option.ite_none_right_eq_some.1 he).1
  unfold programStep at he
  split at he
  · split at he
    · obtain ⟨-, he⟩ := Option.ite_none_right_eq_some.1 he
      obtain ⟨s', hs, -⟩ := Option.map_eq_some_iff.1 he
      exact hstep hs
    · cases he
  · split at he
    · obtain ⟨s', hs, -⟩ := Option.map_eq_some_iff.1 he
      exact hstep hs
    · cases he
  · obtain ⟨s', hs, -⟩ := Option.map_eq_some_iff.1 he
    exact hstep hs

theorem cleanInv_of_reach (h : Reach (programStep name LThreadId) Any ⟨debugLocks₀, prog⟩ q)
    (hc : q.locks.crashed = false) : CleanInv prog q := by
  refine Reach.inv (P := fun q => q.locks.crashed = false → CleanInv prog q) h (fun _ => cleanInv_start)
    (fun q a q' _ hi he _ hc => (hi (programStep_alive he)).step he hc) hc

/-- **One run without a report is enough.**  Threads run their programs under the profiler to the end, in some order,
nothing crashes, and no lock is taken on top of another one of its class.  Then there is no order in which the same
programs deadlock: every run of their steps ends, with every program done and every lock given back. -/
theorem clean_run_deadlock_free [Fintype Tid] (h : Reach (programStep name LThreadId) Any ⟨debugLocks₀, prog⟩ q)
    (hclean : q.locks.crashed = false) (hdone : ∀ t, q.todo t = [] ∧ q.locks.asked t = [])
    (hclass : ∀ ab ∈ q.locks.acquired, name ab.1 ≠ name ab.2) :
    Ends partyStep Any (fun s => ∀ t, s t = ⟨[], []⟩) (fun t => ⟨[], prog t⟩) := by
  have hinv := debugInv_of_reach (debugReach_of_program h)
  have hshown : ∀ a b, Ahead q.locks a b → (a, b) ∈ q.locks.acquired := fun a b hab => by
    rcases hab with hold | ⟨t, -, ht, -⟩
    · exact hold
    · have hasked := (hdone t).2
      rw [DebugLocks.asked, ht] at hasked
      cases hasked
  have hacyclic : Acyclic (Ahead q.locks) := hinv.profiler.nameOrder_acyclic.of_map name (fun a b hab =>
    (hinv.order a b hab).resolve_left (hclass (a, b) (hshown a b hab)))
  obtain ⟨rank, hrank⟩ := hacyclic.exists_rank (q.locks.acquired.map Prod.fst)
    (fun a b hab => List.mem_map_of_mem (hshown a b hab))
  have hordered : ∀ t, Ordered rank [] (prog t) := (cleanInv_of_reach h hclean).ordered rank ⟨hrank, fun t => by
    rw [(hdone t).1, (hdone t).2]
    rfl⟩
  have hinorder : InOrder rank (fun t => ⟨[], prog t⟩) := ⟨hordered, fun k t u hw => by cases hw⟩
  exact ordered_ends hinorder

/-- A thread runs its program and meets nobody. -/
def unhindered (t : Two) (prog : List (Act ServerLock)) : List (DebugAct Two ServerLock) :=
  prog.flatMap (fun
    | .take k _ => .writeLock t k :: .replicate 3 (.next t 0)
    | .drop => .writeUnlock t :: .replicate 3 (.next t 0))

/-- One thread broadcasts, and then the other one sends. -/
def inTurns : List (DebugAct Two ServerLock) :=
  unhindered .one (serverProgram (sendAndBroadcast .one)) ++ unhindered .two (serverProgram (sendAndBroadcast .two))

theorem clean_run_deadlock_free_two :
    ∃ q, run (programStep ServerLock.cls ids) Any (serverStart sendAndBroadcast) inTurns = some q ∧
      q.locks.acquired = [(⟨.service, 0⟩, ⟨.session, 5⟩)] ∧
      Ends partyStep Any (fun s => ∀ t, s t = ⟨[], []⟩) (fun t => ⟨[], serverProgram (sendAndBroadcast t)⟩) := by
  obtain ⟨q, hq, hr⟩ := reach_of_run (programStep ServerLock.cls ids) Any (serverStart sendAndBroadcast) inTurns
    (by decide +kernel)
  have hs : (run (programStep ServerLock.cls ids) Any (serverStart sendAndBroadcast) inTurns).map (fun q =>
      (q.locks.crashed, q.locks.acquired)) = some (false, [(⟨.service, 0⟩, ⟨.session, 5⟩)]) := by decide +kernel
  have hdone : ∀ t, (run (programStep ServerLock.cls ids) Any (serverStart sendAndBroadcast) inTurns).map (fun q =>
      (q.todo t, q.locks.asked t)) = some ([], []) := by decide +kernel
  simp only [hq, Option.map_some, Option.some.injEq, Prod.mk.injEq] at hs hdone
  obtain ⟨hclean, hacquired⟩ := hs
  refine ⟨q, hq, hacquired, clean_run_deadlock_free hr hclean hdone (fun ab hab => ?_)⟩
  rw [hacquired, List.mem_singleton] at hab
  rw [hab]
  decide

end Geon
