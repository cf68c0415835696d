import GeonServer.DebugLockRun
import GeonServer.ServerLocks
/-!
# ProfilerSilent — what the profiler has to say about programs in order

Threads of a `_DEBUG` build that do with their locks what their programs say.  The profiler orders the names of the
locks by what has been taken on top of what.  When the programs take their locks in an order that the names have
(`Ordered`), everything it records goes up in that order (`ProgramInv.ascends`), so nothing it records closes a cycle
(`ProfilerInv.push_ok`), and it has nothing to report in any run (`profiler_silent`).
-/
namespace Geon

open Digraph Function Lts Relation RwLock

variable {Tid Inst Name : Type} [DecidableEq Tid] [DecidableEq Inst] [DecidableEq Name]

/-! ## Names that have an order -/

variable {rank : Name → Nat}

/-- What the profiler has recorded goes up. -/
def Ascends (rank : Name → Nat) (p : ProfilerState Tid Name) : Prop := ∀ m n, NameOrder p m n → rank m < rank n

omit [DecidableEq Tid] in
theorem ascends_start : Ascends rank (profilerState₀ : ProfilerState Tid Name) := by
  rintro m n ⟨x, y, -, -, hxy⟩
  cases hxy

/-- The name that has an id. -/
def DeadLockProfiler.nameOf (p : DeadLockProfiler Name) (lockId : Nat) : Option Name :=
  (p.nameToId[lockId]?).map Prod.fst

theorem Profiled.nameOf_eq {p : DeadLockProfiler Name} (h : Profiled p) {n : Name} {lockId : Nat}
    (hl : p.nameToId.lookup n = some lockId) : p.nameOf lockId = some n := by
  obtain ⟨before, after, hsplit, -⟩ := List.lookup_eq_some_iff.1 hl
  -- the entry is at the place that is its id
  have hplace : (p.nameToId.map Prod.snd)[before.length]? = some lockId := by
    rw [hsplit]
    simp
  rw [h.ids, List.getElem?_range (by rw [hsplit]; simp)] at hplace
  rw [DeadLockProfiler.nameOf, ← Option.some.inj hplace, hsplit]
  simp

theorem Profiled.exists_name {p : DeadLockProfiler Name} (h : Profiled p) {lockId : Nat}
    (hlt : lockId < p.nameToId.length) : ∃ n, p.nameToId.lookup n = some lockId := by
  have hsplit := (List.take_append_drop lockId p.nameToId).symm
  rw [List.drop_eq_getElem_cons hlt] at hsplit
  have hid : (p.nameToId.map Prod.snd)[lockId]? = some p.nameToId[lockId].2 := by simp [hlt]
  rw [h.ids, List.getElem?_range hlt] at hid
  have hdisjoint := List.disjoint_take_drop h.names (le_refl lockId)
  rw [← List.map_take, ← List.map_drop, List.drop_eq_getElem_cons hlt] at hdisjoint
  generalize p.nameToId[lockId] = entry at hsplit hid hdisjoint
  obtain ⟨n, k⟩ := entry
  cases hid
  refine ⟨n, List.lookup_eq_some_iff.2 ⟨_, _, hsplit, fun e he => bne_iff_ne.2 fun hne => ?_⟩⟩
  exact hdisjoint (List.mem_map_of_mem he) (hne ▸ List.mem_cons_self)

theorem LockStackOk.exists_name {p : DeadLockProfiler Name} {lockStack : List Nat} {names : List Name}
    (h : LockStackOk p lockStack names) {lockId : Nat} (hmem : lockId ∈ lockStack) :
    ∃ n ∈ names, p.nameToId.lookup n = some lockId := by
  have hheld := h.held
  clear h
  induction hheld with
  | nil => cases hmem
  | cons hl _ ih =>
    rcases List.mem_cons.1 hmem with rfl | hmem
    · exact ⟨_, List.mem_cons_self, hl⟩
    · obtain ⟨n, hn, hl⟩ := ih hmem
      exact ⟨n, List.mem_cons_of_mem _ hn, hl⟩

omit [DecidableEq Tid] in
theorem ProfilerInv.pushedOn_lt {p : ProfilerState Tid Name} (h : ProfilerInv p) {x y : Nat} (hxy : (x, y) ∈ p.pushedOn) :
    x < p.profiler.nameToId.length ∧ y < p.profiler.nameToId.length := by
  obtain ⟨b, hxb, -⟩ := TransGen.head'_iff.1 (h.pushed x y hxy)
  obtain ⟨a, -, hay⟩ := TransGen.tail'_iff.1 (h.pushed x y hxy)
  exact ⟨h.profiled.wf.left x b hxb, h.profiled.wf.right a y hay⟩

omit [DecidableEq Tid] in
/-- **What is recorded after a push** on names that come before the new one goes up. -/
theorem ProfilerInv.pairs_up {p : ProfilerState Tid Name} (h : ProfilerInv p) (hup : Ascends rank p) {t : Tid} {n : Name}
    (hnames : ∀ m ∈ p.names t, m = n ∨ rank m < rank n) {q : DeadLockProfiler Name} (hext : Extends p.profiler q)
    {lockId : Nat} (hl : q.nameToId.lookup n = some lockId) {x y : Nat}
    (hxy : (x, y) ∈ p.pushedOn ++ pairsOn (p.lockStack t) lockId) :
    ∃ m m', q.nameToId.lookup m = some x ∧ q.nameToId.lookup m' = some y ∧ rank m < rank m' := by
  rcases List.mem_append.1 hxy with hold | hnew
  · obtain ⟨m, hm⟩ := h.profiled.exists_name (h.pushedOn_lt hold).1
    obtain ⟨m', hm'⟩ := h.profiled.exists_name (h.pushedOn_lt hold).2
    exact ⟨m, m', hext.lookup _ _ hm, hext.lookup _ _ hm', hup m m' ⟨x, y, hm, hm', hold⟩⟩
  · obtain ⟨rfl, hx, hne⟩ := mem_pairsOn.1 hnew
    obtain ⟨m, hm, hmx⟩ := (h.stack t).exists_name hx
    refine ⟨m, n, hext.lookup _ _ hmx, hl, (hnames m hm).resolve_left ?_⟩
    rintro rfl
    exact hne (Option.some.inj ((hext.lookup _ _ hmx).symm.trans hl))

/-- **A push on names that all come before it returns**, and what it records goes up too. -/
theorem ProfilerInv.push_ok {p p' : ProfilerState Tid Name} (h : ProfilerInv p) (hup : Ascends rank p) {t : Tid} {n : Name}
    (hnames : ∀ m ∈ p.names t, m = n ∨ rank m < rank n) (he : profilerStep p (.pushLock t n) = some p') :
    p'.crashed = none ∧ Ascends rank p' := by
  have halive := profilerStep_alive he
  rcases h.push_cases he with ⟨printed, rfl⟩ | ⟨q, hq, hext, hl, -, rfl⟩
  · -- a crash would have closed a cycle
    exfalso
    obtain ⟨hq, hext, hl, -⟩ := h.profiled.lockId_spec n
    have hpush := pushLock_spec h.profiled (h.stack t) n
    cases hp : p.profiler.pushLock (p.lockStack t) n with
    | ok done => simp [profilerStep, halive, hp] at he
    | error cause =>
      rw [hp] at hpush
      refine hpush.2 (Acyclic.of_map (s := ((· < ·) : Nat → Nat → Prop)) (fun a ha => ?_)
        (fun x => ((p.profiler.lockId n).2.nameOf x).elim 0 rank) (fun x y hxy => ?_))
      · rw [transGen_eq_self] at ha
        exact lt_irrefl a ha
      · obtain ⟨m, m', hm, hm', hlt⟩ := h.pairs_up hup hnames hext hl (h.pushed_recorded hxy)
        simpa only [hq.nameOf_eq hm, hq.nameOf_eq hm', Option.elim_some] using hlt
  · refine ⟨halive, ?_⟩
    rintro m m' ⟨x, y, hm, hm', hxy⟩
    obtain ⟨k, k', hk, hk', hlt⟩ := h.pairs_up hup hnames hext hl hxy
    rwa [hq.unique hm hk, hq.unique hm' hk']

/-! ## Programs -/

/-- The locks of a `_DEBUG` build, and what each thread still does with them. -/
structure DebugProgram (Tid Inst Name : Type) where
  locks : DebugLocks Tid Inst Name
  todo : Tid → List (Act Inst)

/-- A thread constructs a guard where its program takes the lock, and its innermost guard is destroyed where it drops
one. -/
def programStep (name : Inst → Name) (LThreadId : Tid → BitVec 32) (s : DebugProgram Tid Inst Name)
    (a : DebugAct Tid Inst) : Option (DebugProgram Tid Inst Name) :=
  match a with
  | .writeLock t i =>
    match s.todo t with
    | .take k .write :: todo =>
      if k = i then (debugStep name LThreadId s.locks a).map (fun locks => ⟨locks, update s.todo t todo⟩) else none
    | _ => none
  | .writeUnlock t =>
    match s.todo t with
    | .drop :: todo => (debugStep name LThreadId s.locks a).map (fun locks => ⟨locks, update s.todo t todo⟩)
    | _ => none
  | .next _ _ => (debugStep name LThreadId s.locks a).map (fun locks => ⟨locks, s.todo⟩)

/-- The locks a thread holds or is about to. -/
def DebugLocks.asked (s : DebugLocks Tid Inst Name) (t : Tid) : List Inst := told id (s.doing t) (s.held t)

variable {name : Inst → Name} {LThreadId : Tid → BitVec 32} {s s' : DebugLocks Tid Inst Name} {t : Tid} {i : Inst}

omit [DecidableEq Name] in
theorem asked_enter {p : ProfilerState Tid Name} (hp : p.crashed = none) (l : LockState Tid) (doing : Doing Inst)
    (held : List Inst) :
    (s.enter p t i l doing held).profiler = p ∧
      ∀ u, (s.enter p t i l doing held).asked u = update s.asked t (told id doing held) u := by
  rw [DebugLocks.enter, if_pos hp]
  refine ⟨rfl, fun u => ?_⟩
  by_cases hut : u = t
  · subst hut
    simp only [DebugLocks.asked, update_self]
  · simp only [DebugLocks.asked, update_of_ne hut]

theorem debugStep_writeLock (he : debugStep name LThreadId s (.writeLock t i) = some s') :
    ∃ p l, s.doing t = .idle ∧ profilerStep s.profiler (.pushLock t (name i)) = some p ∧
      s' = s.enter p t i l (.locking i) (s.held t) := by
  simp only [debugStep] at he
  obtain ⟨hidle, he⟩ := Option.ite_none_right_eq_some.1 he
  simp only [Option.bind_eq_bind, Option.bind_eq_some_iff] at he
  obtain ⟨p, hp, l, -, he⟩ := he
  exact ⟨p, l, hidle.2, hp, (Option.some.inj he).symm⟩

theorem debugStep_writeUnlock (he : debugStep name LThreadId s (.writeUnlock t) = some s') :
    ∃ i rest p l, s.doing t = .idle ∧ s.held t = i :: rest ∧ profilerStep s.profiler (.popLock t (name i)) = some p ∧
      s' = s.enter p t i l (.unlocking i) rest := by
  simp only [debugStep] at he
  obtain ⟨hidle, he⟩ := Option.ite_none_right_eq_some.1 he
  split at he
  · cases he
  · rename_i i rest hheld
    simp only [Option.bind_eq_bind, Option.bind_eq_some_iff] at he
    obtain ⟨p, hp, l, -, he⟩ := he
    exact ⟨i, rest, p, l, hidle.2, hheld, hp, (Option.some.inj he).symm⟩

/-- **Inside the code of a lock** the profiler has no part, and a thread asks for what it asked for. -/
theorem debugStep_next {elapsed : Nat} (he : debugStep name LThreadId s (.next t elapsed) = some s') :
    s'.profiler = s.profiler ∧ s'.asked = s.asked := by
  simp only [debugStep] at he
  obtain ⟨-, he⟩ := Option.ite_none_right_eq_some.1 he
  split at he
  · cases he
  · rename_i i hdoing
    simp only [Option.bind_eq_bind, Option.bind_eq_some_iff] at he
    obtain ⟨l, -, he⟩ := he
    cases he
    split
    · refine ⟨rfl, funext fun u => ?_⟩
      by_cases hut : u = t
      · subst hut
        simp [DebugLocks.asked, DebugLocks.acquire, DebugLocks.setLock, hdoing, told]
      · simp [DebugLocks.asked, DebugLocks.acquire, DebugLocks.setLock, hut]
    · exact ⟨rfl, rfl⟩
  · rename_i i hdoing
    simp only [Option.bind_eq_bind, Option.bind_eq_some_iff] at he
    obtain ⟨l, -, he⟩ := he
    cases he
    split
    · refine ⟨rfl, funext fun u => ?_⟩
      by_cases hut : u = t
      · subst hut
        simp [DebugLocks.asked, DebugLocks.setLock, hdoing, told]
      · simp [DebugLocks.asked, DebugLocks.setLock, hut]
    · exact ⟨rfl, rfl⟩

/-- What a thread has asked for, as holds of its party. -/
def writes (asked : List Inst) : List (Inst × Mode) := asked.map (fun i => (i, .write))

/-- **The invariant of threads with programs in order.** -/
structure ProgramInv (rank : Name → Nat) (name : Inst → Name) (s : DebugProgram Tid Inst Name) : Prop where
  inv : DebugInv name s.locks
  alive : s.locks.profiler.crashed = none
  ascends : Ascends rank s.locks.profiler
  ordered : ∀ t, Ordered (fun i => rank (name i)) (writes (s.locks.asked t)) (s.todo t)
  layered : ∀ t, (s.locks.asked t).Pairwise (fun a b => a = b ∨ rank (name b) < rank (name a))

variable {q q' : DebugProgram Tid Inst Name}

omit [DecidableEq Tid] in
theorem DebugInv.names_asked (h : DebugInv name s) (t : Tid) : s.profiler.names t = (s.asked t).map name := by
  rw [h.names t, DebugLocks.asked]
  cases s.doing t <;> simp [told]

omit [DecidableEq Inst] [DecidableEq Name] in
/-- What is asked for next is the last, or comes after all that is. -/
theorem above_asked {asked : List Inst} {i : Inst}
    (hlayer : asked.Pairwise (fun a b => a = b ∨ rank (name b) < rank (name a)))
    (habove : Above (fun i => rank (name i)) (writes asked) i) :
    ∀ a ∈ asked, i = a ∨ rank (name a) < rank (name i) := by
  intro a ha
  rcases habove with hlast | hall
  · cases asked with
    | nil => cases ha
    | cons top rest =>
      cases hlast
      rcases List.mem_cons.1 ha with rfl | ha
      · exact .inl rfl
      · exact (List.pairwise_cons.1 hlayer).1 a ha
  · exact .inr (hall (a, .write) (List.mem_map_of_mem ha))

/-- **A thread goes on in its program**: what the profiler and what it asks for must satisfy. -/
theorem ProgramInv.advance (h : ProgramInv rank name q) {todo : List (Act Inst)} {asked : List Inst} (hinv : DebugInv name s')
    (halive : s'.profiler.crashed = none) (hup : Ascends rank s'.profiler)
    (hnow : ∀ u, s'.asked u = update q.locks.asked t asked u)
    (hord : Ordered (fun i => rank (name i)) (writes asked) todo)
    (hlayer : asked.Pairwise (fun a b => a = b ∨ rank (name b) < rank (name a))) :
    ProgramInv rank name ⟨s', update q.todo t todo⟩ := by
  refine ⟨hinv, halive, hup, fun u => ?_, fun u => ?_⟩
  · show Ordered _ (writes (s'.asked u)) (update q.todo t todo u)
    rw [hnow u]
    by_cases hut : u = t
    · subst hut
      rwa [update_self, update_self]
    · rw [update_of_ne hut, update_of_ne hut]
      exact h.ordered u
  · show (s'.asked u).Pairwise _
    rw [hnow u]
    by_cases hut : u = t
    · subst hut
      rwa [update_self]
    · rw [update_of_ne hut]
      exact h.layered u

theorem ProgramInv.writeLock (h : ProgramInv rank name q) {todo : List (Act Inst)}
    (htodo : q.todo t = .take i .write :: todo) (he : debugStep name LThreadId q.locks (.writeLock t i) = some s') :
    ProgramInv rank name ⟨s', update q.todo t todo⟩ := by
  obtain ⟨p, l, hidle, hp, hs'⟩ := debugStep_writeLock he
  have hord := h.ordered t
  rw [htodo] at hord
  have habove := above_asked (h.layered t) hord.1
  obtain ⟨hc, hup⟩ := h.inv.profiler.push_ok h.ascends (fun m hm => by
    rw [h.inv.names_asked, List.mem_map] at hm
    obtain ⟨a, ha, rfl⟩ := hm
    rcases habove a ha with rfl | hlt
    · exact .inl rfl
    · exact .inr hlt) hp
  obtain ⟨hprofiler, hnow⟩ := asked_enter (s := q.locks) (t := t) (i := i) hc l (.locking i) (q.locks.held t)
  have hasked : told id (.locking i) (q.locks.held t) = i :: q.locks.asked t := by
    simp [DebugLocks.asked, hidle, told]
  rw [← hs'] at hprofiler hnow
  rw [hasked] at hnow
  refine h.advance (h.inv.step he) ?_ ?_ hnow hord.2 (List.pairwise_cons.2 ⟨habove, h.layered t⟩)
  · rwa [hprofiler]
  · rwa [hprofiler]

theorem ProgramInv.writeUnlock (h : ProgramInv rank name q) {todo : List (Act Inst)} (htodo : q.todo t = .drop :: todo)
    (he : debugStep name LThreadId q.locks (.writeUnlock t) = some s') :
    ProgramInv rank name ⟨s', update q.todo t todo⟩ := by
  obtain ⟨i, rest, p, l, hidle, hheld, hp, hs'⟩ := debugStep_writeUnlock he
  have hasked : q.locks.asked t = i :: rest := by simp [DebugLocks.asked, hidle, told, hheld]
  have hord := h.ordered t
  have hlayer := h.layered t
  rw [hasked] at hord hlayer
  rw [htodo] at hord
  have hhead : (q.locks.profiler.names t).head? = some (name i) := by
    rw [h.inv.names_asked, hasked]
    rfl
  obtain ⟨lockStack, -, hp'⟩ := h.inv.profiler.pop_cases hp hhead
  have hc : p.crashed = none := by
    rw [hp']
    exact h.alive
  obtain ⟨hprofiler, hnow⟩ := asked_enter (s := q.locks) (t := t) (i := i) hc l (.unlocking i) rest
  have htold : told id (.unlocking i) rest = rest := by simp [told]
  rw [← hs'] at hprofiler hnow
  rw [htold] at hnow
  refine h.advance (h.inv.step he) ?_ ?_ hnow hord.2 hlayer.of_cons
  · rwa [hprofiler]
  · rw [hprofiler, hp']
    exact h.ascends

/-- **One step of a thread with a program in order.** -/
theorem ProgramInv.step (h : ProgramInv rank name q) {a : DebugAct Tid Inst}
    (he : programStep name LThreadId q a = some q') : ProgramInv rank name q' := by
  unfold programStep at he
  split at he
  · rename_i t i
    split at he
    · rename_i k todo htodo
      obtain ⟨rfl, he⟩ := Option.ite_none_right_eq_some.1 he
      obtain ⟨s', hs, rfl⟩ := Option.map_eq_some_iff.1 he
      exact h.writeLock htodo hs
    · cases he
  · rename_i t
    split at he
    · rename_i todo htodo
      obtain ⟨s', hs, rfl⟩ := Option.map_eq_some_iff.1 he
      exact h.writeUnlock htodo hs
    · cases he
  · obtain ⟨s', hs, rfl⟩ := Option.map_eq_some_iff.1 he
    obtain ⟨hprofiler, hasked⟩ := debugStep_next hs
    refine ⟨h.inv.step hs, hprofiler ▸ h.alive, hprofiler ▸ h.ascends, fun u => ?_, fun u => ?_⟩
    · simp only [hasked]
      exact h.ordered u
    · simp only [hasked]
      exact h.layered u

omit [DecidableEq Tid] in
theorem programInv_start {todo : Tid → List (Act Inst)} (h : ∀ t, Ordered (fun i => rank (name i)) [] (todo t)) :
    ProgramInv rank name (⟨debugLocks₀, todo⟩ : DebugProgram Tid Inst Name) where
  inv := debugInv₀
  alive := rfl
  ascends := ascends_start
  ordered := h
  layered _ := .nil

/-! ## The server -/

/-- A `_DEBUG` build of the server, whose threads are about to make these calls. -/
def serverStart (calls : Tid → List ServerCall) : DebugProgram Tid ServerLock LockClass :=
  ⟨debugLocks₀, fun t => serverProgram (calls t)⟩

/-- **The profiler of the server has nothing to report.**  Any number of threads make any calls, and the operations of
their `WriteLock`s and `WriteUnlock`s are done in any order: no call of `PushLock` or `PopLock` crashes. -/
theorem profiler_silent {calls : Tid → List ServerCall} {q : DebugProgram Tid ServerLock LockClass}
    (h : Reach (programStep ServerLock.cls LThreadId) Any (serverStart calls) q) :
    q.locks.profiler.crashed = none := by
  have hstart : ProgramInv LockClass.rank ServerLock.cls (serverStart calls : DebugProgram Tid ServerLock LockClass) :=
    programInv_start (fun t => ordered_serverProgram (calls t))
  exact (h.inv hstart (fun _ _ _ _ hi he _ => hi.step he)).alive

/-- One thread sends to a session while another broadcasts to it. -/
def sendAndBroadcast : Two → List ServerCall
  | .one => [.broadcast 0 [⟨5, true, false, ⟨true, false, 0⟩⟩]]
  | .two => [.send ⟨5, true, true, ⟨true, true, 1⟩⟩]

theorem profiler_silent_two :
    ∃ q, run (programStep ServerLock.cls ids) Any (serverStart sendAndBroadcast)
        ([.writeLock .one ⟨.service, 0⟩, .writeLock .two ⟨.session, 5⟩] ++ List.replicate 3 (.next .one 0) ++
          [.writeLock .one ⟨.session, 5⟩] ++ List.replicate 3 (.next .two 0)) = some q ∧
      q.locks.profiler.crashed = none := by
  obtain ⟨q, hq, hr⟩ := reach_of_run (programStep ServerLock.cls ids) Any (serverStart sendAndBroadcast)
    ([.writeLock .one ⟨.service, 0⟩, .writeLock .two ⟨.session, 5⟩] ++ List.replicate 3 (.next .one 0) ++
      [.writeLock .one ⟨.session, 5⟩] ++ List.replicate 3 (.next .two 0)) (by decide)
  exact ⟨q, hq, profiler_silent hr⟩

end Geon
