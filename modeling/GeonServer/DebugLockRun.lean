import GeonServer.DebugLock
import GeonServer.LockRun
import GeonServer.ProfilerRun
/-!
# DebugLockRun — locks by class, waits by lock

The profiler orders the names of the locks, which are those of the classes, and a push on a lock of the same class is
skipped.  So what the threads do with the locks has no cycle that leaves a class (`lock_order_by_class`), and can have
one inside (`two_of_a_class`).
-/
namespace Geon

open Digraph Function Lts Relation

variable {Tid Inst Name : Type} [DecidableEq Tid] [DecidableEq Inst] [DecidableEq Name]

variable {name : Inst → Name} {LThreadId : Tid → BitVec 32} {s s' : DebugLocks Tid Inst Name}

/-! ## A thread in the code of a lock -/

def LockPc.Locking : LockPc → Prop
  | .writeLoad | .writeReenter | .writeSpin _ | .writeClock | .writeEnter => True
  | _ => False

def LockPc.Unlocking : LockPc → Prop
  | .unlockLoad | .unlockCount | .unlockStore => True
  | _ => False

theorem lockNext_locking {myId : BitVec 32} {elapsed : Nat} {l l' : Lock} {th th' : LockThread} (hpc : th.pc.Locking)
    (he : lockNext myId elapsed l th = some (.ok (l', th'))) :
    th'.pc = .idle ∧ th'.guards = .write :: th.guards ∨ th'.pc.Locking ∧ th'.guards = th.guards := by
  obtain ⟨pc, guards⟩ := th
  cases pc <;> simp only [LockPc.Locking] at hpc <;> simp only [lockNext] at he
  case writeLoad =>
    cases he
    split <;> exact .inr ⟨trivial, rfl⟩
  case writeReenter | writeEnter =>
    cases he
    exact .inl ⟨rfl, rfl⟩
  case writeSpin spinCount =>
    split at he
    · cases he
      exact .inr ⟨trivial, rfl⟩
    split at he <;> cases he <;> exact .inr ⟨trivial, rfl⟩
  case writeClock =>
    split at he <;> cases he
    exact .inr ⟨trivial, rfl⟩

theorem lockNext_unlocking {myId : BitVec 32} {elapsed : Nat} {l l' : Lock} {th th' : LockThread}
    (hpc : th.pc.Unlocking) (he : lockNext myId elapsed l th = some (.ok (l', th'))) :
    th'.pc = .idle ∧ th'.guards = th.guards.tail ∨ th'.pc.Unlocking ∧ th'.guards = th.guards := by
  obtain ⟨pc, guards⟩ := th
  cases pc <;> simp only [LockPc.Unlocking] at hpc <;> simp only [lockNext] at he
  case unlockLoad =>
    split at he <;> cases he
    exact .inr ⟨trivial, rfl⟩
  case unlockCount =>
    split at he <;> cases he
    · exact .inr ⟨trivial, rfl⟩
    · exact .inl ⟨rfl, rfl⟩
  case unlockStore =>
    cases he
    exact .inl ⟨rfl, rfl⟩

/-- **What a step can do**: a thread enters `WriteLock` or `WriteUnlock` through the profiler, or does the next operation
inside. -/
theorem debugStep_cases {a : DebugAct Tid Inst} (he : debugStep name LThreadId s a = some s') :
    (∃ t i p l, s.doing t = .idle ∧ profilerStep s.profiler (.pushLock t (name i)) = some p ∧
      lockStep LThreadId (s.locks i) (.acquire t .write) = some l ∧ s' = s.enter p t i l (.locking i) (s.held t)) ∨
    (∃ t i rest p l, s.doing t = .idle ∧ s.held t = i :: rest ∧
      profilerStep s.profiler (.popLock t (name i)) = some p ∧
      lockStep LThreadId (s.locks i) (.release t) = some l ∧ s' = s.enter p t i l (.unlocking i) rest) ∨
    (∃ t i elapsed l, s.doing t = .locking i ∧ lockStep LThreadId (s.locks i) (.next t elapsed) = some l ∧
      s' = if l.crashed = none ∧ (l.threads t).pc = .idle then (s.setLock i l).acquire t i else s.setLock i l) ∨
    ∃ t i elapsed l, s.doing t = .unlocking i ∧ lockStep LThreadId (s.locks i) (.next t elapsed) = some l ∧
      s' = if l.crashed = none ∧ (l.threads t).pc = .idle then
        { s.setLock i l with doing := update s.doing t .idle } else s.setLock i l := by
  cases a with
  | writeLock t i =>
    simp only [debugStep] at he
    split at he
    · rename_i hidle
      simp only [Option.bind_eq_bind, Option.bind_eq_some_iff] at he
      obtain ⟨p, hp, l, hl, he⟩ := he
      exact .inl ⟨t, i, p, l, hidle.2, hp, hl, (Option.some.inj he).symm⟩
    · cases he
  | writeUnlock t =>
    simp only [debugStep] at he
    split at he
    · rename_i hidle
      split at he
      · cases he
      · rename_i i rest hheld
        simp only [Option.bind_eq_bind, Option.bind_eq_some_iff] at he
        obtain ⟨p, hp, l, hl, he⟩ := he
        exact .inr (.inl ⟨t, i, rest, p, l, hidle.2, hheld, hp, hl, (Option.some.inj he).symm⟩)
    · cases he
  | next t elapsed =>
    simp only [debugStep] at he
    split at he
    · split at he
      · cases he
      · rename_i i hdoing
        simp only [Option.bind_eq_bind, Option.bind_eq_some_iff] at he
        obtain ⟨l, hl, he⟩ := he
        exact .inr (.inr (.inl ⟨t, i, elapsed, l, hdoing, hl, (Option.some.inj he).symm⟩))
      · rename_i i hdoing
        simp only [Option.bind_eq_bind, Option.bind_eq_some_iff] at he
        obtain ⟨l, hl, he⟩ := he
        exact .inr (.inr (.inr ⟨t, i, elapsed, l, hdoing, hl, (Option.some.inj he).symm⟩))
    · cases he

/-- What a lock has of a thread that is doing this and holds these. -/
def LockPlace (doing : Doing Inst) (held : List Inst) (i : Inst) (th : LockThread) : Prop :=
  if doing = .locking i then th.pc.Locking ∧ th.guards = .replicate (held.count i) .write
  else if doing = .unlocking i then th.pc.Unlocking ∧ th.guards = .replicate (held.count i + 1) .write
  else th.pc = .idle ∧ th.guards = .replicate (held.count i) .write

/-! ## The order of the classes -/

/-- The name has been pushed while the other was in a stack. -/
def NameOrder (p : ProfilerState Tid Name) (m n : Name) : Prop :=
  ∃ x y, p.profiler.nameToId.lookup m = some x ∧ p.profiler.nameToId.lookup n = some y ∧ (x, y) ∈ p.pushedOn

/-- A thread has acquired the second lock with a guard on the first, or is waiting for the second and has one on the
first. -/
def Ahead (s : DebugLocks Tid Inst Name) (a b : Inst) : Prop :=
  (a, b) ∈ s.acquired ∨ ∃ t, a ∈ s.held t ∧ s.doing t = .locking b ∧ a ≠ b

/-- The names a thread has told the profiler it holds. -/
def told (name : Inst → Name) (doing : Doing Inst) (held : List Inst) : List Name :=
  match doing with
  | .locking i => name i :: held.map name
  | _ => held.map name

/-- **The invariant of the debug build**: the profiler has the names of what the threads hold and ask for, and every lock
the threads in it. -/
structure DebugInv (name : Inst → Name) (s : DebugLocks Tid Inst Name) : Prop where
  profiler : ProfilerInv s.profiler
  names : ∀ t, s.profiler.names t = told name (s.doing t) (s.held t)
  order : ∀ a b, Ahead s a b → name a = name b ∨ NameOrder s.profiler (name a) (name b)
  place : ∀ t i, LockPlace (s.doing t) (s.held t) i ((s.locks i).threads t)

omit [DecidableEq Tid] in
/-- **The order of the names is acyclic**, as that of their ids is. -/
theorem ProfilerInv.nameOrder_acyclic {p : ProfilerState Tid Name} (h : ProfilerInv p) : Acyclic (NameOrder p) := by
  refine h.acyclic.of_map (fun n => (p.profiler.nameToId.lookup n).getD 0) (fun m n => ?_)
  rintro ⟨x, y, hm, hn, hxy⟩
  rw [hm, hn]
  exact hxy

omit [DecidableEq Tid] in
/-- A name pushed on a stack comes after the names in it. -/
theorem nameOrder_of_push {q : ProfilerState Tid Name} {lockStack : List Nat} {names : List Name} {m n : Name}
    {lockId : Nat} (h : Profiled q.profiler) (hs : LockStackOk q.profiler lockStack names)
    (hn : q.profiler.nameToId.lookup n = some lockId)
    (hpushed : ∀ ab ∈ pairsOn lockStack lockId, ab ∈ q.pushedOn) (hm : m ∈ names) : m = n ∨ NameOrder q m n := by
  obtain ⟨x, hx, hmx⟩ : ∃ x ∈ lockStack, q.profiler.nameToId.lookup m = some x := by
    have hheld := hs.held
    clear hs hpushed
    induction hheld with
    | nil => cases hm
    | cons hl _ ih =>
      rcases List.mem_cons.1 hm with rfl | hm
      · exact ⟨_, List.mem_cons_self, hl⟩
      · obtain ⟨x, hx, hmx⟩ := ih hm
        exact ⟨x, List.mem_cons_of_mem _ hx, hmx⟩
  by_cases heq : x = lockId
  · subst heq
    exact .inl (h.unique hmx hn)
  · exact .inr ⟨x, lockId, hmx, hn, hpushed _ (mem_pairsOn.2 ⟨rfl, hx, heq⟩)⟩

/-! ## The run -/

omit [DecidableEq Name] in
/-- One thread moves: what its new place must satisfy for the locks to have everyone's place. -/
theorem place_move {t : Tid} {i : Inst} {l : LockState Tid} {doing : Doing Inst} {held : List Inst}
    (h : ∀ u j, LockPlace (s.doing u) (s.held u) j ((s.locks j).threads u))
    (hl : ∀ u, u ≠ t → l.threads u = (s.locks i).threads u) (hme : LockPlace doing held i (l.threads t))
    (hrest : ∀ j, j ≠ i → LockPlace doing held j ((s.locks j).threads t)) (u : Tid) (j : Inst) :
    LockPlace (update s.doing t doing u) (update s.held t held u) j ((update s.locks i l j).threads u) := by
  by_cases hut : u = t
  · subst hut
    rw [update_self, update_self]
    by_cases hji : j = i
    · subst hji
      rw [update_self]
      exact hme
    · rw [update_of_ne hji]
      exact hrest j hji
  · rw [update_of_ne hut, update_of_ne hut]
    by_cases hji : j = i
    · subst hji
      rw [update_self, hl u hut]
      exact h u j
    · rw [update_of_ne hji]
      exact h u j

/-- **One thread moves**: what the profiler, the lock and the thread must satisfy for the invariant to survive. -/
theorem DebugInv.move (h : DebugInv name s) (t : Tid) (i : Inst) {p : ProfilerState Tid Name} (l : LockState Tid)
    (doing : Doing Inst) (held : List Inst) (acquired : List (Inst × Inst)) (crashed : Bool) (hp : ProfilerInv p)
    (horder : ∀ m n, NameOrder s.profiler m n → NameOrder p m n)
    (hnames : p.names = update s.profiler.names t (told name doing held))
    (hacquired : ∀ a b, (a, b) ∈ acquired → Ahead s a b)
    (hask : ∀ a b, a ∈ held → doing = .locking b → name a = name b ∨ NameOrder p (name a) (name b))
    (hl : ∀ u, u ≠ t → l.threads u = (s.locks i).threads u) (hme : LockPlace doing held i (l.threads t))
    (hrest : ∀ j, j ≠ i → LockPlace doing held j ((s.locks j).threads t)) :
    DebugInv name ⟨p, update s.locks i l, update s.doing t doing, update s.held t held, acquired, crashed⟩ where
  profiler := hp
  names u := by
    simp only [hnames]
    by_cases hut : u = t
    · subst hut
      simp only [update_self]
    · simp only [update_of_ne hut]
      exact h.names u
  order a b hab := by
    have hold : Ahead s a b → name a = name b ∨ NameOrder p (name a) (name b) := fun hab =>
      (h.order a b hab).imp id (horder _ _)
    rcases hab with hab | ⟨u, ha, hb, hne⟩
    · exact hold (hacquired a b hab)
    · by_cases hut : u = t
      · subst hut
        simp only [update_self] at ha hb
        exact hask a b ha hb
      · simp only [update_of_ne hut] at ha hb
        exact hold (.inr ⟨u, ha, hb, hne⟩)
  place := place_move h.place hl hme hrest

theorem LockState.set_threads_of_ne (s : LockState Tid) (t u : Tid) (l : Lock) (th : LockThread) (hu : u ≠ t) :
    (s.set t l th).threads u = s.threads u := update_of_ne hu ..

omit [DecidableEq Tid] in
theorem debugInv₀ : DebugInv name (debugLocks₀ : DebugLocks Tid Inst Name) where
  profiler := profilerInv₀
  names t := rfl
  order a b h := by
    rcases h with h | ⟨t, h, -⟩
    · cases h
    · cases h
  place t i := ⟨rfl, rfl⟩

omit [DecidableEq Inst] in
theorem ProfilerInv.push_names {p q : ProfilerState Tid Name} (h : ProfilerInv p) {t : Tid} {n : Name}
    (he : profilerStep p (.pushLock t n) = some q) (hc : q.crashed = none) :
    q.names = update p.names t (n :: p.names t) ∧ (∀ m m', NameOrder p m m' → NameOrder q m m') ∧
      ∀ m ∈ p.names t, m = n ∨ NameOrder q m n := by
  rcases h.push_cases he with ⟨printed, rfl⟩ | ⟨p', hp', hext, hlookup, -, rfl⟩
  · cases hc
  refine ⟨rfl, ?_, fun m hm => ?_⟩
  · rintro m m' ⟨x, y, hx, hy, hxy⟩
    exact ⟨x, y, hext.lookup _ _ hx, hext.lookup _ _ hy, List.mem_append_left _ hxy⟩
  · exact nameOrder_of_push hp' ((h.stack t).mono hext) hlookup (fun ab hab => List.mem_append_right _ hab) hm

theorem DebugInv.writeLock (h : DebugInv name s) {t : Tid} {i : Inst} {p : ProfilerState Tid Name} {l : LockState Tid}
    (hidle : s.doing t = .idle) (hp : profilerStep s.profiler (.pushLock t (name i)) = some p)
    (hl : lockStep LThreadId (s.locks i) (.acquire t .write) = some l) :
    DebugInv name (s.enter p t i l (.locking i) (s.held t)) := by
  have hp' := h.profiler.step hp trivial
  have hnames := h.names t
  rw [hidle] at hnames
  unfold DebugLocks.enter
  split
  · rename_i hc
    obtain ⟨hq, horder, hnew⟩ := h.profiler.push_names hp hc
    have hplace := fun j => h.place t j
    simp only [hidle, LockPlace] at hplace
    simp only [lockStep] at hl
    split at hl
    · cases hl
      refine h.move _ _ _ _ _ _ _ hp' horder ?_ (fun a b hab => .inl hab) ?_ (fun u hu => LockState.set_threads_of_ne _ _ _ _ _ hu) ?_
        (fun j hj => ?_)
      · rw [hq, hnames]
        rfl
      · intro a b ha hb
        cases hb
        refine hnew (name a) ?_
        rw [hnames]
        exact List.mem_map_of_mem ha
      · simp only [LockState.set_threads, update_self, LockPlace, if_true]
        exact ⟨trivial, (hplace i).2⟩
      · have hne : ¬ (Doing.locking i = .locking j) := fun heq => hj (Doing.locking.inj heq).symm
        simp only [LockPlace, if_neg hne]
        exact hplace j
    · cases hl
  · rcases h.profiler.push_cases hp with ⟨printed, rfl⟩ | ⟨p', -, -, -, -, rfl⟩
    · exact ⟨hp', h.names, h.order, h.place⟩
    · exact absurd (profilerStep_alive hp) ‹_›

theorem DebugInv.writeUnlock (h : DebugInv name s) {t : Tid} {i : Inst} {rest : List Inst} {p : ProfilerState Tid Name}
    {l : LockState Tid} (hidle : s.doing t = .idle) (hheld : s.held t = i :: rest)
    (hp : profilerStep s.profiler (.popLock t (name i)) = some p)
    (hl : lockStep LThreadId (s.locks i) (.release t) = some l) :
    DebugInv name (s.enter p t i l (.unlocking i) rest) := by
  have hnames := h.names t
  rw [hidle, hheld] at hnames
  have hhead : (s.profiler.names t).head? = some (name i) := by
    rw [hnames]
    rfl
  have hp' := h.profiler.step hp hhead
  obtain ⟨lockStack, -, rfl⟩ := h.profiler.pop_cases hp hhead
  unfold DebugLocks.enter
  split
  · have hplace := fun j => h.place t j
    simp only [hidle, hheld, LockPlace] at hplace
    simp only [lockStep] at hl
    split at hl
    · rw [(hplace i).2, List.count_cons_self, List.replicate_succ] at hl
      cases hl
      refine h.move _ _ _ _ _ _ _ hp' (fun _ _ ho => ho) ?_ (fun a b hab => .inl hab) (fun a b _ hb => by cases hb)
        (fun u hu => LockState.set_threads_of_ne _ _ _ _ _ hu) ?_ (fun j hj => ?_)
      · rw [hnames]
        rfl
      · simp only [LockState.set_threads, update_self, LockPlace]
        exact ⟨trivial, (List.replicate_succ ..).symm⟩
      · have hne : ¬ (Doing.unlocking i = .unlocking j) := fun heq => hj (Doing.unlocking.inj heq).symm
        have hplacej := hplace j
        rw [List.count_cons_of_ne (Ne.symm hj)] at hplacej
        simp only [LockPlace, if_neg hne]
        exact hplacej
    · cases hl
  · exact absurd (profilerStep_alive hp) ‹_›

/-- The lock's operation: the process has crashed in it, or it has changed the lock and the thread. -/
theorem lockStep_next {l l' : LockState Tid} {t : Tid} {elapsed : Nat}
    (he : lockStep LThreadId l (.next t elapsed) = some l') :
    (∃ cause, l' = { l with crashed := some cause }) ∨ ∃ lock th, l.crashed = none ∧
      lockNext (LThreadId t) elapsed l.lock (l.threads t) = some (.ok (lock, th)) ∧ l' = l.set t lock th := by
  simp only [lockStep] at he
  split at he
  · rename_i hc
    split at he
    · cases he
    · rename_i cause _
      exact .inl ⟨cause, (Option.some.inj he).symm⟩
    · rename_i lock th hnext
      exact .inr ⟨lock, th, hc, hnext, (Option.some.inj he).symm⟩
  · cases he

theorem DebugInv.stay (h : DebugInv name s) {t : Tid} {i : Inst} {l : LockState Tid}
    (hl : ∀ u, u ≠ t → l.threads u = (s.locks i).threads u)
    (hme : LockPlace (s.doing t) (s.held t) i (l.threads t)) : DebugInv name (s.setLock i l) := by
  have hmove := h.move t i l (s.doing t) (s.held t) s.acquired l.crashed.isSome
    h.profiler (fun _ _ ho => ho) (by rw [← h.names t, update_eq_self]) (fun a b hab => .inl hab)
    (fun a b ha hb => ?_) hl hme (fun j _ => h.place t j)
  · rw [update_eq_self, update_eq_self] at hmove
    exact hmove
  · by_cases heq : a = b
    · exact .inl (heq ▸ rfl)
    · exact h.order a b (.inr ⟨t, ha, hb, heq⟩)

/-- The lock's operation with the profiler as it was: the process has crashed in it, or the lock's step is to be looked
at. -/
theorem DebugInv.next_cases (h : DebugInv name s) {t : Tid} {i : Inst} {elapsed : Nat} {l : LockState Tid}
    (hl : lockStep LThreadId (s.locks i) (.next t elapsed) = some l) :
    (l.crashed ≠ none ∧ DebugInv name (s.setLock i l)) ∨ ∃ lock th, (s.locks i).crashed = none ∧
      lockNext (LThreadId t) elapsed (s.locks i).lock ((s.locks i).threads t) = some (.ok (lock, th)) ∧
        l = (s.locks i).set t lock th := by
  rcases lockStep_next hl with ⟨cause, rfl⟩ | hnext
  · exact .inl ⟨Option.some_ne_none _, h.stay (t := t) (fun _ _ => rfl) (h.place t i)⟩
  · exact .inr hnext

theorem DebugInv.nextLocking (h : DebugInv name s) {t : Tid} {i : Inst} {elapsed : Nat} {l : LockState Tid}
    (hdoing : s.doing t = .locking i) (hl : lockStep LThreadId (s.locks i) (.next t elapsed) = some l) :
    DebugInv name (if l.crashed = none ∧ (l.threads t).pc = .idle then (s.setLock i l).acquire t i
      else s.setLock i l) := by
  have hplace := h.place t i
  rcases h.next_cases hl with ⟨hcrash, hinv⟩ | ⟨lock, th, hc, hnext, rfl⟩
  · rw [if_neg (fun hdone => hcrash hdone.1)]
    exact hinv
  rw [hdoing, LockPlace, if_pos rfl] at hplace
  have hother : ∀ u, u ≠ t → ((s.locks i).set t lock th).threads u = (s.locks i).threads u := fun u hu =>
    LockState.set_threads_of_ne _ _ _ _ _ hu
  have hself : ((s.locks i).set t lock th).threads t = th := update_self ..
  rw [hself]
  rcases lockNext_locking hplace.1 hnext with ⟨hpc, hguards⟩ | ⟨hpc, hguards⟩
  · rw [if_pos ⟨hc, hpc⟩]
    have hmove := h.move t i ((s.locks i).set t lock th) .idle (i :: s.held t)
      (s.acquired ++ ((s.held t).filter (fun a => a ≠ i)).map (fun a => (a, i)))
      (s.setLock i ((s.locks i).set t lock th)).crashed h.profiler (fun _ _ ho => ho) ?_ (fun a b hab => ?_)
      (fun a b _ hb => by cases hb) hother ?_ (fun j hj => ?_)
    · exact hmove
    · have hnames := h.names t
      rw [hdoing] at hnames
      exact (update_eq_self_iff.2 hnames.symm).symm
    · rcases List.mem_append.1 hab with hab | hab
      · exact .inl hab
      · obtain ⟨x, hx, heq⟩ := List.mem_map.1 hab
        obtain ⟨hx, hne⟩ := List.mem_filter.1 hx
        cases heq
        exact .inr ⟨t, hx, hdoing, of_decide_eq_true hne⟩
    · rw [hself]
      refine ⟨hpc, ?_⟩
      rw [hguards, hplace.2, List.count_cons_self, List.replicate_succ]
    · have hplacej := h.place t j
      have hne : ¬ (Doing.locking i = .locking j) := fun heq => hj (Doing.locking.inj heq).symm
      rw [hdoing, LockPlace, if_neg hne] at hplacej
      show LockPlace .idle (i :: s.held t) j _
      simp only [LockPlace, List.count_cons_of_ne (Ne.symm hj)]
      exact hplacej
  · rw [if_neg (fun hdone => by rw [hdone.2] at hpc; exact hpc)]
    refine h.stay hother ?_
    rw [hself, hdoing, LockPlace, if_pos rfl, hguards]
    exact ⟨hpc, hplace.2⟩

theorem DebugInv.nextUnlocking (h : DebugInv name s) {t : Tid} {i : Inst} {elapsed : Nat} {l : LockState Tid}
    (hdoing : s.doing t = .unlocking i) (hl : lockStep LThreadId (s.locks i) (.next t elapsed) = some l) :
    DebugInv name (if l.crashed = none ∧ (l.threads t).pc = .idle then
      { s.setLock i l with doing := update s.doing t .idle } else s.setLock i l) := by
  have hplace := h.place t i
  rcases h.next_cases hl with ⟨hcrash, hinv⟩ | ⟨lock, th, hc, hnext, rfl⟩
  · rw [if_neg (fun hdone => hcrash hdone.1)]
    exact hinv
  rw [hdoing, LockPlace, if_neg (fun heq => by cases heq), if_pos rfl] at hplace
  have hother : ∀ u, u ≠ t → ((s.locks i).set t lock th).threads u = (s.locks i).threads u := fun u hu =>
    LockState.set_threads_of_ne _ _ _ _ _ hu
  have hself : ((s.locks i).set t lock th).threads t = th := update_self ..
  rw [hself]
  rcases lockNext_unlocking hplace.1 hnext with ⟨hpc, hguards⟩ | ⟨hpc, hguards⟩
  · rw [if_pos ⟨hc, hpc⟩]
    have hmove := h.move t i ((s.locks i).set t lock th) .idle (s.held t) s.acquired
      (s.setLock i ((s.locks i).set t lock th)).crashed h.profiler (fun _ _ ho => ho) ?_
      (fun a b hab => .inl hab) (fun a b _ hb => by cases hb) hother ?_ (fun j hj => ?_)
    · rw [update_eq_self] at hmove
      exact hmove
    · have hnames := h.names t
      rw [hdoing] at hnames
      exact (update_eq_self_iff.2 hnames.symm).symm
    · rw [hself]
      refine ⟨hpc, ?_⟩
      rw [hguards, hplace.2, List.replicate_succ, List.tail_cons]
    · have hplacej := h.place t j
      have hne : ¬ (Doing.unlocking i = .unlocking j) := fun heq => hj (Doing.unlocking.inj heq).symm
      rw [hdoing, LockPlace, if_neg (fun heq => by cases heq), if_neg hne] at hplacej
      exact hplacej
  · rw [if_neg (fun hdone => by rw [hdone.2] at hpc; exact hpc)]
    refine h.stay hother ?_
    rw [hself, hdoing, LockPlace, if_neg (fun heq => by cases heq), if_pos rfl, hguards]
    exact ⟨hpc, hplace.2⟩

theorem DebugInv.step (h : DebugInv name s) {a : DebugAct Tid Inst} (he : debugStep name LThreadId s a = some s') :
    DebugInv name s' := by
  rcases debugStep_cases he with ⟨t, i, p, l, hidle, hp, hl, rfl⟩ | ⟨t, i, rest, p, l, hidle, hheld, hp, hl, rfl⟩ |
    ⟨t, i, elapsed, l, hdoing, hl, rfl⟩ | ⟨t, i, elapsed, l, hdoing, hl, rfl⟩
  · exact h.writeLock hidle hp hl
  · exact h.writeUnlock hidle hheld hp hl
  · exact h.nextLocking hdoing hl
  · exact h.nextUnlocking hdoing hl

theorem debugInv_of_reach (h : Reach (debugStep name LThreadId) Any debugLocks₀ s) : DebugInv name s :=
  h.inv debugInv₀ (fun _ _ _ _ hi he _ => hi.step he)

omit [DecidableEq Name] in
theorem setLock_step {i : Inst} {l : LockState Tid} {act : LockAct Tid}
    (hl : lockStep LThreadId (s.locks i) act = some l) (j : Inst) :
    update s.locks i l j = s.locks j ∨ ∃ act, lockStep LThreadId (s.locks j) act = some (update s.locks i l j) := by
  by_cases hji : j = i
  · subst hji
    rw [update_self]
    exact .inr ⟨act, hl⟩
  · exact .inl (update_of_ne hji ..)

omit [DecidableEq Name] in
/-- The profiler's call does not touch a lock, and what follows it is an operation of the lock. -/
theorem enter_step {p : ProfilerState Tid Name} {t : Tid} {i : Inst} {l : LockState Tid} {doing : Doing Inst}
    {held : List Inst} {act : LockAct Tid} (hl : lockStep LThreadId (s.locks i) act = some l) (j : Inst) :
    (s.enter p t i l doing held).locks j = s.locks j ∨
      ∃ act, lockStep LThreadId (s.locks j) act = some ((s.enter p t i l doing held).locks j) := by
  unfold DebugLocks.enter
  split
  · exact setLock_step hl j
  · exact .inl rfl

/-- **Each lock runs its own code**, whatever the profiler and the other locks do. -/
theorem lock_run (h : Reach (debugStep name LThreadId) Any debugLocks₀ s) (j : Inst) :
    Reach (lockStep LThreadId) Any lockState₀ (s.locks j) := by
  have hstep : ∀ (s : DebugLocks Tid Inst Name) a s', debugStep name LThreadId s a = some s' →
      s'.locks j = s.locks j ∨ ∃ act, lockStep LThreadId (s.locks j) act = some (s'.locks j) := by
    intro s a s' he
    rcases debugStep_cases he with ⟨t, i, p, l, -, -, hl, rfl⟩ | ⟨t, i, rest, p, l, -, -, -, hl, rfl⟩ |
      ⟨t, i, elapsed, l, -, hl, rfl⟩ | ⟨t, i, elapsed, l, -, hl, rfl⟩
    · exact enter_step hl j
    · exact enter_step hl j
    · split <;> exact setLock_step hl j
    · split <;> exact setLock_step hl j
  refine h.map (lockStep LThreadId) (fun s => s.locks j) (fun s a s' he _ => ?_)
  exact (hstep s a s' he).imp id (fun ⟨act, hact⟩ => ⟨act, hact, trivial⟩)

/-- **The lock order, by class**: in every run, and whatever the threads are waiting for, a cycle of locks each of which
a thread took, or waits for, with a guard on the one before is a cycle of locks of one name. -/
theorem lock_order_by_class (h : Reach (debugStep name LThreadId) Any debugLocks₀ s) {a b : Inst}
    (hab : TransGen (Ahead s) a b) (hba : TransGen (Ahead s) b a) : name a = name b := by
  have hinv := debugInv_of_reach h
  exact hinv.profiler.nameOrder_acyclic.eq_of_cycle name hinv.order hab hba

/-- Two locks of one class. -/
def oneClass (_ : Two) : Nat := 7

/-- A thread takes a lock, or gives it back, without waiting. -/
def atOnce (t : Two) (a : DebugAct Two Two) : List (DebugAct Two Two) := a :: .replicate 3 (.next t 0)

/-- One thread takes the two locks of a class in one order, and then the other in the other order. -/
def bothOrders : List (DebugAct Two Two) :=
  atOnce .one (.writeLock .one .one) ++ atOnce .one (.writeLock .one .two) ++ atOnce .one (.writeUnlock .one) ++
    atOnce .one (.writeUnlock .one) ++ atOnce .two (.writeLock .two .two) ++ atOnce .two (.writeLock .two .one)

theorem lock_order_by_class_two :
    ∃ s, run (debugStep oneClass ids) Any debugLocks₀ bothOrders = some s ∧
      TransGen (Ahead s) .one .two ∧ TransGen (Ahead s) .two .one ∧ oneClass .one = oneClass .two := by
  obtain ⟨s, hs, hr⟩ := reach_of_run (debugStep oneClass ids) Any debugLocks₀ bothOrders (by decide)
  have hacquired : (run (debugStep oneClass ids) Any debugLocks₀ bothOrders).map (fun s => s.acquired) =
      some [(.one, .two), (.two, .one)] := by decide
  rw [hs, Option.map_some, Option.some.injEq] at hacquired
  have hab : TransGen (Ahead s) .one .two := .single (.inl (by rw [hacquired]; decide))
  have hba : TransGen (Ahead s) .two .one := .single (.inl (by rw [hacquired]; decide))
  exact ⟨s, hs, hab, hba, lock_order_by_class hr hab hba⟩

/-- **Two locks of a class**: the profiler lets the threads take them in both orders, and lets them wait for each
other. -/
theorem two_of_a_class :
    (∃ s, Reach (debugStep oneClass ids) Any debugLocks₀ s ∧ s.crashed = false ∧
      ¬ Acyclic (fun a b => (a, b) ∈ s.acquired)) ∧
    ∃ s : DebugLocks Two Two Nat, Reach (debugStep oneClass ids) Any debugLocks₀ s ∧ s.crashed = false ∧
      s.held .one = [.one] ∧ s.doing .one = .locking .two ∧ s.held .two = [.two] ∧ s.doing .two = .locking .one := by
  constructor
  · obtain ⟨s, hs, hr⟩ := reach_of_run (debugStep oneClass ids) Any debugLocks₀ bothOrders (by decide)
    have hend : (run (debugStep oneClass ids) Any debugLocks₀ bothOrders).map (fun s => (s.acquired, s.crashed)) =
        some ([(.one, .two), (.two, .one)], false) := by decide
    rw [hs, Option.map_some, Option.some.injEq, Prod.mk.injEq] at hend
    refine ⟨s, hr, hend.2, fun hacyclic => hacyclic .one (.tail (b := .two) (.single ?_) ?_)⟩
    · rw [hend.1]
      decide
    · rw [hend.1]
      decide
  · let acts := atOnce .one (.writeLock .one .one) ++ atOnce .two (.writeLock .two .two) ++
      [.writeLock .one .two, .writeLock .two .one]
    obtain ⟨s, hs, hr⟩ := reach_of_run (debugStep oneClass ids) Any debugLocks₀ acts (by decide)
    have hend : (run (debugStep oneClass ids) Any debugLocks₀ acts).map (fun s =>
        (s.crashed, s.held .one, s.doing .one, s.held .two, s.doing .two)) =
        some (false, [.one], .locking .two, [.two], .locking .one) := by decide
    rw [hs, Option.map_some, Option.some.injEq] at hend
    simp only [Prod.mk.injEq] at hend
    exact ⟨s, hr, hend⟩

end Geon
