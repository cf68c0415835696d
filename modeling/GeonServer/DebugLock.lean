import GeonServer.DeadLockProfiler
import GeonServer.Lock
/-!
# DebugLock — the locks of a `_DEBUG` build

In a `_DEBUG` build `WriteLock` tells the profiler its name before it takes the lock, and `WriteUnlock` before it gives it
back.  The guards of `WRITE_LOCK` name a lock by the class that owns it.  Any number of locks, each run by `lockStep`.
-/
namespace Geon

open Function Lts

/-- What a thread is doing with the locks. -/
inductive Doing (Inst : Type)
  | idle
  | locking (i : Inst)
  | unlocking (i : Inst)
  deriving DecidableEq, Repr

/-- The locks of a `_DEBUG` build.  `held` are the locks of a thread's guards, innermost first, and the history is the
pairs of locks of which a thread has acquired the second with a guard on the first. -/
structure DebugLocks (Tid Inst Name : Type) where
  profiler : ProfilerState Tid Name
  locks : Inst → LockState Tid
  doing : Tid → Doing Inst
  held : Tid → List Inst
  acquired : List (Inst × Inst)
  crashed : Bool

inductive DebugAct (Tid Inst : Type)
  /-- A thread constructs a guard on a lock. -/
  | writeLock (t : Tid) (i : Inst)
  /-- A thread's innermost guard is destroyed. -/
  | writeUnlock (t : Tid)
  /-- A thread inside `WriteLock` or `WriteUnlock` does its next atomic operation. -/
  | next (t : Tid) (elapsed : Nat)

variable {Tid Inst Name : Type} [DecidableEq Tid] [DecidableEq Inst] [DecidableEq Name]

/-- The lock has a new state, and the process has crashed if the lock has. -/
def DebugLocks.setLock (s : DebugLocks Tid Inst Name) (i : Inst) (l : LockState Tid) : DebugLocks Tid Inst Name :=
  { s with locks := update s.locks i l, crashed := l.crashed.isSome }

/-- The profiler has been called, and then the code of the lock is entered, unless the call has crashed. -/
def DebugLocks.enter (s : DebugLocks Tid Inst Name) (p : ProfilerState Tid Name) (t : Tid) (i : Inst)
    (l : LockState Tid) (doing : Doing Inst) (held : List Inst) : DebugLocks Tid Inst Name :=
  if p.crashed = none then
    { s.setLock i l with profiler := p, doing := update s.doing t doing, held := update s.held t held }
  else { s with profiler := p, crashed := true }

/-- The thread has left `WriteLock` with a guard on the lock. -/
def DebugLocks.acquire (s : DebugLocks Tid Inst Name) (t : Tid) (i : Inst) : DebugLocks Tid Inst Name :=
  { s with
    doing := update s.doing t .idle
    held := update s.held t (i :: s.held t)
    acquired := s.acquired ++ ((s.held t).filter (fun a => a ≠ i)).map (fun a => (a, i)) }

def debugStep (name : Inst → Name) (LThreadId : Tid → BitVec 32) (s : DebugLocks Tid Inst Name) :
    DebugAct Tid Inst → Option (DebugLocks Tid Inst Name)
  | .writeLock t i =>
    if s.crashed = false ∧ s.doing t = .idle then do
      let p ← profilerStep s.profiler (.pushLock t (name i))
      let l ← lockStep LThreadId (s.locks i) (.acquire t .write)
      some (s.enter p t i l (.locking i) (s.held t))
    else none
  | .writeUnlock t =>
    if s.crashed = false ∧ s.doing t = .idle then
      match s.held t with
      | [] => none
      | i :: rest => do
        let p ← profilerStep s.profiler (.popLock t (name i))
        let l ← lockStep LThreadId (s.locks i) (.release t)
        some (s.enter p t i l (.unlocking i) rest)
    else none
  | .next t elapsed =>
    if s.crashed = false then
      match s.doing t with
      | .idle => none
      | .locking i => do
        let l ← lockStep LThreadId (s.locks i) (.next t elapsed)
        let s := s.setLock i l
        some (if l.crashed = none ∧ (l.threads t).pc = .idle then s.acquire t i else s)
      | .unlocking i => do
        let l ← lockStep LThreadId (s.locks i) (.next t elapsed)
        let s := s.setLock i l
        some (if l.crashed = none ∧ (l.threads t).pc = .idle then { s with doing := update s.doing t .idle } else s)
    else none

def debugLocks₀ : DebugLocks Tid Inst Name :=
  ⟨profilerState₀, fun _ => lockState₀, fun _ => .idle, fun _ => [], [], false⟩

end Geon
