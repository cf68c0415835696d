import GeonServer.Lts
import Mathlib.Data.List.Sort
import Mathlib.Logic.Function.Basic
/-!
# DeadLockProfiler — the order in which locks are taken

`DeadLockProfiler` of ServerCore/DeadLockProfiler.cpp: it gives every lock name an id, keeps which id was pushed on top
of which, and looks for a cycle in that history by a depth-first search whenever something new is in it.  `PushLock` and
`PopLock` hold its mutex throughout, so each is one step; `LLockStack` is the thread's own.

`Dfs` is recursive, so it is run on fuel, which is checked to be enough where it is called (`checkCycle_spec`).  What is
undefined behaviour in the source (an index outside a vector) stops it (`DfsStop.undefined`).
-/
namespace Geon

open Lts Function

/-- `_discoveredOrder`, `_discoveredCount`, `_finished` and `_parent`. -/
structure DfsState where
  discoveredOrder : Nat → Int
  discoveredCount : Nat
  finished : Nat → Bool
  parent : Nat → Int

/-- The vectors as `CheckCycle` makes them. -/
def DfsState.new : DfsState := ⟨fun _ => -1, 0, fun _ => false, fun _ => -1⟩

/-- Why `Dfs` does not return. -/
inductive DfsStop
  /-- `DEADLOCK_DETECTED`, after the lines it has printed: each is a lock and the one taken on top of it. -/
  | crash (printed : List (Nat × Nat))
  /-- An index is outside a vector, or the printing does not end. -/
  | undefined
  | outOfFuel
  deriving DecidableEq, Repr

/-- The `while (true)` that prints the path back from `now` to `there`. -/
def printPath (parent : Nat → Int) (there : Nat) : Nat → Nat → Option (List (Nat × Nat))
  | 0, _ => none
  | fuel + 1, now =>
    if parent now < 0 then none
    else
      let next := (parent now).toNat
      if next = there then some [(next, now)]
      else (printPath parent there fuel next).map (fun printed => (next, now) :: printed)

/-- `_lockHistory`: the ids pushed on top of each id, in ascending order. -/
abbrev LockHistory := Nat → List Nat

/-- One round of the loop of `Dfs(here)`; `dfs` is the recursive call. -/
def visit (lockCount : Nat) (dfs : Nat → DfsState → Except DfsStop DfsState) (here : Nat) (s : DfsState)
    (there : Nat) : Except DfsStop DfsState :=
  if lockCount ≤ there then .error .undefined
  else if s.discoveredOrder there = -1 then dfs there { s with parent := update s.parent there here }
  else if s.discoveredOrder here < s.discoveredOrder there then .ok s
  else if s.finished there = false then
    match printPath s.parent there lockCount here with
    | none => .error .undefined
    | some printed => .error (.crash ((here, there) :: printed))
  else .ok s

def dfs (lockHistory : LockHistory) (lockCount : Nat) : Nat → Nat → DfsState → Except DfsStop DfsState
  | 0, _, _ => .error .outOfFuel
  | fuel + 1, here, s =>
    if lockCount ≤ here then .error .undefined
    else if s.discoveredOrder here ≠ -1 then .ok s
    else do
      let s' ← (lockHistory here).foldlM (visit lockCount (dfs lockHistory lockCount fuel) here) { s with
        discoveredOrder := update s.discoveredOrder here s.discoveredCount
        discoveredCount := s.discoveredCount + 1 }
      .ok { s' with finished := update s'.finished here true }

def checkCycle (lockHistory : LockHistory) (lockCount : Nat) : Except DfsStop DfsState :=
  (List.range lockCount).foldlM (fun s lockId => dfs lockHistory lockCount (lockCount + 1) lockId s) .new

/-- `DeadLockProfiler`.  `nameToId` has the names in the order they came; a name is the pointer it is. -/
structure DeadLockProfiler (Name : Type) where
  nameToId : List (Name × Nat)
  idToName : Nat → Option Name
  lockHistory : LockHistory

/-- The causes of the crashes of the profiler. -/
inductive ProfilerCrash (Name : Type)
  | MULTIPLE_UNLOCK
  | INVALID_UNLOCK
  | DEADLOCK_DETECTED (printed : List (Option Name × Option Name))
  /-- `Dfs` ran into undefined behaviour or did not come to an end. -/
  | dfs (stop : DfsStop)
  deriving DecidableEq, Repr

namespace DeadLockProfiler

variable {Name : Type} [DecidableEq Name]

def new : DeadLockProfiler Name := ⟨[], fun _ => none, fun _ => []⟩

/-- The id of a name, issued when it has none. -/
def lockId (p : DeadLockProfiler Name) (name : Name) : Nat × DeadLockProfiler Name :=
  match p.nameToId.lookup name with
  | some lockId => (lockId, p)
  | none =>
    let lockId := p.nameToId.length
    (lockId, { p with nameToId := p.nameToId ++ [(name, lockId)], idToName := update p.idToName lockId (some name) })

/-- `_nameToId[name]`: a name that is not there gets the id 0. -/
def index (p : DeadLockProfiler Name) (name : Name) : Nat × DeadLockProfiler Name :=
  match p.nameToId.lookup name with
  | some lockId => (lockId, p)
  | none => (0, { p with nameToId := p.nameToId ++ [(name, 0)] })

/-- The crash of `CheckCycle`, with the names `Dfs` prints. -/
def cause (p : DeadLockProfiler Name) : DfsStop → ProfilerCrash Name
  | .crash printed => .DEADLOCK_DETECTED (printed.map (fun line => (p.idToName line.1, p.idToName line.2)))
  | stop => .dfs stop

/-- `PushLock` by a thread with this `LLockStack`, the top first. -/
def pushLock (p : DeadLockProfiler Name) (lockStack : List Nat) (name : Name) :
    Except (ProfilerCrash Name) (DeadLockProfiler Name × List Nat) :=
  let (lockId, p) := p.lockId name
  match lockStack with
  | [] => .ok (p, [lockId])
  | prevId :: _ =>
    if lockId ≠ prevId then
      if lockId ∈ p.lockHistory prevId then .ok (p, lockId :: lockStack)
      else
        let p := { p with
          lockHistory := update p.lockHistory prevId ((p.lockHistory prevId).orderedInsert (· ≤ ·) lockId) }
        match checkCycle p.lockHistory p.nameToId.length with
        | .ok _ => .ok (p, lockId :: lockStack)
        | .error stop => .error (p.cause stop)
    else .ok (p, lockId :: lockStack)

/-- `PopLock` by a thread with this `LLockStack`. -/
def popLock (p : DeadLockProfiler Name) (lockStack : List Nat) (name : Name) :
    Except (ProfilerCrash Name) (DeadLockProfiler Name × List Nat) :=
  match lockStack with
  | [] => .error .MULTIPLE_UNLOCK
  | top :: rest =>
    let (lockId, p) := p.index name
    if top ≠ lockId then .error .INVALID_UNLOCK else .ok (p, rest)

end DeadLockProfiler

/-- The profiler and the `LLockStack`s.  The history is the names a thread has pushed and not popped, and the pairs of
ids of which a thread has pushed the second while the first was anywhere in its stack. -/
structure ProfilerState (Tid Name : Type) where
  profiler : DeadLockProfiler Name
  lockStack : Tid → List Nat
  names : Tid → List Name
  pushedOn : List (Nat × Nat)
  crashed : Option (ProfilerCrash Name)

inductive ProfilerAct (Tid Name : Type)
  | pushLock (t : Tid) (name : Name)
  | popLock (t : Tid) (name : Name)

variable {Tid Name : Type} [DecidableEq Tid] [DecidableEq Name]

/-- What a push on this stack adds to the history. -/
def pairsOn (lockStack : List Nat) (lockId : Nat) : List (Nat × Nat) :=
  (lockStack.filter (fun x => x ≠ lockId)).map (fun x => (x, lockId))

def profilerStep (s : ProfilerState Tid Name) (a : ProfilerAct Tid Name) : Option (ProfilerState Tid Name) :=
  if s.crashed ≠ none then none
  else match a with
    | .pushLock t name =>
      match s.profiler.pushLock (s.lockStack t) name with
      | .error cause => some { s with crashed := some cause }
      | .ok (p, lockStack) => some { s with
          profiler := p
          lockStack := update s.lockStack t lockStack
          names := update s.names t (name :: s.names t)
          pushedOn := s.pushedOn ++ pairsOn (s.lockStack t) (s.profiler.lockId name).1 }
    | .popLock t name =>
      match s.profiler.popLock (s.lockStack t) name with
      | .error cause => some { s with crashed := some cause }
      | .ok (p, lockStack) => some { s with
          profiler := p
          lockStack := update s.lockStack t lockStack
          names := update s.names t (s.names t).tail }

/-- A thread pops what it pushed last. -/
def Lifo (s : ProfilerState Tid Name) (a : ProfilerAct Tid Name) (_ : ProfilerState Tid Name) : Prop :=
  match a with
  | .pushLock _ _ => True
  | .popLock t name => (s.names t).head? = some name

instance (s s' : ProfilerState Tid Name) (a : ProfilerAct Tid Name) : Decidable (Lifo s a s') :=
  match a with
  | .pushLock _ _ => .isTrue trivial
  | .popLock _ _ => inferInstanceAs (Decidable (_ = _))

def profilerState₀ : ProfilerState Tid Name := ⟨.new, fun _ => [], fun _ => [], [], none⟩

end Geon
