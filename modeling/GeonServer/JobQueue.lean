import GeonServer.Lts
/-!
# JobQueue — jobs that one thread at a time executes

`JobQueue::Push` and `JobQueue::Execute` of ServerCore/JobQueue.cpp over `LockQueue`, `GlobalQueue` and
`ThreadManager::DoGlobalQueueWork`, run by any number of threads on any number of job queues.  A step is one atomic
operation on `_jobCount` or one `LockQueue` call, with what the thread does on its own next to it.

A thread is its call stack, innermost first, and its `LCurrentJobQueue`.  With an empty stack, or inside a running
job, it may call `Push` on any queue at any time (`JobAct.push`), so a job is whatever it pushes.
-/
namespace Geon

open Lts Function

/-! ## The queue under the lock -/

/-- `LockQueue::PopAll`: it stops at the first item that tests false, which it has popped. -/
def popAll {T : Type*} : List (Option T) → List T × List (Option T)
  | [] => ([], [])
  | none :: items => ([], items)
  | some item :: items => (item :: (popAll items).1, (popAll items).2)

/-- **Without null items `PopAll` takes everything.** -/
theorem popAll_eq {T : Type*} : ∀ items : List (Option T), none ∉ items →
    (popAll items).1.map some = items ∧ (popAll items).2 = []
  | [], _ => ⟨rfl, rfl⟩
  | none :: items, h => absurd (List.mem_cons_self ..) h
  | some item :: items, h => by
    obtain ⟨h1, h2⟩ := popAll_eq items (fun hm => h (List.mem_cons_of_mem _ hm))
    simp [popAll, h1, h2]

theorem popAll_length {T : Type*} : ∀ items : List (Option T),
    (popAll items).1.length + (popAll items).2.length ≤ items.length
  | [] => Nat.le_refl 0
  | none :: items => by simp [popAll]
  | some item :: items => by
    have := popAll_length items
    simp only [popAll, List.length_cons]
    omega

/-! ## The code -/

/-- `JobQueue`, with its history: the jobs in the order they entered `_jobs`, with the thread that pushed each, and
the jobs in the order they were executed. -/
structure JobQueue (Tid Job : Type*) where
  jobs : List (Option Job)
  jobCount : BitVec 32
  entered : List (Tid × Option Job)
  executed : List Job

/-- An unfinished call, and where it is. -/
inductive JobFrame (Q Job : Type*)
  /-- `Push` has done its `fetch_add`, which returned `prevCount`: about to do `_jobs.Push`. -/
  | pushing (q : Q) (job : Option Job) (pushOnly : Bool) (prevCount : BitVec 32)
  /-- `Push` saw 0: about to execute the queue or to hand it over. -/
  | first (q : Q) (pushOnly : Bool)
  /-- `DoGlobalQueueWork` has popped the queue. -/
  | popped (q : Q)
  /-- `Execute` is about to do `PopAll`. -/
  | popAll (q : Q)
  /-- About to look at job `i` of the batch. -/
  | batch (q : Q) (jobs : List Job) (i : Nat)
  /-- Job `i` of the batch is running. -/
  | inJob (q : Q) (jobs : List Job) (i : Nat)
  /-- The batch is done and there are more jobs: about to look at the clock. -/
  | tick (q : Q)
  deriving DecidableEq, Repr

/-- A thread: `LCurrentJobQueue`, its call stack, and the calls of `Push` it has made. -/
structure JobThread (Q Job : Type*) where
  current : Option Q
  frames : List (JobFrame Q Job)
  called : List (Q × Option Job)

structure JobState (Tid Q Job : Type*) where
  queues : Q → JobQueue Tid Job
  globalQueue : List Q
  threads : Tid → JobThread Q Job

variable {Tid Q Job : Type*} [DecidableEq Tid] [DecidableEq Q]

def JobState.set (s : JobState Tid Q Job) (t : Tid) (th : JobThread Q Job) (q : Q) (jq : JobQueue Tid Job)
    (globalQueue : List Q) : JobState Tid Q Job :=
  { queues := update s.queues q jq, globalQueue := globalQueue, threads := update s.threads t th }

@[simp] theorem JobState.set_queues (s : JobState Tid Q Job) (t : Tid) (th : JobThread Q Job) (q : Q)
    (jq : JobQueue Tid Job) (g : List Q) : (s.set t th q jq g).queues = update s.queues q jq := rfl
@[simp] theorem JobState.set_globalQueue (s : JobState Tid Q Job) (t : Tid) (th : JobThread Q Job) (q : Q)
    (jq : JobQueue Tid Job) (g : List Q) : (s.set t th q jq g).globalQueue = g := rfl
@[simp] theorem JobState.set_threads (s : JobState Tid Q Job) (t : Tid) (th : JobThread Q Job) (q : Q)
    (jq : JobQueue Tid Job) (g : List Q) : (s.set t th q jq g).threads = update s.threads t th := rfl

/-- The next step of thread `t` inside `Push` or `Execute`; `timeout` is what `now >= LEndTickCount` gives where the
clock is read. -/
def jobNext (s : JobState Tid Q Job) (t : Tid) (timeout : Bool) : Option (JobState Tid Q Job) :=
  let th := s.threads t
  match th.frames with
  | [] => none
  | .pushing q job pushOnly prevCount :: fs =>
    let jq := s.queues q
    let fs := if prevCount = 0 then .first q pushOnly :: fs else fs
    some (s.set t { th with frames := fs } q
      { jq with jobs := jq.jobs ++ [job], entered := jq.entered ++ [(t, job)] } s.globalQueue)
  | .first q pushOnly :: fs =>
    if th.current = none ∧ pushOnly = false then
      some (s.set t { th with current := some q, frames := .popAll q :: fs } q (s.queues q) s.globalQueue)
    else some (s.set t { th with frames := fs } q (s.queues q) (s.globalQueue ++ [q]))
  | .popped q :: fs =>
    some (s.set t { th with current := some q, frames := .popAll q :: fs } q (s.queues q) s.globalQueue)
  | .popAll q :: fs =>
    let jq := s.queues q
    some (s.set t { th with frames := .batch q (popAll jq.jobs).1 0 :: fs } q
      { jq with jobs := (popAll jq.jobs).2 } s.globalQueue)
  | .batch q jobs i :: fs =>
    let jq := s.queues q
    let jobCount := BitVec.ofNat 32 jobs.length
    if (i : Int) < jobCount.toInt then
      match jobs[i]? with
      | none => none
      | some job => some (s.set t { th with frames := .inJob q jobs i :: fs } q
          { jq with executed := jq.executed ++ [job] } s.globalQueue)
    else if jq.jobCount = jobCount then
      some (s.set t { th with current := none, frames := fs } q
        { jq with jobCount := jq.jobCount - jobCount } s.globalQueue)
    else some (s.set t { th with frames := .tick q :: fs } q
        { jq with jobCount := jq.jobCount - jobCount } s.globalQueue)
  | .inJob _ _ _ :: _ => none
  | .tick q :: fs =>
    if timeout = true then
      some (s.set t { th with current := none, frames := fs } q (s.queues q) (s.globalQueue ++ [q]))
    else some (s.set t { th with frames := .popAll q :: fs } q (s.queues q) s.globalQueue)

inductive JobAct (Tid Q Job : Type*)
  /-- Code outside the queues, or a running job, calls `Push`, which does its `fetch_add`. -/
  | push (t : Tid) (q : Q) (job : Option Job) (pushOnly : Bool)
  /-- `DoGlobalQueueWork` pops a queue. -/
  | pop (t : Tid)
  /-- A thread inside `Push` or `Execute` takes its next step. -/
  | next (t : Tid) (timeout : Bool)
  /-- The job a thread is running returns. -/
  | finish (t : Tid)

/-- The thread is in code that may call `Push`: outside the queues, or in a job. -/
def JobThread.free (th : JobThread Q Job) : Bool :=
  match th.frames with
  | [] | .inJob _ _ _ :: _ => true
  | _ => false

def jobStep (s : JobState Tid Q Job) : JobAct Tid Q Job → Option (JobState Tid Q Job)
  | .push t q job pushOnly =>
    let th := s.threads t
    let jq := s.queues q
    if th.free = true then
      some (s.set t { th with
        frames := .pushing q job pushOnly jq.jobCount :: th.frames, called := th.called ++ [(q, job)] } q
        { jq with jobCount := jq.jobCount + 1 } s.globalQueue)
    else none
  | .pop t =>
    match (s.threads t).frames, s.globalQueue with
    | [], q :: globalQueue =>
      some (s.set t { s.threads t with frames := [.popped q] } q (s.queues q) globalQueue)
    | _, _ => none
  | .next t timeout => jobNext s t timeout
  | .finish t =>
    match (s.threads t).frames with
    | .inJob q jobs i :: fs =>
      some (s.set t { s.threads t with frames := .batch q jobs (i + 1) :: fs } q (s.queues q) s.globalQueue)
    | _ => none

def jobState₀ : JobState Tid Q Job := ⟨fun _ => ⟨[], 0, [], []⟩, [], fun _ => ⟨none, [], []⟩⟩

end Geon
