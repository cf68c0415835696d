import GeonServer.JobToken
import GeonServer.PriorityQueue
/-!
# JobTimer — jobs that are due later

`JobTimer::Reserve` and `JobTimer::Distribute` of ServerCore/JobTimer.cpp, called by any number of threads over the job
queues of `jobStep`.  A step is the exchange of `_distributing`, one locked access to `_items`, the look at the owner of
one due job, or a step of the `Push` of that job.

A `JobQueue` lives as long as something holds it: `refs` counts what does outside the timer, and a job in the timer
holds what its closure has captured.  The `owner` of a `JobData` is a weak pointer and holds nothing.
-/
namespace Geon
namespace JobTimer

open Lts Function

variable {Heap Tid Q F : Type}

/-! ## Jobs and items -/

/-- `Job`: what its closure has captured of queues, and what it does. -/
structure Job (Q F : Type) where
  captures : List Q
  callback : F
  deriving DecidableEq, Repr

/-- `JobQueue::DoTimer` is called with a callback or with a member function and its arguments. -/
inductive DoTimer (Q F : Type)
  | callback (captures : List Q) (f : F)
  | memFunc (f : F) (args : List Q)

/-- The job of `DoTimer` on the queue `owner`: the closure of a member function captures `owner`. -/
def DoTimer.job (owner : Q) : DoTimer Q F → Job Q F
  | .callback captures f => ⟨captures, f⟩
  | .memFunc f args => ⟨owner :: args, f⟩

/-- `JobData`, with the clock and the delay of the `Reserve` that made it. -/
structure JobData (Q F : Type) where
  owner : Q
  job : Job Q F
  reservedAt : BitVec 64
  tickAfter : BitVec 64
  deriving DecidableEq, Repr

/-- `TimerItem`; `number` says as the how many-th it came into `_items`. -/
structure TimerItem (Q F : Type) where
  executeTick : BitVec 64
  jobData : JobData Q F
  number : Nat
  deriving DecidableEq, Repr

/-- `operator<`, by which the item that is due first is the greatest. -/
def TimerItem.lt (item other : TimerItem Q F) : Prop := item.executeTick > other.executeTick

/-- An item that has left the timer: the clock when it came into the `_jobs` of its owner, `none` if it was dropped. -/
structure Delivery (Q F : Type) where
  item : TimerItem Q F
  pushedAt : Option (BitVec 64)
  deriving DecidableEq, Repr

/-! ## The code -/

inductive TimerPc (Q F : Type)
  | idle
  /-- `Reserve` is about to push the item. -/
  | reserve (executeTick : BitVec 64) (jobData : JobData Q F)
  /-- `Distribute` has come through `_distributing`: about to take the lock. -/
  | collect (now : BitVec 64)
  /-- About to look at the first of these items, or to store `false` when there is none. -/
  | deliver (items : List (TimerItem Q F))
  /-- `lock` has returned the owner of the item: about to call its `Push`. -/
  | push (item : TimerItem Q F) (items : List (TimerItem Q F))
  /-- `Push` has done its `fetch_add`: about to do `_jobs.Push`. -/
  | inPush (item : TimerItem Q F) (items : List (TimerItem Q F))
  deriving DecidableEq, Repr

def TimerPc.isIdle : TimerPc Q F → Bool
  | .idle => true
  | _ => false

/-- The timer and the queues, the clock, and the history: what the `Reserve` calls were for, and the items as they came
into `_items`, as they were popped and as they were delivered. -/
structure TimerState (Heap Tid Q F : Type) where
  items : Heap
  distributing : Bool
  timers : Tid → TimerPc Q F
  queues : JobState Tid Q (Job Q F)
  clock : BitVec 64
  refs : Q → Nat
  calls : List (JobData Q F)
  reserved : List (TimerItem Q F)
  popped : List (TimerItem Q F)
  delivered : List (Delivery Q F)

inductive TimerAct (Tid Q F : Type)
  /-- A thread outside the timer steps on the queues. -/
  | queue (a : JobAct Tid Q (Job Q F))
  /-- Code outside the queues, or a running job, calls `Reserve`, which reads the clock. -/
  | reserve (t : Tid) (tickAfter : BitVec 64) (owner : Q) (job : Job Q F)
  /-- It calls `Distribute`, which does its exchange. -/
  | distribute (t : Tid) (now : BitVec 64)
  /-- A thread inside the timer takes its next step. -/
  | next (t : Tid)
  /-- A thread inside the `Push` of `Distribute` takes its next step. -/
  | pushNext (t : Tid) (timeout : Bool)
  | tick (clock : BitVec 64)
  /-- What holds the queue outside the timer comes to be `n`. -/
  | hold (q : Q) (n : Nat)

def thread {J : Type} : JobAct Tid Q J → Tid
  | .push t _ _ _ | .pop t | .next t _ | .finish t => t

/-- The data of the items a thread has in its hands. -/
def TimerPc.entries : TimerPc Q F → List (JobData Q F)
  | .idle | .collect _ => []
  | .reserve _ jobData => [jobData]
  | .deliver items => items.map TimerItem.jobData
  | .push item items | .inPush item items => (item :: items).map TimerItem.jobData

variable [DecidableEq Q]

/-- The `owner` that `Distribute` holds while it pushes. -/
def TimerPc.locked (q : Q) : TimerPc Q F → Nat
  | .push item _ | .inPush item _ => if item.jobData.owner = q then 1 else 0
  | _ => 0

def JobData.holds (q : Q) (jobData : JobData Q F) : Nat := jobData.job.captures.count q

def TimerPc.holds (q : Q) (pc : TimerPc Q F) : Nat := pc.locked q + (pc.entries.map (JobData.holds q)).sum

variable (PQ : PriorityQueue Heap (TimerItem Q F) TimerItem.lt) [Fintype Tid]

/-- What holds a queue, in the timer and outside. -/
def strong (s : TimerState Heap Tid Q F) (q : Q) : Nat :=
  s.refs q + ((PQ.items s.items).map (fun item => item.jobData.holds q)).sum + tally (TimerPc.holds q) s.timers

variable [DecidableEq Tid]

/-- The next step of thread `t` inside `Reserve` or `Distribute`. -/
def timerNext (s : TimerState Heap Tid Q F) (t : Tid) : Option (TimerState Heap Tid Q F) :=
  match s.timers t with
  | .idle => none
  | .reserve executeTick jobData =>
    let item := ⟨executeTick, jobData, s.reserved.length⟩
    some { s with
      items := PQ.push s.items item, reserved := s.reserved ++ [item], timers := update s.timers t .idle }
  | .collect now =>
    -- the loop stops at an item with `now < executeTick`
    let due := PQ.takeOut (fun item => !decide (now < item.executeTick)) s.items
    some { s with items := due.2, popped := s.popped ++ due.1, timers := update s.timers t (.deliver due.1) }
  | .deliver [] =>
    if (s.queues.threads t).free = true then
      some { s with distributing := false, timers := update s.timers t .idle }
    else none
  | .deliver (item :: items) =>
    if (s.queues.threads t).free = true then
      if 0 < strong PQ s item.jobData.owner then some { s with timers := update s.timers t (.push item items) }
      else some { s with
        delivered := s.delivered ++ [⟨item, none⟩], timers := update s.timers t (.deliver items) }
    else none
  | .push item items =>
    (jobStep s.queues (.push t item.jobData.owner (some item.jobData.job) true)).map (fun queues =>
      { s with queues := queues, timers := update s.timers t (.inPush item items) })
  | .inPush _ _ => none

/-- The next step of thread `t` inside the `Push` of `Distribute`; what the job has captured is held by the queue once
it is in `_jobs`. -/
def timerPushNext (s : TimerState Heap Tid Q F) (t : Tid) (timeout : Bool) : Option (TimerState Heap Tid Q F) :=
  match s.timers t with
  | .inPush item items =>
    (jobNext s.queues t timeout).map (fun queues =>
      { s with
        queues := queues, timers := update s.timers t (.deliver items),
        refs := fun q => s.refs q + item.jobData.holds q,
        delivered := s.delivered ++ [⟨item, some s.clock⟩] })
  | .deliver _ => (jobNext s.queues t timeout).map (fun queues => { s with queues := queues })
  | .idle | .reserve _ _ | .collect _ | .push _ _ => none

def timerStep (s : TimerState Heap Tid Q F) : TimerAct Tid Q F → Option (TimerState Heap Tid Q F)
  | .queue a =>
    if (s.timers (thread a)).isIdle = true then (jobStep s.queues a).map (fun queues => { s with queues := queues })
    else none
  | .reserve t tickAfter owner job =>
    -- a closure captures what is alive
    if (s.timers t).isIdle = true ∧ (s.queues.threads t).free = true ∧ ∀ q ∈ job.captures, 0 < strong PQ s q then
      let jobData := ⟨owner, job, s.clock, tickAfter⟩
      some { s with
        timers := update s.timers t (.reserve (s.clock + tickAfter) jobData), calls := s.calls ++ [jobData] }
    else none
  | .distribute t now =>
    if (s.timers t).isIdle = true ∧ (s.queues.threads t).free = true then
      if s.distributing = true then some s
      else some { s with distributing := true, timers := update s.timers t (.collect now) }
    else none
  | .next t => timerNext PQ s t
  | .pushNext t timeout => timerPushNext s t timeout
  | .tick clock => if s.clock.toNat ≤ clock.toNat then some { s with clock := clock } else none
  | .hold q n => if n = 0 ∨ 0 < strong PQ s q then some { s with refs := update s.refs q n } else none

/-- At first there is one thing that holds each queue. -/
def timerState₀ : TimerState Heap Tid Q F :=
  ⟨PQ.empty, false, fun _ => .idle, jobState₀, 0, fun _ => 1, [], [], [], []⟩

/-! ## Sorted lists of items -/

def TimerItem.le (item other : TimerItem Q F) : Prop := item.executeTick.toNat ≤ other.executeTick.toNat

instance : DecidableRel (TimerItem.le : TimerItem Q F → TimerItem Q F → Prop) :=
  fun _ _ => inferInstanceAs (Decidable (_ ≤ _))

instance : Std.Total (TimerItem.le : TimerItem Q F → TimerItem Q F → Prop) := ⟨fun _ _ => Nat.le_total _ _⟩

instance : IsTrans (TimerItem Q F) TimerItem.le := ⟨fun _ _ _ => Nat.le_trans⟩

omit [DecidableEq Q] in
theorem TimerItem.not_lt_of_le (item other : TimerItem Q F) (h : item.le other) : ¬ item.lt other := by
  unfold TimerItem.le at h
  simp only [TimerItem.lt, gt_iff_lt, BitVec.lt_def]
  omega

/-- `priority_queue<TimerItem>` as a list, the item that is due first in front. -/
def sortedItems (Q F : Type) :
    PriorityQueue {items : List (TimerItem Q F) // items.Pairwise TimerItem.le} (TimerItem Q F) TimerItem.lt :=
  .sorted TimerItem.le TimerItem.not_lt_of_le

end JobTimer
end Geon
