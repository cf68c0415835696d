import GeonServer.LockOrder
/-!
# ServerLocks — what the server does with its locks

Every function of ServerCore and Server that takes a `Lock`, as the scopes of its `WRITE_LOCK`s: which lock, and what
else is locked inside.  A lock is named by its class, as `typeid(this).name()` names it.  What a function does depends on
data (whether a session is connected, whether `WSASend` fails, how many send buffer chunks lose their last reference
where a list of send buffers or jobs is destroyed); these are its arguments here, and everything is proved for all of
them.

A service or the session manager broadcasts with its own lock held and takes the locks of its sessions one after the
other; a batch or a queue that is destroyed under a lock gives chunks back to the `SendBufferManager`.  Nothing is ever
locked the other way round (`ServerCall.fits`), so nobody waits forever (`server_deadlock_free`), and the profiler of a
`_DEBUG` build has nothing to report (`profiler_silent`).
-/
namespace Geon

open Lts Function RwLock

/-- The classes that have a `Lock`. -/
inductive LockClass
  | service
  | gameSessionManager
  | session
  /-- `LockQueue<JobRef>`, the queue of a `JobQueue`. -/
  | jobs
  /-- `LockQueue<JobQueueRef>`, the queue of the `GlobalQueue`. -/
  | jobQueues
  | jobTimer
  | sendBufferManager
  | dbConnectionPool
  deriving DecidableEq, Repr

/-- A lock: its class, and which object of the class. -/
structure ServerLock where
  cls : LockClass
  object : Nat
  deriving DecidableEq, Repr

/-- The order the server takes its locks in, by class. -/
def LockClass.rank : LockClass → Nat
  | .service | .gameSessionManager | .jobs | .jobQueues | .jobTimer | .dbConnectionPool => 0
  | .session => 1
  | .sendBufferManager => 2

def ServerLock.rank (k : ServerLock) : Nat := k.cls.rank

abbrev Program := List (Act ServerLock)

/-! ## The functions -/

/-- `SendBufferManager::Pop`, and `Push`, which is called where the last reference to a chunk goes. -/
def Program.sendBufferManager : Program := scope ⟨.sendBufferManager, 0⟩ []

/-- Send buffers or jobs are destroyed, and with them the last references to this many chunks. -/
def Program.pushGlobal (chunks : Nat) : Program := (List.replicate chunks Program.sendBufferManager).flatten

/-- What `Session::RegisterSend` finds: whether the session is connected, and how many chunks go when `WSASend` fails and
`sendBuffers` is cleared. -/
structure RegisterSend where
  connected : Bool
  failed : Bool
  chunks : Nat

def Program.registerSend (session : Nat) (r : RegisterSend) : Program :=
  if r.connected = false then []
  else scope ⟨.session, session⟩ [] ++ if r.failed then Program.pushGlobal r.chunks else []

/-- A call of `Session::Send`: whether the session is connected, and whether this one is to register the send. -/
structure SendCall where
  session : Nat
  connected : Bool
  first : Bool
  register : RegisterSend

def SendCall.program (c : SendCall) : Program :=
  if c.connected = false then []
  else scope ⟨.session, c.session⟩ [] ++ if c.first then Program.registerSend c.session c.register else []

/-- `Session::ProcessSend`: the chunks of the batch that was sent, and then, unless nothing was, the queue. -/
def Program.processSend (session chunks : Nat) (numOfBytes : Nat) (empty : Bool) (r : RegisterSend) : Program :=
  Program.pushGlobal chunks ++
    if numOfBytes = 0 then []
    else scope ⟨.session, session⟩ (if empty then [] else Program.registerSend session r)

/-- `LockQueue::PopAll`: the pops it makes with its own lock held, the last of which finds the queue empty. -/
def Program.popAll (k : ServerLock) (items : Nat) : Program := scope k (List.replicate (items + 1) (scope k [])).flatten

/-- A call into the server that takes locks. -/
inductive ServerCall
  | send (c : SendCall)
  | processSend (session chunks : Nat) (numOfBytes : Nat) (empty : Bool) (r : RegisterSend)
  /-- `Service::Broadcast`, with what each `Send` does. -/
  | broadcast (service : Nat) (sends : List SendCall)
  /-- `Service::AddSession` or `ReleaseSession`. -/
  | member (service : Nat)
  /-- `GameSessionManager::Broadcast`. -/
  | gameBroadcast (sends : List SendCall)
  /-- `GameSessionManager::Add` or `Remove`. -/
  | gameSession
  /-- `SendBufferManager::Open`: the pops, each of which may let go of a chunk. -/
  | openSendBuffer (pops : List Bool)
  /-- A list of send buffers or jobs is destroyed with no lock held. -/
  | destroy (chunks : Nat)
  /-- `LockQueue::Push` or `Pop` of a job queue or of the global queue. -/
  | queue (k : ServerLock) (hk : k.cls = .jobs ∨ k.cls = .jobQueues)
  /-- `JobQueue::Execute` takes the jobs. -/
  | execute (jobQueue items : Nat)
  /-- `JobQueue::ClearJobs`: the jobs are destroyed with the lock held. -/
  | clearJobs (jobQueue chunks : Nat)
  /-- `JobTimer::Reserve`, or the part of `Distribute` that takes the items. -/
  | timer
  /-- `JobTimer::Clear`: the jobs are destroyed with the lock held. -/
  | clearTimer (chunks : Nat)
  /-- `DBConnectionPool::Connect`, `Clear`, `Pop` or `Push`. -/
  | connectionPool

def ServerCall.program : ServerCall → Program
  | .send c => c.program
  | .processSend session chunks numOfBytes empty r => Program.processSend session chunks numOfBytes empty r
  | .broadcast service sends => scope ⟨.service, service⟩ (sends.map SendCall.program).flatten
  | .member service => scope ⟨.service, service⟩ []
  | .gameBroadcast sends => scope ⟨.gameSessionManager, 0⟩ (sends.map SendCall.program).flatten
  | .gameSession => scope ⟨.gameSessionManager, 0⟩ []
  | .openSendBuffer pops => (pops.map (fun last => Program.sendBufferManager ++ Program.pushGlobal last.toNat)).flatten
  | .destroy chunks => Program.pushGlobal chunks
  | .queue k _ => scope k []
  | .execute jobQueue items => Program.popAll ⟨.jobs, jobQueue⟩ items
  | .clearJobs jobQueue chunks => scope ⟨.jobs, jobQueue⟩ (Program.pushGlobal chunks)
  | .timer => scope ⟨.jobTimer, 0⟩ []
  | .clearTimer chunks => scope ⟨.jobTimer, 0⟩ (Program.pushGlobal chunks)
  | .connectionPool => scope ⟨.dbConnectionPool, 0⟩ []

/-! ## The order -/

variable {held : List (ServerLock × Mode)}

theorem fits_sendBufferManager (h : Below ServerLock.rank 2 held) : Fits ServerLock.rank held Program.sendBufferManager :=
  Below.scope (k := (⟨.sendBufferManager, 0⟩ : ServerLock)) h .nil

theorem fits_pushGlobal (h : Below ServerLock.rank 2 held) (chunks : Nat) :
    Fits ServerLock.rank held (Program.pushGlobal chunks) :=
  .flatten (fun p hp => by
    rw [List.eq_of_mem_replicate hp]
    exact fits_sendBufferManager h)

/-- `RegisterSend` with nothing of the session's rank held, or with the session's own lock taken last. -/
theorem fits_registerSend (session : Nat) (r : RegisterSend) (h : Below ServerLock.rank 2 held)
    (hscope : Fits ServerLock.rank held (scope ⟨.session, session⟩ [])) :
    Fits ServerLock.rank held (Program.registerSend session r) :=
  .ite .nil (hscope.append (.ite (fits_pushGlobal h r.chunks) .nil))

theorem SendCall.fits (c : SendCall) (h : Below ServerLock.rank 1 held) : Fits ServerLock.rank held c.program := by
  have hscope : Fits ServerLock.rank held (scope ⟨.session, c.session⟩ []) :=
    Below.scope (k := (⟨.session, c.session⟩ : ServerLock)) h .nil
  exact .ite .nil (hscope.append (.ite (fits_registerSend _ _ (h.mono (by decide)) hscope) .nil))

theorem fits_processSend (session chunks numOfBytes : Nat) (empty : Bool) (r : RegisterSend) :
    Fits ServerLock.rank [] (Program.processSend session chunks numOfBytes empty r) := by
  refine (fits_pushGlobal .nil chunks).append (.ite .nil (Below.scope (k := (⟨.session, session⟩ : ServerLock)) .nil (.ite .nil ?_)))
  -- the session's lock is held: `RegisterSend` takes it again
  exact fits_registerSend session r (Below.nil.cons Nat.one_lt_two) (Below.again .nil .nil)

theorem fits_popAll (k : ServerLock) (items : Nat) : Fits ServerLock.rank [] (Program.popAll k items) := by
  refine Below.scope .nil (.flatten (fun p hp => ?_))
  rw [List.eq_of_mem_replicate hp]
  exact Below.again .nil .nil

theorem fits_sends (sends : List SendCall) (h : Below ServerLock.rank 1 held) :
    Fits ServerLock.rank held (sends.map SendCall.program).flatten := by
  refine .flatten (fun p hp => ?_)
  obtain ⟨c, -, rfl⟩ := List.mem_map.1 hp
  exact c.fits h

/-- What is destroyed under a lock of the first rank or the second gives its chunks back. -/
theorem fits_clear (k : ServerLock) (hk : k.rank < 2) (chunks : Nat) :
    Fits ServerLock.rank [] (scope k (Program.pushGlobal chunks)) :=
  Below.scope .nil (fits_pushGlobal (Below.nil.cons hk) chunks)

/-- **Every call takes its locks in order**, whatever its data. -/
theorem ServerCall.fits (c : ServerCall) : Fits ServerLock.rank [] c.program := by
  cases c with
  | send c => exact c.fits .nil
  | processSend session chunks numOfBytes empty r => exact fits_processSend session chunks numOfBytes empty r
  | broadcast service sends => exact Below.scope .nil (fits_sends sends (Below.nil.cons Nat.zero_lt_one))
  | member service => exact Below.scope .nil .nil
  | gameBroadcast sends => exact Below.scope .nil (fits_sends sends (Below.nil.cons Nat.zero_lt_one))
  | gameSession => exact Below.scope .nil .nil
  | openSendBuffer pops =>
    refine .flatten (fun p hp => ?_)
    obtain ⟨last, -, rfl⟩ := List.mem_map.1 hp
    exact (fits_sendBufferManager .nil).append (fits_pushGlobal .nil _)
  | destroy chunks => exact fits_pushGlobal .nil chunks
  | queue k hk => exact Below.scope .nil .nil
  | execute jobQueue items => exact fits_popAll _ items
  | clearJobs jobQueue chunks => exact fits_clear ⟨.jobs, jobQueue⟩ Nat.zero_lt_two chunks
  | timer => exact Below.scope .nil .nil
  | clearTimer chunks => exact fits_clear ⟨.jobTimer, 0⟩ Nat.zero_lt_two chunks
  | connectionPool => exact Below.scope .nil .nil

/-- What a thread does with the locks in a list of calls. -/
def serverProgram (calls : List ServerCall) : Program := (calls.map ServerCall.program).flatten

theorem ordered_serverProgram (calls : List ServerCall) : Ordered ServerLock.rank [] (serverProgram calls) := by
  refine Fits.ordered (.flatten (fun p hp => ?_))
  obtain ⟨c, -, rfl⟩ := List.mem_map.1 hp
  exact c.fits

variable {Tid : Type} [DecidableEq Tid] [Fintype Tid]

/-- Threads that are about to make these calls. -/
def serverParties (calls : Tid → List ServerCall) (t : Tid) : Party ServerLock := ⟨[], serverProgram (calls t)⟩

/-- **The server's locks do not deadlock.**  Any number of threads make any calls, and their steps are taken in any order
in which each lock is a re-entrant reader/writer lock: every run comes to an end, and it ends with every call made and
every lock given back. -/
theorem server_deadlock_free (calls : Tid → List ServerCall) :
    Ends partyStep Any (fun s => ∀ t, s t = ⟨[], []⟩) (serverParties calls) := by
  have horder : InOrder ServerLock.rank (serverParties calls) :=
    ⟨fun t => ordered_serverProgram (calls t), fun k t u hw => by cases hw⟩
  exact ordered_ends horder

end Geon
