import GeonServer.Lts
import GeonServer.Winsock
/-!
# SendPath — a session's sends

`Session::Send`, `RegisterSend`, `ProcessSend` and `Disconnect` of ServerCore/Session.cpp on one session, from its
`ProcessConnect` on, run by any number of threads.  A step is one atomic operation or one `WRITE_LOCK` section with
the plain reads and writes next to it, except that the section in which `ProcessSend` calls `RegisterSend` is taken
apart: `lock` says which thread is inside it.

`_sendRegistered` hands a token around: who sets it is in `RegisterSend` until the send is outstanding, and the
thread that takes the completion has it next (`SendWhere`).  The invariant says where the token is, and what the
queue, the event and the history are while it is there.
-/
namespace Geon

open Lts Function

/-! ## The code -/

/-- `SendEvent`: whether `owner` keeps the session alive, and the buffers of the send. -/
structure SendEvent (Buf : Type*) where
  owner : Bool
  sendBuffers : List Buf
  deriving DecidableEq, Repr

/-- Where a thread is in the sending code.  `locked`: this `RegisterSend` was called by `ProcessSend`, which has the
lock. -/
inductive SendPc (Buf : Type*)
  | idle
  /-- `Send` has seen the session connected: about to enter its `WRITE_LOCK` section. -/
  | sendPush (sendBuffer : Buf)
  /-- `RegisterSend` is about to read `_connected`. -/
  | registerCheck (locked : Bool)
  /-- About to move `_sendQueue` into the event. -/
  | registerDrain (locked : Bool)
  /-- About to call `WSASend`. -/
  | registerPost (locked : Bool)
  /-- `WSASend` has failed: about to call `HandleError`. -/
  | registerError (locked : Bool) (errorCode : Nat)
  /-- About to clear the event and store `false` into `_sendRegistered`. -/
  | registerReset (locked : Bool)
  /-- `ProcessSend` is about to clear the event. -/
  | processClear (numOfBytes : Nat)
  /-- About to look at `numOfBytes`, and to disconnect if it is 0. -/
  | processCheck (numOfBytes : Nat)
  /-- About to take the lock. -/
  | processLock
  /-- It has the lock: about to look at `_sendQueue`. -/
  | processEmpty
  /-- About to let go of the lock. -/
  | processUnlock
  deriving DecidableEq, Repr

def SendPc.isIdle {Buf : Type*} : SendPc Buf → Bool
  | .idle => true
  | _ => false

/-- What sending reads and writes of a `Session`, the sends the system has not completed yet, and the history:
`pushed` in the order of `_sendQueue.push`, the batches `posted` by a `WSASend` that did not fail, and those dropped
after one that did. -/
structure SendState (Tid Buf : Type*) where
  connected : Bool
  lock : Option Tid
  sendQueue : List Buf
  sendRegistered : Bool
  sendEvent : SendEvent Buf
  outstanding : List (List Buf)
  pcs : Tid → SendPc Buf
  pushed : List Buf
  posted : List (List Buf)
  dropped : List (List Buf)

variable {Tid Buf : Type*} [DecidableEq Tid]

/-- The loop of `RegisterSend` that moves the queue into `sendBuffers`. -/
def drain : List Buf → List Buf → List Buf
  | sendBuffers, [] => sendBuffers
  | sendBuffers, sendBuffer :: sendQueue => drain (sendBuffers ++ [sendBuffer]) sendQueue

theorem drain_eq : ∀ sendQueue sendBuffers : List Buf, drain sendBuffers sendQueue = sendBuffers ++ sendQueue
  | [], sendBuffers => by simp [drain]
  | b :: q, sendBuffers => by simp [drain, drain_eq q]

namespace SendState

def goto (s : SendState Tid Buf) (t : Tid) (pc : SendPc Buf) : SendState Tid Buf :=
  { s with pcs := update s.pcs t pc }

/-- Thread `t` returns from `RegisterSend` to its caller. -/
def leave (s : SendState Tid Buf) (t : Tid) (locked : Bool) : SendState Tid Buf :=
  s.goto t (if locked = true then .processUnlock else .idle)

/-- The next step of thread `t` inside `Send`, `RegisterSend` or `ProcessSend`; `wsaSend` is what `WSASend` answers
where it is called. -/
def next (s : SendState Tid Buf) (t : Tid) (wsaSend : WsaResult) : Option (SendState Tid Buf) :=
  match s.pcs t with
  | .idle => none
  | .sendPush sendBuffer =>
    if s.lock = none then
      let s' := { s with
        sendQueue := s.sendQueue ++ [sendBuffer], sendRegistered := true, pushed := s.pushed ++ [sendBuffer] }
      some (if s.sendRegistered = false then s'.goto t (.registerCheck false) else s'.goto t .idle)
    else none
  | .registerCheck locked =>
    if s.connected = false then some (s.leave t locked)
    else some ({ s with sendEvent := { s.sendEvent with owner := true } }.goto t (.registerDrain locked))
  | .registerDrain locked =>
    if locked = true ∨ s.lock = none then
      some ({ s with
        sendQueue := [], sendEvent := { s.sendEvent with sendBuffers := drain s.sendEvent.sendBuffers s.sendQueue }
        }.goto t (.registerPost locked))
    else none
  | .registerPost locked =>
    match wsaSend.failed with
    | none => some ({ s with
        outstanding := s.outstanding ++ [s.sendEvent.sendBuffers], posted := s.posted ++ [s.sendEvent.sendBuffers]
        }.leave t locked)
    | some errorCode => some (s.goto t (.registerError locked errorCode))
  | .registerError locked errorCode =>
    match handleError errorCode with
    | some _ => some ({ s with connected := false }.goto t (.registerReset locked))
    | none => some (s.goto t (.registerReset locked))
  | .registerReset locked =>
    some ({ s with
      sendEvent := ⟨false, []⟩, sendRegistered := false, dropped := s.dropped ++ [s.sendEvent.sendBuffers]
      }.leave t locked)
  | .processClear numOfBytes => some ({ s with sendEvent := ⟨false, []⟩ }.goto t (.processCheck numOfBytes))
  | .processCheck numOfBytes =>
    if numOfBytes = 0 then some ({ s with connected := false }.goto t .idle) else some (s.goto t .processLock)
  | .processLock => if s.lock = none then some ({ s with lock := some t }.goto t .processEmpty) else none
  | .processEmpty =>
    match s.sendQueue with
    | [] => some ({ s with sendRegistered := false }.goto t .processUnlock)
    | _ :: _ => some (s.goto t (.registerCheck true))
  | .processUnlock => some ({ s with lock := none }.goto t .idle)

end SendState

inductive SendAct (Tid Buf : Type*)
  /-- A thread calls `Send`, which reads `_connected`. -/
  | send (t : Tid) (sendBuffer : Buf)
  /-- A thread inside the sending code takes its next step. -/
  | next (t : Tid) (wsaSend : WsaResult)
  /-- A thread takes a completion from the port and enters `ProcessSend`. -/
  | complete (t : Tid) (i numOfBytes : Nat)
  /-- Some thread calls `Disconnect`. -/
  | disconnect

def sendStep (s : SendState Tid Buf) : SendAct Tid Buf → Option (SendState Tid Buf)
  | .send t sendBuffer =>
    match s.pcs t with
    | .idle => some (if s.connected = false then s else s.goto t (.sendPush sendBuffer))
    | _ => none
  | .next t wsaSend => s.next t wsaSend
  | .complete t i numOfBytes =>
    match s.pcs t with
    | .idle => if i < s.outstanding.length then
        some ({ s with outstanding := s.outstanding.eraseIdx i }.goto t (.processClear numOfBytes)) else none
    | _ => none
  | .disconnect => some { s with connected := false }

/-- Sending does not connect a session again. -/
theorem sendStep_connected {s s' : SendState Tid Buf} {act : SendAct Tid Buf} (he : sendStep s act = some s')
    (hc : s'.connected = true) : s.connected = true := by
  cases act with
  | next t wsaSend =>
    simp only [sendStep, SendState.next] at he
    cases hpc : s.pcs t <;> simp only [hpc] at he
    case idle => cases he
    case registerReset | processClear | processUnlock =>
      cases he
      exact hc
    all_goals
      split at he <;> cases he
      all_goals first
        | exact hc
        | cases hc
        | (split at hc <;> exact hc)
  | disconnect =>
    cases he
    cases hc
  | send t sendBuffer =>
    simp only [sendStep] at he
    split at he <;> cases he
    split at hc
    · exact hc
    · exact hc
  | complete t i numOfBytes =>
    simp only [sendStep] at he
    split at he
    · split at he <;> cases he
      exact hc
    · cases he

def sendState₀ : SendState Tid Buf := ⟨true, none, [], false, ⟨false, []⟩, [], fun _ => .idle, [], [], []⟩

end Geon
