import GeonServer.RecvRun
import GeonServer.SendOwner
/-!
# Service — sessions from `CreateSession` to their destructor

`Session`, `Service`, `Listener` and `IocpCore::Dispatch` of ServerCore, for any number of sessions of one service,
run by any number of threads.  The virtual functions of the sessions belong to the contents code, which is a parameter
(`Contents`); sending is the model of SendPath, receiving that of RecvBuffer and OnRecv taken apart into steps.

A step is one atomic operation, one call of the system or one `WRITE_LOCK` operation, with the plain reads and writes
next to it; it comes with what the system answers.  A session is named by the order of the `CreateSession` calls.
-/
namespace Geon

open Lts Function

/-! ## The data -/

/-- An event of a session: whether `owner` keeps the session alive, and its operations whose completions have not been
dequeued. -/
structure IocpEvent (Op : Type) where
  owner : Bool
  ops : List Op
  deriving DecidableEq, Repr

/-- What has happened in the life of a session: the calls of `ProcessConnect` and `ProcessDisconnect`, the insertions
into and erasures from `_sessions`, the returns of `OnConnected` and `OnDisconnected`, the `DisconnectEx` calls that
failed at once, and what came before `ProcessConnect`: a completion of `ConnectEx`, or `ProcessAccept`. -/
structure History where
  connects : Nat
  added : Nat
  greeted : Nat
  disconnects : Nat
  parted : Nat
  released : Nat
  lost : Nat
  connectOk : Nat
  connectFailed : Nat
  accepted : Nat
  deriving DecidableEq, Repr

/-- `Session`.  Its `_connected` and what it sends is `send`; `accepts` are the `AcceptEx` operations with the session
in their `acceptEvent->session`. -/
structure Session (Tid Buf : Type) where
  send : SendState Tid Buf
  recvBuffer : RecvBuffer
  connectEvent : IocpEvent Unit
  disconnectEvent : IocpEvent Unit
  recvEvent : IocpEvent PostedRecv
  accepts : List Unit
  history : History
  destroyed : Bool

def Session.new {Tid Buf : Type} : Session Tid Buf where
  send := { sendState₀ with connected := false }
  recvBuffer := RecvBuffer.new BUFFER_SIZE
  connectEvent := ⟨false, []⟩
  disconnectEvent := ⟨false, []⟩
  recvEvent := ⟨false, []⟩
  accepts := []
  history := ⟨0, 0, 0, 0, 0, 0, 0, 0, 0, 0⟩
  destroyed := false

/-- What a step of a virtual function comes to: it goes on, it calls `Session::Send` and goes on, or it returns. -/
inductive Outcome (State Prog Buf : Type)
  | goOn (contents : State) (prog : Prog)
  | send (contents : State) (b : Nat) (sendBuffer : Buf) (prog : Prog)
  | ret (contents : State)

/-- The contents code: what it keeps, and the virtual functions of its sessions as programs, whose steps are for the
session the function was called on.  Of the library they call `Session::Send` and nothing else.  `OnSend`, which does
nothing in either program, is left out.  A program that is stuck is undefined behaviour or a failed assertion of the
contents. -/
structure Contents (Buf : Type) where
  State : Type
  Prog : Type
  onConnected : Prog
  onDisconnected : Prog
  onRecvPacket : List BYTE → Nat → Prog
  step : State → Nat → Prog → Option (Outcome State Prog Buf)

/-- The virtual functions of `Session` itself, which do nothing. -/
def Session.contents (Buf : Type) : Contents Buf where
  State := Unit
  Prog := Unit
  onConnected := ()
  onDisconnected := ()
  onRecvPacket _ _ := ()
  step contents _ _ := some (.ret contents)

inductive ServiceType
  | Server
  | Client
  deriving DecidableEq, Repr

/-- Where a thread is in `Connect`. -/
inductive ConnectPc
  /-- `RegisterConnect` is about to read `_connected` and to bind the socket. -/
  | check
  /-- About to call `ConnectEx`. -/
  | post
  /-- It has failed: about to clear `owner`. -/
  | reset
  deriving DecidableEq, Repr

/-- Where a thread is in `ProcessConnect`. -/
inductive OpenPc (Prog : Type)
  /-- About to clear `_connectEvent.owner` and to set `_connected`. -/
  | store
  /-- `AddSession` is about to take the lock and to count the session. -/
  | lock
  /-- About to insert it and to let go of the lock. -/
  | insert
  /-- In `OnConnected`. -/
  | onConnected (prog : Prog)

/-- Where a thread is in `RegisterRecv`. -/
inductive RecvPc
  /-- About to read `_connected`. -/
  | check
  /-- About to call `WSARecv`. -/
  | post
  /-- It has failed: about to call `HandleError`. -/
  | error (errCode : Nat)
  /-- About to clear `owner`. -/
  | reset
  deriving DecidableEq, Repr

/-- Where a thread is in `ProcessRecv`. -/
inductive ReadPc (Prog : Type)
  /-- About to clear `_recvEvent.owner`. -/
  | clear (numOfBytes : Nat)
  /-- About to look at `numOfBytes`. -/
  | check (numOfBytes : Nat)
  /-- In the loop of `PacketSession::OnRecv`. -/
  | loop (processLen : Nat)
  /-- In `OnRecvPacket`, from which the loop goes on at `processLen`. -/
  | packet (processLen : Nat) (prog : Prog)

/-- Where a thread is in `ProcessDisconnect`. -/
inductive PartPc (Prog : Type)
  /-- About to clear `_disconnectEvent.owner`. -/
  | clear
  /-- In `OnDisconnected`. -/
  | onDisconnected (prog : Prog)
  /-- `ReleaseSession` is about to take the lock and to erase the session. -/
  | release
  /-- About to uncount it and to let go of the lock. -/
  | uncount

/-- Where a thread is in `RegisterDisconnect`. -/
inductive ClosePc
  /-- `Disconnect` has cleared `_connected`: about to set `owner`. -/
  | register
  /-- About to call `DisconnectEx`. -/
  | post
  /-- It has failed: about to clear `owner`. -/
  | reset
  deriving DecidableEq, Repr

/-- What a thread does, the session it is about first.  `accepted`: the caller is `Listener::ProcessAccept`. -/
inductive Task (Prog Buf : Type)
  | idle
  | registerConnect (a : Nat) (pc : ConnectPc)
  /-- `RegisterAccept` is about to call `CreateSession`. -/
  | registerAccept
  /-- `RegisterAccept` is about to call `AcceptEx`. -/
  | acceptEx (a : Nat)
  /-- `ProcessAccept` is about to look at the accepted socket. -/
  | processAccept (a : Nat)
  | processConnect (a : Nat) (accepted : Bool) (pc : OpenPc Prog)
  | registerRecv (a : Nat) (accepted : Bool) (pc : RecvPc)
  | processRecv (a : Nat) (pc : ReadPc Prog)
  | processDisconnect (a : Nat) (pc : PartPc Prog)
  /-- In the loop of `Service::Broadcast`, with these sessions to come. -/
  | broadcast (sendBuffer : Buf) (sessions : List Nat)

/-- A thread: its task, the session whose `Send` or `ProcessSend` it is inside, and the session it is disconnecting,
the innermost last. -/
structure ServiceWorker (Prog Buf : Type) where
  task : Task Prog Buf
  sending : Option Nat
  closing : Option (Nat × ClosePc)

inductive Crash
  /-- The assertion of `ReleaseSession`. -/
  | releaseSession
  /-- `IocpCore::Dispatch` has called through a null owner. -/
  | nullOwner
  deriving DecidableEq, Repr

/-- The service.  `session` are the objects, `sessions` is the set `_sessions`, `lock` the thread that has the write
lock of the service. -/
structure ServiceState (Tid : Type) {Buf : Type} (K : Contents Buf) where
  session : Nat → Session Tid Buf
  numSessions : Nat
  sessions : Finset Nat
  sessionCount : BitVec 32
  lock : Option Tid
  workers : Tid → ServiceWorker K.Prog Buf
  contents : K.State
  crashed : Option Crash

/-- What the system answers: an overlapped call, and whether the socket calls next to it succeed. -/
structure Answer where
  wsa : WsaResult
  ok : Bool
  deriving DecidableEq, Repr

/-- Every call succeeds. -/
def Answer.success : Answer := ⟨.success, true⟩

variable {Tid Buf : Type} {K : Contents Buf} [DecidableEq Tid]

namespace ServiceState

def setSession (s : ServiceState Tid K) (a : Nat) (session : Session Tid Buf) : ServiceState Tid K :=
  { s with session := update s.session a session }

def setWorker (s : ServiceState Tid K) (t : Tid) (w : ServiceWorker K.Prog Buf) : ServiceState Tid K :=
  { s with workers := update s.workers t w }

/-- Thread `t`, which is at its task, goes on with this one. -/
def goto (s : ServiceState Tid K) (t : Tid) (task : Task K.Prog Buf) : ServiceState Tid K :=
  s.setWorker t ⟨task, none, none⟩

/-! ## `Disconnect` -/

/-- `Session::Disconnect`; thread `t` goes on as `w` after it. -/
def disconnect (s : ServiceState Tid K) (t : Tid) (a : Nat) (w : ServiceWorker K.Prog Buf) : ServiceState Tid K :=
  let session := s.session a
  if session.send.connected = false then s.setWorker t w
  else (s.setSession a { session with send := { session.send with connected := false } }).setWorker t
    { w with closing := some (a, .register) }

/-- The next step of thread `t` inside `RegisterDisconnect`. -/
def closeNext (s : ServiceState Tid K) (t : Tid) (a : Nat) (answer : Answer) : ClosePc → ServiceState Tid K
  | .register =>
    (s.setSession a { s.session a with disconnectEvent := { (s.session a).disconnectEvent with owner := true } }
      ).setWorker t { s.workers t with closing := some (a, .post) }
  | .post =>
    match answer.wsa.failed with
    | none => (s.setSession a { s.session a with
        disconnectEvent := { (s.session a).disconnectEvent with ops := () :: (s.session a).disconnectEvent.ops }
        }).setWorker t { s.workers t with closing := none }
    | some _ => s.setWorker t { s.workers t with closing := some (a, .reset) }
  | .reset =>
    (s.setSession a { s.session a with
      disconnectEvent := { (s.session a).disconnectEvent with owner := false },
      history := { (s.session a).history with lost := (s.session a).history.lost + 1 } }).setWorker t
      { s.workers t with closing := none }

/-! ## `Send` and `ProcessSend` -/

/-- Thread `t`, whose task is `task`, has made a step in the sending code of session `a`; a step that clears
`_connected` is inside `Disconnect`. -/
def setSend (s : ServiceState Tid K) (t : Tid) (a : Nat) (task : Task K.Prog Buf) (send : SendState Tid Buf) :
    ServiceState Tid K :=
  (s.setSession a { s.session a with send := send }).setWorker t
    ⟨task, if (send.pcs t).isIdle = true then none else some a,
      if (s.session a).send.connected = true ∧ send.connected = false then some (a, .register) else none⟩

/-- Thread `t` calls `Session::Send` and goes on with `task` after it. -/
def callSend (s : ServiceState Tid K) (t : Tid) (b : Nat) (sendBuffer : Buf) (task : Task K.Prog Buf) :
    Option (ServiceState Tid K) :=
  (sendStep (s.session b).send (.send t sendBuffer)).map (s.setSend t b task)

/-- The contents code knows the session: it has been added, and a reference to it is left. -/
def known (s : ServiceState Tid K) (b : Nat) : Prop :=
  0 < (s.session b).history.added ∧ (s.session b).destroyed = false

instance (s : ServiceState Tid K) (b : Nat) : Decidable (s.known b) := inferInstanceAs (Decidable (_ ∧ _))

/-! ## The contents code -/

/-- Thread `t` takes a step in a virtual function of session `a`, at `prog`.  It is `inside` the function, and `after`
it when it has returned, which the history has a `note` of. -/
def callback (s : ServiceState Tid K) (t : Tid) (a : Nat) (prog : K.Prog) (inside : K.Prog → Task K.Prog Buf)
    (after : Task K.Prog Buf) (note : History → History) : Option (ServiceState Tid K) :=
  match K.step s.contents a prog with
  | none => none
  | some (.goOn contents prog') => some ({ s with contents := contents }.goto t (inside prog'))
  | some (.send contents b sendBuffer prog') =>
    if s.known b then { s with contents := contents }.callSend t b sendBuffer (inside prog') else none
  | some (.ret contents) =>
    some (({ s with contents := contents }.setSession a
      { s.session a with history := note (s.session a).history }).goto t after)

/-! ## `Connect` and accepting -/

/-- `CreateSession`, by thread `t`, which goes on with `task` for the session. -/
def createSession (s : ServiceState Tid K) (t : Tid) (task : Nat → Task K.Prog Buf) : ServiceState Tid K :=
  { s.setSession s.numSessions .new with numSessions := s.numSessions + 1 }.goto t (task s.numSessions)

/-- The next step of thread `t` inside `RegisterConnect`; for the socket calls `answer.ok` says whether they succeed. -/
def connectNext (type : ServiceType) (s : ServiceState Tid K) (t : Tid) (a : Nat) (answer : Answer) :
    ConnectPc → ServiceState Tid K
  | .check =>
    if (s.session a).send.connected = true then s.goto t .idle
    else if type ≠ .Client then s.goto t .idle
    else if answer.ok = false then s.goto t .idle
    else (s.setSession a { s.session a with connectEvent := { (s.session a).connectEvent with owner := true } }).goto t
      (.registerConnect a .post)
  | .post =>
    match answer.wsa.failed with
    | none => (s.setSession a { s.session a with
        connectEvent := { (s.session a).connectEvent with ops := () :: (s.session a).connectEvent.ops } }).goto t .idle
    | some _ => s.goto t (.registerConnect a .reset)
  | .reset =>
    (s.setSession a { s.session a with connectEvent := { (s.session a).connectEvent with owner := false } }).goto t .idle

/-- `RegisterAccept` calls `AcceptEx`; when that fails it starts again, with another session. -/
def acceptExNext (s : ServiceState Tid K) (t : Tid) (a : Nat) (answer : Answer) : ServiceState Tid K :=
  match answer.wsa.failed with
  | none => (s.setSession a { s.session a with accepts := () :: (s.session a).accepts }).goto t .idle
  | some _ => s.goto t .registerAccept

/-- `ProcessAccept` calls `SetUpdateAcceptSocket` and `getpeername`, and `ProcessConnect` if they succeed. -/
def acceptNext (s : ServiceState Tid K) (t : Tid) (a : Nat) (answer : Answer) : ServiceState Tid K :=
  let history := (s.session a).history
  if answer.ok = false then s.goto t .registerAccept
  else (s.setSession a { s.session a with
    history := { history with connects := history.connects + 1, accepted := history.accepted + 1 } }).goto t
    (.processConnect a true .store)

/-! ## `ProcessConnect` and `RegisterRecv` -/

/-- The next step of thread `t` inside `ProcessConnect`, up to the call of `RegisterRecv`. -/
def openNext (s : ServiceState Tid K) (t : Tid) (a : Nat) (accepted : Bool) :
    OpenPc K.Prog → Option (ServiceState Tid K)
  | .store =>
    let session := s.session a
    some ((s.setSession a { session with
      connectEvent := { session.connectEvent with owner := false },
      send := { session.send with connected := true } }).goto t (.processConnect a accepted .lock))
  | .lock =>
    if s.lock = none then
      some ({ s with lock := some t, sessionCount := s.sessionCount + 1 }.goto t (.processConnect a accepted .insert))
    else none
  | .insert =>
    let history := (s.session a).history
    some (({ s with lock := none, sessions := insert a s.sessions }.setSession a { s.session a with
      history := { history with added := history.added + 1 } }).goto t
      (.processConnect a accepted (.onConnected K.onConnected)))
  | .onConnected prog =>
    s.callback t a prog (fun prog => .processConnect a accepted (.onConnected prog)) (.registerRecv a accepted .check)
      (fun history => { history with greeted := history.greeted + 1 })

/-- What a thread does when `RegisterRecv` has returned: `ProcessAccept` goes on with the next session. -/
def afterRecv (accepted : Bool) : Task K.Prog Buf :=
  if accepted = true then .registerAccept else .idle

/-- The next step of thread `t` inside `RegisterRecv`. -/
def recvNext (s : ServiceState Tid K) (t : Tid) (a : Nat) (accepted : Bool) (answer : Answer) :
    RecvPc → ServiceState Tid K
  | .check =>
    if (s.session a).send.connected = false then s.goto t (afterRecv accepted)
    else (s.setSession a { s.session a with recvEvent := { (s.session a).recvEvent with owner := true } }).goto t
      (.registerRecv a accepted .post)
  | .post =>
    match answer.wsa.failed with
    | none =>
      let b := (s.session a).recvBuffer
      (s.setSession a { s.session a with
        recvEvent := { (s.session a).recvEvent with ops := (s.session a).recvEvent.ops ++ [⟨b.writePos, b.freeSize⟩] }
        }).goto t (afterRecv accepted)
    | some errCode => s.goto t (.registerRecv a accepted (.error errCode))
  | .error errCode =>
    match handleError errCode with
    | some _ => s.disconnect t a ⟨.registerRecv a accepted .reset, none, none⟩
    | none => s.goto t (.registerRecv a accepted .reset)
  | .reset =>
    (s.setSession a { s.session a with recvEvent := { (s.session a).recvEvent with owner := false } }).goto t
      (afterRecv accepted)

/-! ## `ProcessRecv` -/

/-- The next step of thread `t` inside `ProcessRecv`, up to the call of `RegisterRecv`. -/
def readNext (junk : Nat → BYTE) (s : ServiceState Tid K) (t : Tid) (a : Nat) :
    ReadPc K.Prog → Option (ServiceState Tid K)
  | .clear numOfBytes =>
    some ((s.setSession a { s.session a with recvEvent := { (s.session a).recvEvent with owner := false } }).goto t
      (.processRecv a (.check numOfBytes)))
  | .check numOfBytes =>
    if numOfBytes = 0 then some (s.disconnect t a ⟨.idle, none, none⟩)
    else match (s.session a).recvBuffer.onWrite numOfBytes with
      | (false, _) => some (s.disconnect t a ⟨.idle, none, none⟩)
      | (true, b) => some ((s.setSession a { s.session a with recvBuffer := b }).goto t (.processRecv a (.loop 0)))
  | .loop processLen =>
    let b := (s.session a).recvBuffer
    match packetHead (b.data.drop processLen) with
    | some size =>
      some (s.goto t (.processRecv a (.packet (processLen + size) (K.onRecvPacket (b.data.drop processLen) size))))
    | none =>
      if (processLen : Int) < 0 ∨ b.dataSize < processLen then some (s.disconnect t a ⟨.idle, none, none⟩)
      else match b.onRead processLen with
        | (false, _) => some (s.disconnect t a ⟨.idle, none, none⟩)
        | (true, b) => some ((s.setSession a { s.session a with recvBuffer := b.clean junk }).goto t
            (.registerRecv a false .check))
  | .packet processLen prog =>
    s.callback t a prog (fun prog => .processRecv a (.packet processLen prog)) (.processRecv a (.loop processLen)) id

/-! ## `ProcessDisconnect` -/

/-- The next step of thread `t` inside `ProcessDisconnect`. -/
def partNext (s : ServiceState Tid K) (t : Tid) (a : Nat) : PartPc K.Prog → Option (ServiceState Tid K)
  | .clear =>
    some ((s.setSession a { s.session a with
      disconnectEvent := { (s.session a).disconnectEvent with owner := false } }).goto t
      (.processDisconnect a (.onDisconnected K.onDisconnected)))
  | .onDisconnected prog =>
    s.callback t a prog (fun prog => .processDisconnect a (.onDisconnected prog)) (.processDisconnect a .release)
      (fun history => { history with parted := history.parted + 1 })
  | .release =>
    if s.lock = none then
      if a ∈ s.sessions then
        some (({ s with lock := some t, sessions := s.sessions.erase a }.setSession a { s.session a with
          history := { (s.session a).history with released := (s.session a).history.released + 1 } }).goto t
          (.processDisconnect a .uncount))
      else some { s with crashed := some .releaseSession }
    else none
  | .uncount => some ({ s with lock := none, sessionCount := s.sessionCount - 1 }.goto t .idle)

/-! ## A thread -/

def taskNext (type : ServiceType) (junk : Nat → BYTE) (s : ServiceState Tid K) (t : Tid) (answer : Answer) :
    Task K.Prog Buf → Option (ServiceState Tid K)
  | .idle => none
  | .registerConnect a pc => some (s.connectNext type t a answer pc)
  | .registerAccept => some (s.createSession t .acceptEx)
  | .acceptEx a => some (s.acceptExNext t a answer)
  | .processAccept a => some (s.acceptNext t a answer)
  | .processConnect a accepted pc => s.openNext t a accepted pc
  | .registerRecv a accepted pc => some (s.recvNext t a accepted answer pc)
  | .processRecv a pc => s.readNext junk t a pc
  | .processDisconnect a pc => s.partNext t a pc
  | .broadcast _ [] => some ({ s with lock := none }.goto t .idle)
  | .broadcast sendBuffer (b :: sessions) => s.callSend t b sendBuffer (.broadcast sendBuffer sessions)

/-- The next step of thread `t`: what it is innermost in goes first. -/
def next (type : ServiceType) (junk : Nat → BYTE) (s : ServiceState Tid K) (t : Tid) (answer : Answer) :
    Option (ServiceState Tid K) :=
  match (s.workers t).closing with
  | some (a, pc) => some (s.closeNext t a answer pc)
  | none =>
    match (s.workers t).sending with
    | some a =>
      (sendStep (s.session a).send (.next t answer.wsa)).map (s.setSend t a (s.workers t).task)
    | none => s.taskNext type junk t answer (s.workers t).task

end ServiceState

/-! ## The steps of the service -/

/-- A completion packet of the port. -/
inductive Completion
  | connect (a : Nat)
  | disconnect (a : Nat)
  | accept (a : Nat)
  /-- Of the receive number `i` that is in flight; the system has stored these bytes. -/
  | recv (a i : Nat) (bytes : List BYTE)
  /-- Of the send number `i` that is in flight. -/
  | send (a i numOfBytes : Nat)
  deriving DecidableEq, Repr

inductive ServiceAct (Tid Buf : Type)
  /-- `Listener::StartAccept` calls `RegisterAccept`. -/
  | startAccept (t : Tid)
  /-- `ClientService::Start` calls `CreateSession` and `Connect`. -/
  | connect (t : Tid)
  /-- A thread inside the code takes its next step. -/
  | next (t : Tid) (answer : Answer)
  /-- `IocpCore::Dispatch` takes a completion; `error` is the code of one that has failed. -/
  | dequeue (t : Tid) (completion : Completion) (error : Option Nat)
  /-- The contents code calls `Session::Send`. -/
  | send (t : Tid) (b : Nat) (sendBuffer : Buf)
  /-- The contents code calls `Session::Disconnect`. -/
  | disconnect (t : Tid) (b : Nat)
  /-- `Service::Broadcast`, whose loop goes through the set in this order. -/
  | broadcast (t : Tid) (sendBuffer : Buf) (order : List Nat)
  /-- The last reference to a session goes. -/
  | destroy (a : Nat)

def WAIT_TIMEOUT : Nat := 258

namespace ServiceState

def isIdle (s : ServiceState Tid K) (t : Tid) : Bool :=
  match s.workers t with
  | ⟨.idle, none, none⟩ => true
  | _ => false

/-- `IocpCore::Dispatch` has taken a completion whose event has this owner; through a null one it cannot call. -/
def dispatch (s : ServiceState Tid K) (owner : Bool) : ServiceState Tid K :=
  if owner = true then s else { s with crashed := some .nullOwner }

/-- `IocpCore::Dispatch` and `Session::Dispatch`: whether the completion has failed makes no difference to them. -/
def dequeue (s : ServiceState Tid K) (t : Tid) (error : Option Nat) : Completion → Option (ServiceState Tid K)
  | .connect a =>
    let session := s.session a
    let history := session.history
    match session.connectEvent.ops with
    | [] => none
    | _ :: ops => some (((s.setSession a { session with
        connectEvent := { session.connectEvent with ops := ops },
        history := { history with
          connects := history.connects + 1,
          connectOk := history.connectOk + (if error = none then 1 else 0),
          connectFailed := history.connectFailed + (if error = none then 0 else 1) } }).goto t
        (.processConnect a false .store)).dispatch session.connectEvent.owner)
  | .disconnect a =>
    let session := s.session a
    let history := session.history
    match session.disconnectEvent.ops with
    | [] => none
    | _ :: ops => some (((s.setSession a { session with
        disconnectEvent := { session.disconnectEvent with ops := ops },
        history := { history with disconnects := history.disconnects + 1 } }).goto t
        (.processDisconnect a .clear)).dispatch session.disconnectEvent.owner)
  | .accept a =>
    match (s.session a).accepts with
    | [] => none
    | _ :: accepts => some ((s.setSession a { s.session a with accepts := accepts }).goto t (.processAccept a))
  | .recv a i bytes =>
    let session := s.session a
    match session.recvEvent.ops[i]? with
    | none => none
    | some posted =>
      if bytes.length ≤ posted.len then
        some (((s.setSession a { session with
          recvBuffer := session.recvBuffer.store posted.pos bytes,
          recvEvent := { session.recvEvent with ops := session.recvEvent.ops.eraseIdx i } }).goto t
          (.processRecv a (.clear bytes.length))).dispatch session.recvEvent.owner)
      else none
  | .send a i numOfBytes =>
    (sendStep (s.session a).send (.complete t i numOfBytes)).map (fun send =>
      (s.setSend t a .idle send).dispatch (s.session a).send.sendEvent.owner)

end ServiceState

/-- The session a task is about. -/
def Task.session? {Prog : Type} : Task Prog Buf → Option Nat
  | .idle | .registerAccept | .broadcast _ _ => none
  | .registerConnect a _ | .acceptEx a | .processAccept a | .processConnect a _ _ | .registerRecv a _ _
  | .processRecv a _ | .processDisconnect a _ => some a

/-- The thread has a reference to session `a`. -/
def ServiceWorker.uses {Prog : Type} (w : ServiceWorker Prog Buf) (a : Nat) : Prop :=
  w.task.session? = some a ∨ w.sending = some a ∨ w.closing.map Prod.fst = some a

instance {Prog : Type} (w : ServiceWorker Prog Buf) (a : Nat) : Decidable (w.uses a) :=
  inferInstanceAs (Decidable (_ ∨ _ ∨ _))

/-- A reference to session `a` is left: an event's `owner`, an `acceptEvent->session`, the set of the service, or a
thread's. -/
def ServiceState.referenced (s : ServiceState Tid K) (a : Nat) : Prop :=
  (s.session a).connectEvent.owner = true ∨ (s.session a).disconnectEvent.owner = true ∨
    (s.session a).recvEvent.owner = true ∨ (s.session a).send.sendEvent.owner = true ∨ (s.session a).accepts ≠ [] ∨
    a ∈ s.sessions ∨ ∃ t, (s.workers t).uses a

instance [Fintype Tid] (s : ServiceState Tid K) (a : Nat) : Decidable (s.referenced a) :=
  inferInstanceAs (Decidable (_ ∨ _ ∨ _ ∨ _ ∨ _ ∨ _ ∨ _))

/-- One step of a service of this type; `junk` is what `memcpy` makes of overlapping ranges. -/
def serviceStep [Fintype Tid] (type : ServiceType) (junk : Nat → BYTE) (s : ServiceState Tid K)
    (act : ServiceAct Tid Buf) : Option (ServiceState Tid K) :=
  if s.crashed ≠ none then none
  else match act with
    | .startAccept t => if s.isIdle t = true ∧ type = .Server then some (s.goto t .registerAccept) else none
    | .connect t => if s.isIdle t = true then some (s.createSession t (fun a => .registerConnect a .check)) else none
    | .next t answer => s.next type junk t answer
    | .dequeue t completion error =>
      if s.isIdle t = true ∧ error ≠ some WAIT_TIMEOUT then s.dequeue t error completion else none
    | .send t b sendBuffer => if s.isIdle t = true ∧ s.known b then s.callSend t b sendBuffer .idle else none
    | .disconnect t b =>
      if s.isIdle t = true ∧ s.known b then some (s.disconnect t b ⟨.idle, none, none⟩) else none
    | .broadcast t sendBuffer order =>
      if s.isIdle t = true ∧ s.lock = none ∧ order.Nodup ∧ order.toFinset = s.sessions then
        some ({ s with lock := some t }.goto t (.broadcast sendBuffer order))
      else none
    | .destroy a =>
      if a < s.numSessions ∧ (s.session a).destroyed = false ∧ ¬ s.referenced a then
        some (s.setSession a { s.session a with destroyed := true })
      else none

/-- A service before it is started. -/
def serviceState₀ (K : Contents Buf) (contents : K.State) : ServiceState Tid K :=
  ⟨fun _ => .new, 0, ∅, 0, none, fun _ => ⟨.idle, none, none⟩, contents, none⟩

end Geon
